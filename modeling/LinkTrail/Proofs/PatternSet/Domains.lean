import LinkTrail.AmpCache
import LinkTrail.Proofs.PatternSet.Host
import LinkTrail.Proofs.Regex.Letters
import LinkTrail.Proofs.Url.Location
import LinkTrail.Shortener

/-!
The URLs that sets of domains accept. Main statement: these are the URLs of a web scheme, a host of
the domains and anything within one line behind it (`PatternSet.domainSet_accepts_iff`).
-/

namespace LinkTrail

open LinkTrail.Text LinkTrail.Pattern

section

variable {mark : Char} {s : List Char}

theorem not_mem_of_isTail (hmark : mark ≠ '\n') (h : IsTail mark s) : '\n' ∉ s := by
  obtain rfl | ⟨rest, rfl, hrest⟩ := h
  · exact List.not_mem_nil
  · simp [hmark.symm, hrest]

theorem isTail_of_isMarked (hmarked : IsMarked mark s) (hline : '\n' ∉ s) : IsTail mark s := by
  obtain rfl | ⟨rest, rfl⟩ := isMarked_iff.1 hmarked
  · exact Or.inl rfl
  · exact Or.inr ⟨rest, rfl, fun hmem => hline (List.mem_cons_of_mem _ hmem)⟩

theorem endsAuthority_of_isTail (hmark : Url.endsAuthority mark = true) (h : IsTail mark s) :
    ∀ c ∈ s.head?, Url.endsAuthority c = true :=
  endsAuthority_of_head? hmark (eq_of_head?_tail h)

/-- A path, a query and a fragment within one line, each of which can be missing. -/
theorem exists_tails_iff :
    (∃ path query fragment, s = path ++ query ++ fragment ∧ IsTail '/' path ∧
      IsTail '?' query ∧ IsTail '#' fragment) ↔
    (∀ c ∈ s.head?, Url.endsAuthority c = true) ∧ '\n' ∉ s := by
  constructor
  · rintro ⟨path, query, fragment, rfl, hpath, hquery, hfragment⟩
    refine ⟨forall_head?_append (forall_head?_append ?_ ?_) ?_, ?_⟩
    · exact endsAuthority_of_isTail rfl hpath
    · exact endsAuthority_of_isTail rfl hquery
    · exact endsAuthority_of_isTail rfl hfragment
    · simp [not_mem_of_isTail (by decide) hpath, not_mem_of_isTail (by decide) hquery,
        not_mem_of_isTail (by decide) hfragment]
  · rintro ⟨hends, hline⟩
    obtain ⟨fragment, hs, hnumber, hfragment, -⟩ := cut_spec '#' s
    obtain ⟨query, hfront, hquestion, hquery, -⟩ := cut_spec '?' (cut '#' s).1
    have hwhole : s = (cut '?' (cut '#' s).1).1 ++ query ++ fragment := by rw [← hfront, ← hs]
    have hlines : '\n' ∉ (cut '?' (cut '#' s).1).1 ∧ '\n' ∉ query ∧ '\n' ∉ fragment := by
      rw [hwhole] at hline
      simpa [and_assoc] using hline
    have hpath : IsMarked '/' (cut '?' (cut '#' s).1).1 := Url.isMarked_pathPart hends
    exact ⟨_, query, fragment, hwhole, isTail_of_isMarked hpath hlines.1,
      isTail_of_isMarked hquery hlines.2.1, isTail_of_isMarked hfragment hlines.2.2⟩

end

namespace Pattern

variable {p : Parts} {s t : List Char}

theorem IsLabels.respelled (h : IsLabels s) (ht : t.map Char.toLower = s.map Char.toLower) :
    IsLabels t :=
  matches_anySubdomains_iff.1 ((matches_anySubdomains_iff.2 h).of_fold ht)

theorem Parts.IsHost.respelled (h : p.IsHost s) (ht : t.map Char.toLower = s.map Char.toLower) :
    p.IsHost t := by
  unfold Parts.IsHost at h ⊢
  cases hhas : p.hasHost with
  | false =>
      simp only [hhas, Bool.false_eq_true, if_false] at h ⊢
      subst h
      exact List.map_eq_nil_iff.1 ht
  | true =>
      simp only [hhas, if_true] at h ⊢
      exact Parts.matches_placeRegex_iff.1 ((Parts.matches_placeRegex_iff.2 h).of_fold ht)

end Pattern

namespace Url.Location

/-- Within one line, the location has a web scheme, and its host is one of the domains. -/
structure IsIn (domains : List String) (subdomains : Bool) (l : Location) : Prop where
  web : ∃ name ∈ ["http", "https", "ws", "wss"], Spells name l.scheme
  host : ∃ domain ∈ domains, Parts.IsHost ⟨"*", subdomains, domain, "/*"⟩ l.host
  line : '\n' ∉ l.rest

variable {l : Location}

theorem isAlpha_of_web {s : List Char}
    (h : ∃ name ∈ ["http", "https", "ws", "wss"], Spells name s) :
    (s ≠ [] ∧ ∀ c ∈ s, c.isAlpha = true) ∧ s.map Char.toLower ∈ specialSchemes := by
  have hscheme : Parts.IsScheme ⟨"*", false, "", ""⟩ s := h
  obtain ⟨hne, hletters, hlowered⟩ := scheme_of_isScheme (by rfl) hscheme
  refine ⟨⟨hne, hletters⟩, ?_⟩
  rw [specialSchemes]
  simp only [Parts.AllowsScheme, schemeList, if_true, List.map_cons, List.map_nil, List.mem_cons,
    List.not_mem_nil, or_false] at hlowered ⊢
  tauto

theorem IsIn.respelled {m : Location} {domains : List String} {subdomains : Bool}
    (h : l.IsIn domains subdomains)
    (hscheme : m.scheme.map Char.toLower = l.scheme.map Char.toLower)
    (hhost : m.host.map Char.toLower = l.host.map Char.toLower) (hline : '\n' ∉ m.rest) :
    m.IsIn domains subdomains := by
  obtain ⟨⟨name, hname, hspells⟩, ⟨domain, hdomain, hisHost⟩, -⟩ := h
  exact ⟨⟨name, hname, hscheme.trans hspells⟩, ⟨domain, hdomain, hisHost.respelled hhost⟩, hline⟩

end Url.Location

namespace Pattern

variable {domain : String} {subdomains : Bool} {s : List Char}

theorem covers_domain_iff (hdomain : IsDomain domain) :
    Parts.Covers ⟨"*", subdomains, domain, "/*"⟩ s ↔
      ∃ l : Url.Location, s = l.text ∧ l.IsIn [domain] subdomains := by
  constructor
  · rintro ⟨scheme, host, port, path, query, fragment, rfl, hscheme, hhost, hport, hpath, hquery,
      hfragment⟩
    obtain ⟨hne, hplain, -⟩ := host_of_isHost (by simp [Parts.hasHost, hostSchemes]) hdomain hhost
    have hweb : ∃ name ∈ ["http", "https", "ws", "wss"], Spells name scheme := by
      simpa [Parts.IsScheme] using hscheme
    have hport : IsAnyPort port := by
      simpa [Parts.IsPort, Parts.hasHost, hostSchemes] using hport
    have hpath : IsTail '/' path := by simpa [Parts.IsPath] using hpath
    obtain ⟨hends, hline⟩ :=
      exists_tails_iff.1 ⟨path, query, fragment, rfl, hpath, hquery, hfragment⟩
    let l : Url.Location := ⟨scheme, host, port, path ++ query ++ fragment,
      (Url.Location.isAlpha_of_web hweb).1, ⟨hne, hplain⟩, hport, hends⟩
    refine ⟨l, ?_, hweb, ⟨domain, List.mem_singleton_self domain, hhost⟩, hline⟩
    simp [l, Url.Location.text, Url.Location.front, Url.Location.authority, Parts.separator,
      Parts.hasHost, hostSchemes]
  · rintro ⟨l, rfl, hweb, ⟨name, hname, hhost⟩, hline⟩
    obtain rfl := List.mem_singleton.1 hname
    obtain ⟨path, query, fragment, hrest, hpath, hquery, hfragment⟩ :=
      exists_tails_iff.2 ⟨l.rest_form, hline⟩
    refine ⟨l.scheme, l.host, l.port, path, query, fragment, ?_, ?_, hhost, ?_, ?_, hquery,
      hfragment⟩
    · simp [Url.Location.text, Url.Location.front, Url.Location.authority, hrest, Parts.separator,
        Parts.hasHost, hostSchemes]
    · simpa [Parts.IsScheme] using hweb
    · simpa [Parts.IsPort, Parts.hasHost, hostSchemes] using l.port_form
    · simpa [Parts.IsPath] using hpath

end Pattern

namespace PatternSet

variable {domains : List String} {subdomains : Bool} {url : String}

def domainSet (domains : List String) (subdomains : Bool) : PatternSet :=
  ⟨domains.map fun domain => (Pattern.ofDomain subdomains domain).regex⟩

theorem ofDomains_eq (hdomains : ∀ domain ∈ domains, Pattern.IsDomain domain) :
    ofDomains domains subdomains = .ok (domainSet domains subdomains) := by
  induction domains with
  | nil => rfl
  | cons domain domains ih =>
      obtain ⟨hdomain, hrest⟩ := List.forall_mem_cons.1 hdomains
      have htexts : ofPatterns (domains.map (domainText subdomains)) = _ := ih hrest
      rw [ofDomains, domainTexts, List.map_cons,
        ofPatterns_cons_of_ok (parse_domainText subdomains hdomain), htexts]
      rfl

theorem domainSet_accepts_iff (hdomains : ∀ domain ∈ domains, Pattern.IsDomain domain) :
    (domainSet domains subdomains).accepts url = true ↔
      ∃ l : Url.Location, url.toList = l.text ∧ l.IsIn domains subdomains := by
  have hmember (domain : String) (hdomain : domain ∈ domains) :
      Regex.Matches .ignoreAsciiCase (ofDomain subdomains domain).regex url.toList ↔
        ∃ l : Url.Location, url.toList = l.text ∧ l.IsIn [domain] subdomains :=
    matches_regex_iff.trans (covers_domain_iff (hdomains domain hdomain))
  rw [accepts_iff]
  constructor
  · rintro ⟨member, hmem, hmatches⟩
    obtain ⟨domain, hdomain, rfl⟩ := List.mem_map.1 hmem
    obtain ⟨l, heq, hweb, ⟨name, hname, hhost⟩, hline⟩ := (hmember domain hdomain).1 hmatches
    obtain rfl := List.mem_singleton.1 hname
    exact ⟨l, heq, hweb, ⟨name, hdomain, hhost⟩, hline⟩
  · rintro ⟨l, heq, hweb, ⟨domain, hdomain, hhost⟩, hline⟩
    refine ⟨_, List.mem_map.2 ⟨domain, hdomain, rfl⟩, (hmember domain hdomain).2 ⟨l, heq, hweb, ?_,
      hline⟩⟩
    exact ⟨domain, List.mem_singleton_self domain, hhost⟩

theorem isDomain_of_shortener : ∀ domain ∈ Shortener.domains, Pattern.IsDomain domain := by
  simp [Shortener.domains, Pattern.IsDomain, isHostChar, isLabelChar]

theorem isDomain_of_cache : ∀ domain ∈ AmpCache.domains, Pattern.IsDomain domain := by
  simp [AmpCache.domains, Pattern.IsDomain, isHostChar, isLabelChar]

theorem shortener_serves_iff :
    Shortener.serves url = true ↔
      ∃ l : Url.Location, url.toList = l.text ∧ l.IsIn Shortener.domains true :=
  domainSet_accepts_iff isDomain_of_shortener

theorem cache_serves_iff :
    AmpCache.serves url = true ↔
      ∃ l : Url.Location, url.toList = l.text ∧ l.IsIn AmpCache.domains true :=
  domainSet_accepts_iff isDomain_of_cache

end PatternSet

end LinkTrail
