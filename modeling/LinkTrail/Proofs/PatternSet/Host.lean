import LinkTrail.Proofs.PatternSet.Union
import LinkTrail.Proofs.Url.Located

/-!
The host of an accepted URL. Main statements: a URL that a pattern with a plain host covers is cut
into parts with that host (`Parts.locates_of_covers`), so the sets of such patterns and of domains
accept no URL of another host (`accepts_locates`).
-/

namespace LinkTrail.Pattern

open LinkTrail.Text

variable {p : Parts} {text : String} {s : List Char} {mark : Char}

/-- The host of a domain or of a subdomain: letters, digits, hyphens and dots. -/
def IsDomain (host : String) : Prop :=
  host ≠ "" ∧ ∀ c ∈ host.toList, isHostChar c = true

def urlSchemes : List String := ["*", "http", "https", "ws", "wss", "ftp"]

namespace Parts

def AllowsScheme (p : Parts) (scheme : List Char) : Prop :=
  if p.scheme = "*" then scheme ∈ Url.schemeList ["http", "https", "ws", "wss"]
  else scheme = p.scheme.toList

def NamesHost (p : Parts) (host : List Char) : Prop :=
  host = lower p.host.toList ∨ p.subdomains = true ∧ '.' :: lower p.host.toList <:+ host

/-- The text has the parts of a URL, and they name an allowed scheme and the host and no user. -/
def Locates (p : Parts) (s : List Char) : Prop :=
  ∃ u host, Url.split s = .ok u ∧ p.AllowsScheme u.scheme ∧ '@' ∉ u.authority ∧
    u.host? = some host ∧ p.NamesHost host

end Parts

theorem eq_of_head?_tail (h : IsTail mark s) : ∀ c ∈ s.head?, c = mark := by
  obtain rfl | ⟨rest, rfl, -⟩ := h
  · simp
  · simp

theorem eq_of_head?_path (hroot : p.path.toList.head? = some '/') (h : p.IsPath s) :
    ∀ c ∈ s.head?, c = '/' := by
  unfold Parts.IsPath at h
  split_ifs at h with hslash hany
  · obtain rfl | rfl := h
    · simp
    · simp
  · exact eq_of_head?_tail h
  · obtain ⟨rest, hpath⟩ := List.head?_eq_some_iff.1 hroot
    rw [hpath, fills_char_iff (by decide)] at h
    obtain ⟨d, tail, rfl, hd, -⟩ := h
    have heq : d = '/' := (toLower_eq_toLower_iff (by rfl)).1 hd.symm
    simpa using heq

theorem endsAuthority_of_head? (hmark : Url.endsAuthority mark = true)
    (h : ∀ c ∈ s.head?, c = mark) : ∀ c ∈ s.head?, Url.endsAuthority c = true := by
  intro c hc
  rw [h c hc]
  exact hmark

theorem forall_head?_append {P : Char → Prop} {a b : List Char} (ha : ∀ c ∈ a.head?, P c)
    (hb : ∀ c ∈ b.head?, P c) : ∀ c ∈ (a ++ b).head?, P c := by
  cases a with
  | nil => exact hb
  | cons first a => exact ha

theorem endsAuthority_behind {path query fragment : List Char}
    (hroot : p.path.toList.head? = some '/') (hpath : p.IsPath path) (hquery : IsTail '?' query)
    (hfragment : IsTail '#' fragment) :
    ∀ c ∈ (path ++ query ++ fragment).head?, Url.endsAuthority c = true := by
  refine forall_head?_append (forall_head?_append ?_ ?_) ?_
  · exact endsAuthority_of_head? rfl (eq_of_head?_path hroot hpath)
  · exact endsAuthority_of_head? rfl (eq_of_head?_tail hquery)
  · exact endsAuthority_of_head? rfl (eq_of_head?_tail hfragment)

theorem isAlpha_of_hostScheme (hname : text ∈ hostSchemes) (hstar : text ≠ "*") :
    text ≠ "" ∧ ∀ c ∈ text.toList, c.isAlpha = true := by
  simp only [hostSchemes, List.mem_cons, List.not_mem_nil, or_false, hstar, false_or] at hname
  obtain rfl | rfl | rfl | rfl | rfl | rfl := hname <;> simp

theorem mem_hostSchemes_of_urlScheme (h : text ∈ urlSchemes) : text ∈ hostSchemes := by
  simp only [urlSchemes, List.mem_cons, List.not_mem_nil, or_false] at h
  obtain rfl | rfl | rfl | rfl | rfl | rfl := h <;> simp [hostSchemes]

theorem hasHost_of_urlScheme (h : p.scheme ∈ urlSchemes) : p.hasHost = true :=
  decide_eq_true (mem_hostSchemes_of_urlScheme h)

theorem isAlpha_of_spells (hname : text ∈ hostSchemes) (hstar : text ≠ "*") (h : Spells text s) :
    s ≠ [] ∧ (∀ c ∈ s, c.isAlpha = true) ∧ s.map Char.toLower = text.toList := by
  obtain ⟨hne, hletters⟩ := isAlpha_of_hostScheme hname hstar
  have hlower : s.map Char.toLower = text.toList :=
    (spells_iff_of_known (mem_hostSchemes_iff.1 hname).1).1 h
  refine ⟨?_, ?_, hlower⟩
  · rintro rfl
    exact hne (String.toList_eq_nil_iff.1 hlower.symm)
  · intro c hc
    have hmem : c.toLower ∈ text.toList := hlower ▸ List.mem_map_of_mem hc
    simpa using hletters c.toLower hmem

theorem scheme_of_isScheme (hhas : p.hasHost = true) (h : p.IsScheme s) :
    s ≠ [] ∧ (∀ c ∈ s, c.isAlpha = true) ∧ p.AllowsScheme (s.map Char.toLower) := by
  unfold Parts.IsScheme at h
  unfold Parts.AllowsScheme
  split_ifs at h ⊢ with hstar
  · obtain ⟨name, hname, hspells⟩ := h
    have hweb : name ∈ hostSchemes ∧ name ≠ "*" := by
      simp only [List.mem_cons, List.not_mem_nil, or_false] at hname
      obtain rfl | rfl | rfl | rfl := hname <;> simp [hostSchemes]
    obtain ⟨hne, hletters, hlower⟩ := isAlpha_of_spells hweb.1 hweb.2 hspells
    exact ⟨hne, hletters, hlower ▸ List.mem_map_of_mem hname⟩
  · exact isAlpha_of_spells (of_decide_eq_true hhas) hstar h

theorem isHostChar_of_spells (hhost : IsDomain text) (h : Spells text s) :
    ∀ c ∈ s, isHostChar c = true := by
  rw [← isHostChar_lowered_iff, h, isHostChar_lowered_iff]
  exact hhost.2

theorem IsLabels.isHostChar (h : IsLabels s) : ∀ c ∈ s, isHostChar c = true := by
  induction h with
  | none => simp
  | @more label rest hne hlabel hrest ih =>
      intro c hc
      simp only [List.mem_append, List.mem_cons] at hc
      obtain hc | rfl | hc := hc
      · simp [Pattern.isHostChar, hlabel c hc]
      · rfl
      · exact ih c hc

theorem IsLabels.eq_nil_or_append (h : IsLabels s) : s = [] ∨ ∃ front, s = front ++ ['.'] := by
  induction h with
  | none => exact Or.inl rfl
  | @more label rest hne hlabel hrest ih =>
      obtain rfl | ⟨front, rfl⟩ := ih
      · exact Or.inr ⟨label, rfl⟩
      · exact Or.inr ⟨label ++ '.' :: front, by simp⟩

theorem isHost_iff_of_isDomain (hhas : p.hasHost = true) (hhost : IsDomain p.host) :
    p.IsHost s ↔ ∃ labels name, s = labels ++ name ∧ Spells p.host name ∧
      if p.subdomains then IsLabels labels else labels = [] := by
  have hstar : p.host ≠ "*" := by
    intro heq
    have := hhost.2 '*' (by simp [heq])
    contradiction
  simp only [Parts.IsHost, hhas, if_true, if_neg hstar]

theorem host_of_isHost (hhas : p.hasHost = true) (hhost : IsDomain p.host) (h : p.IsHost s) :
    s ≠ [] ∧ (∀ c ∈ s, isHostChar c = true) ∧ p.NamesHost (lower s) := by
  obtain ⟨labels, name, rfl, hname, hlabels⟩ := (isHost_iff_of_isDomain hhas hhost).1 h
  have hplain : ∀ c ∈ name, isHostChar c = true := isHostChar_of_spells hhost hname
  have hlower : name.map Char.toLower = lower p.host.toList :=
    hname.trans (Url.lower_of_isHostChar hhost.2).symm
  have hne : name ≠ [] := by
    rintro rfl
    exact hhost.1 (String.toList_eq_nil_iff.1 (List.map_eq_nil_iff.1 hname.symm))
  split_ifs at hlabels with hsub
  · have hall : ∀ c ∈ labels ++ name, isHostChar c = true := by
      intro c hc
      exact (List.mem_append.1 hc).elim (hlabels.isHostChar c) (hplain c)
    refine ⟨by simp [hne], hall, ?_⟩
    rw [Url.lower_of_isHostChar hall, List.map_append, hlower]
    obtain rfl | ⟨front, rfl⟩ := hlabels.eq_nil_or_append
    · exact Or.inl rfl
    · exact Or.inr ⟨hsub, front.map Char.toLower, by simp⟩
  · subst hlabels
    refine ⟨hne, hplain, Or.inl ?_⟩
    rw [List.nil_append, Url.lower_of_isHostChar hplain, hlower]

theorem Parts.locates_of_covers (hscheme : p.scheme ∈ urlSchemes) (hhost : IsDomain p.host)
    (hroot : p.path.toList.head? = some '/') (h : p.Covers s) : p.Locates s := by
  obtain ⟨scheme, host, port, path, query, fragment, rfl, hisScheme, hisHost, hisPort, hisPath,
    hquery, hfragment⟩ := h
  have hhas := hasHost_of_urlScheme hscheme
  have hfile : p.scheme ≠ "file" := by
    intro heq
    rw [heq] at hscheme
    simp [urlSchemes] at hscheme
  simp only [Parts.IsPort, hhas, true_and, ne_eq, hfile, not_false_eq_true, if_true] at hisPort
  obtain ⟨hschemeNe, hletters, hallows⟩ := scheme_of_isScheme hhas hisScheme
  obtain ⟨hhostNe, hplain, hnames⟩ := host_of_isHost hhas hhost hisHost
  have hauthority := Url.isAuthorityChar_of_plain hplain hisPort
  have hrest := endsAuthority_behind hroot hisPath hquery hfragment
  obtain ⟨u, hsplit, huScheme, huAuthority⟩ :=
    Url.split_located hschemeNe hletters hauthority hrest
  refine ⟨u, lower host, ?_, huScheme ▸ hallows, ?_, ?_, hnames⟩
  · rw [← hsplit]
    simp [Parts.separator, hhas]
  · rw [huAuthority]
    exact Url.not_mem_of_isAuthorityChar hauthority rfl
  · exact Url.host?_of_authority huAuthority hhostNe hplain hisPort

theorem parse_domainText (subdomains : Bool) {domain : String} (h : IsDomain domain) :
    parse (domainText subdomains domain) = .ok (ofDomain subdomains domain) := by
  have hname : IsHostName domain.toList := by
    refine ⟨by simpa using h.1, ?_, ?_⟩
    · intro hmem
      exact absurd (h.2 '*' hmem) (by decide)
    · intro hmem
      exact absurd (h.2 '/' hmem) (by decide)
  have hscheme : Spells "*" ['*'] := rfl
  have hstar : "*" ∈ hostSchemes := by decide
  have hpath : '\n' ∉ ['*'] := by decide
  rw [parse_eq_ok_iff]
  cases subdomains with
  | false =>
      simpa [domainText, ofDomain] using Reads.located hstar hscheme (.exact hname) hpath
  | true =>
      simpa [domainText, ofDomain] using Reads.located hstar hscheme (.subdomains hname) hpath

theorem locates_of_accepts {set : PatternSet} {url : String}
    (hparse : parse text = .ok (parts p)) (hscheme : p.scheme ∈ urlSchemes)
    (hhost : IsDomain p.host) (hset : PatternSet.ofPatterns [text] = .ok set)
    (h : set.accepts url = true) : p.Locates url.toList := by
  have hmatches := (PatternSet.accepts_singleton_iff hparse).1 ⟨set, hset, h⟩
  have hroot := (parse_eq_ok_iff.1 hparse).valid.rooted (hasHost_of_urlScheme hscheme)
  exact p.locates_of_covers hscheme hhost hroot (matches_regex_iff.1 hmatches)

theorem accepts_locates :
    (∀ text p, parse text = .ok (parts p) → p.scheme ∈ urlSchemes → IsDomain p.host →
      ∃ set, PatternSet.ofPatterns [text] = .ok set ∧
        ∀ url, set.accepts url = true → p.Locates url.toList) ∧
    ∀ domains subdomains, (∀ domain ∈ domains, IsDomain domain) →
      ∃ set, PatternSet.ofDomains domains subdomains = .ok set ∧
        ∀ url, set.accepts url = true →
          ∃ domain ∈ domains, Parts.Locates ⟨"*", subdomains, domain, "/*"⟩ url.toList := by
  constructor
  · intro text p hparse hscheme hhost
    have hset := PatternSet.ofPatterns_singleton hparse
    exact ⟨_, hset, fun url h => locates_of_accepts hparse hscheme hhost hset h⟩
  · intro domains subdomains hdomains
    have hvalid : ∀ text ∈ PatternSet.domainTexts domains subdomains, PatternSet.IsValid text := by
      intro text htext
      obtain ⟨domain, hdomain, rfl⟩ := List.mem_map.1 htext
      exact ⟨_, parse_domainText subdomains (hdomains domain hdomain)⟩
    obtain ⟨set, hset, hunion⟩ := PatternSet.exists_isUnion hvalid
    refine ⟨set, hset, ?_⟩
    intro url h
    obtain ⟨text, htext, single, hsingle, haccepts⟩ := (hunion.accepts url).1 h
    obtain ⟨domain, hdomain, rfl⟩ := List.mem_map.1 htext
    exact ⟨domain, hdomain, locates_of_accepts (parse_domainText subdomains (hdomains _ hdomain))
      (by simp [urlSchemes]) (hdomains _ hdomain) hsingle haccepts⟩

theorem accepts_locates_subdomain :
    (∃ set, PatternSet.ofPatterns ["https://*.Example.org/a*"] = .ok set ∧
      set.accepts "HTTPS://b.example.ORG:80/ab?@c.d/" = true ∧
      Parts.Locates ⟨"https", true, "Example.org", "/a*"⟩
        "HTTPS://b.example.ORG:80/ab?@c.d/".toList) ∧
    ∃ set, PatternSet.ofDomains ["Example.org"] true = .ok set ∧
      set.accepts "ws://b.example.org" = true ∧
      ∃ domain ∈ ["Example.org"],
        Parts.Locates ⟨"*", true, domain, "/*"⟩ "ws://b.example.org".toList := by
  have hhost : IsDomain "Example.org" := ⟨by decide, by simp [isHostChar, isLabelChar]⟩
  constructor
  · have hparse : parse "https://*.Example.org/a*" =
        .ok (parts ⟨"https", true, "Example.org", "/a*"⟩) := rfl
    obtain ⟨set, hset, hlocates⟩ := accepts_locates.1 _ _ hparse (by decide) hhost
    have haccepts : set.accepts "HTTPS://b.example.ORG:80/ab?@c.d/" = true := by
      rw [PatternSet.ofPatterns_singleton hparse] at hset
      obtain rfl := Except.ok.inj hset
      rfl
    exact ⟨set, hset, haccepts, hlocates _ haccepts⟩
  · obtain ⟨set, hset, hlocates⟩ := accepts_locates.2 ["Example.org"] true (by simp [hhost])
    have hsingle : PatternSet.ofDomains ["Example.org"] true = _ :=
      PatternSet.ofPatterns_singleton (parse_domainText true hhost)
    have haccepts : set.accepts "ws://b.example.org" = true := by
      rw [hsingle] at hset
      obtain rfl := Except.ok.inj hset
      rfl
    exact ⟨set, hset, haccepts, hlocates _ haccepts⟩

end LinkTrail.Pattern
