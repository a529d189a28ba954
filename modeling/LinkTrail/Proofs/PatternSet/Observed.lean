import LinkTrail.Proofs.Pathfinder.Attended
import LinkTrail.Proofs.PatternSet.Domains
import LinkTrail.Settings

/-!
URLs that are wanted and URLs that are heard of. Main statement: of the URLs that a set of domains
accepts, those are observed that have nothing or a slash behind their authority
(`observed_iff_slash_first`); a query or a fragment that stands there hides the URL.
-/

namespace LinkTrail

open LinkTrail.Text LinkTrail.Pattern

def Url.behindAuthority (s : List Char) : List Char :=
  (cutAuthority (cutScheme [] (cleaned s)).2).2

def Url.IsSlashFirst (s : List Char) : Prop :=
  behindAuthority s = [] ∨ (behindAuthority s).head? = some '/'

instance : DecidablePred Url.IsSlashFirst := fun s =>
  inferInstanceAs (Decidable (Url.behindAuthority s = [] ∨
    (Url.behindAuthority s).head? = some '/'))

namespace Url

variable {scheme authority rest : List Char}

theorem behindAuthority_located (hne : scheme ≠ []) (hscheme : ∀ c ∈ scheme, c.isAlpha = true)
    (hauthority : ∀ c ∈ authority, 32 < c.toNat ∧ endsAuthority c = false)
    (hrest : ∀ c ∈ rest.head?, endsAuthority c = true) :
    behindAuthority (scheme ++ "://".toList ++ authority ++ rest) = rest.filter isKept := by
  rw [behindAuthority, cutScheme_located hne hscheme (fun c hc => (hauthority c hc).1),
    cutAuthority_append (fun c hc => (hauthority c hc).2) (head?_filter_isKept hrest)]

theorem isSlashFirst_iff : IsSlashFirst rest ↔ ∀ c ∈ (behindAuthority rest).head?, c = '/' := by
  unfold IsSlashFirst
  cases behindAuthority rest <;> simp

end Url

namespace Pattern

variable {s scheme host port : List Char} {domain : String} {subdomains : Bool}

theorem isAlpha_of_webScheme {names : List String} (hnames : ∀ name ∈ names, name ∈ hostSchemes)
    (hstar : "*" ∉ names) (h : ∃ name ∈ names, Spells name s) :
    s ≠ [] ∧ ∀ c ∈ s, c.isAlpha = true := by
  obtain ⟨name, hname, hspells⟩ := h
  have hne : name ≠ "*" := fun heq => hstar (heq ▸ hname)
  obtain ⟨hs, hletters, -⟩ := isAlpha_of_spells (hnames name hname) hne hspells
  exact ⟨hs, hletters⟩

theorem isPlace_of_isAuthorityChar {c : Char} (h : Url.isAuthorityChar c = true) :
    32 < c.toNat ∧ Url.endsAuthority c = false :=
  ⟨(Url.toNat_of_isAuthorityChar h).1, Url.endsAuthority_of_isAuthorityChar h⟩

theorem isPlace_of_isAnyHost (hhost : IsAnyHost host) (hport : IsAnyPort port) :
    ∀ c ∈ host ++ port, 32 < c.toNat ∧ Url.endsAuthority c = false := by
  obtain ⟨opening, name, closing, rfl, hopening, ⟨-, hname⟩, hclosing⟩ := hhost
  have hplain := Url.isAuthorityChar_of_plain hname hport
  intro c hc
  simp only [List.mem_append] at hc
  obtain ((hc | hc) | hc) | hc := hc
  · obtain rfl | rfl := hopening
    · contradiction
    · rw [List.mem_singleton.1 hc]
      decide
  · exact isPlace_of_isAuthorityChar (hplain c (List.mem_append_left port hc))
  · obtain rfl | rfl := hclosing
    · contradiction
    · rw [List.mem_singleton.1 hc]
      decide
  · exact isPlace_of_isAuthorityChar (hplain c (List.mem_append_right name hc))

theorem head?_of_spells {text : String} (h : Spells text s) :
    s.head?.map Char.toLower = text.toList.head?.map Char.toLower := by
  rw [← List.head?_map, h, List.head?_map]

theorem head?_of_webScheme (h : ∃ name ∈ ["http", "https", "ws", "wss"], Spells name scheme) :
    ∃ first ∈ ['h', 'w'], scheme.head?.map Char.toLower = some first := by
  obtain ⟨name, hname, hspells⟩ := h
  rw [head?_of_spells hspells]
  simp only [List.mem_cons, List.not_mem_nil, or_false] at hname
  obtain rfl | rfl | rfl | rfl := hname <;> simp

/-- Under a web scheme there is neither a file nor data. -/
theorem not_beginsWith_of_webScheme {text : String}
    (hscheme : ∃ name ∈ ["http", "https", "ws", "wss"], Spells name scheme)
    (htext : ∃ first ∉ ['h', 'w'], text.toList.head?.map Char.toLower = some first)
    (rest : List Char) : ¬BeginsWith text (scheme ++ rest) := by
  rintro ⟨start, tail, heq, hspells, -⟩
  obtain ⟨first, hfirst, hhead⟩ := head?_of_webScheme hscheme
  obtain ⟨other, hother, htext⟩ := htext
  have hstart := (head?_of_spells hspells).trans htext
  cases scheme with
  | nil => simp at hhead
  | cons c scheme =>
      cases start with
      | nil => simp at hstart
      | cons d start =>
          obtain ⟨rfl, -⟩ := List.cons.inj heq
          rw [List.head?_cons] at hhead hstart
          exact hother (Option.some.inj (hstart.symm.trans hhead) ▸ hfirst)

theorem observed_iff_of_isIn {l : Url.Location} {domains : List String}
    (h : l.IsIn domains subdomains) : allUrls.Covers l.text ↔ Url.IsSlashFirst l.text := by
  have hplain : ∀ c ∈ l.authority, 32 < c.toNat ∧ Url.endsAuthority c = false := fun c hc =>
    isPlace_of_isAuthorityChar (l.isAuthorityChar_of_mem c hc)
  have htext : l.text = l.scheme ++ ("://".toList ++ l.authority ++ l.rest) := by
    simp [Url.Location.text, Url.Location.front]
  constructor
  · rintro (⟨scheme, host, port, path, heq, hscheme, hhost, hport, hpath⟩ | hfile | hdata)
    · -- The text is cut in one place only, so what stands there is the path of an observed URL.
      obtain ⟨hne, hletters⟩ := isAlpha_of_webScheme (by simp [hostSchemes]) (by simp) hscheme
      rw [heq, List.append_assoc (scheme ++ "://".toList), Url.isSlashFirst_iff]
      rw [Url.behindAuthority_located hne hletters (isPlace_of_isAnyHost hhost hport)
        (endsAuthority_of_isTail rfl hpath)]
      obtain rfl | ⟨rest, rfl, -⟩ := hpath
      · simp
      · rw [List.filter_cons_of_pos (by rfl)]
        simp
    · rw [htext] at hfile
      exact absurd hfile (not_beginsWith_of_webScheme h.web ⟨'f', by simp, by rfl⟩ _)
    · rw [htext] at hdata
      exact absurd hdata (not_beginsWith_of_webScheme h.web ⟨'d', by simp, by rfl⟩ _)
  · intro hslash
    rw [Url.isSlashFirst_iff, Url.Location.text, Url.Location.front,
      Url.behindAuthority_located l.scheme_form.1 l.scheme_form.2 hplain l.rest_form,
      Url.head?_filter_eq l.rest_form] at hslash
    have hmarked : IsMarked '/' l.rest := by
      cases hrest : l.rest with
      | nil => exact Or.inl rfl
      | cons first rest => exact Or.inr (congrArg some (hslash first (by rw [hrest]; rfl)))
    obtain ⟨name, hname, hspells⟩ := h.web
    refine Or.inl ⟨l.scheme, l.host, l.port, l.rest, ?_, ⟨name, List.mem_append_left ["ftp"] hname,
      hspells⟩, ⟨[], l.host, [], by simp, Or.inl rfl, l.host_form, Or.inl rfl⟩, l.port_form,
      isTail_of_isMarked hmarked h.line⟩
    simp [Url.Location.text, Url.Location.front, Url.Location.authority]

end Pattern

namespace PatternSet

theorem allUrls_accepts_iff {url : String} :
    allUrls.accepts url = true ↔ Pattern.allUrls.Covers url.toList := by
  rw [accepts_iff, ← matches_regex_iff]
  simp [allUrls, Pattern.regex]

theorem exists_observed_iff {domains : List String} (subdomains : Bool)
    (hdomains : ∀ domain ∈ domains, Pattern.IsDomain domain) :
    ∃ set, ofDomains domains subdomains = .ok set ∧ ∀ url, set.accepts url = true →
      (allUrls.accepts url = true ↔ Url.IsSlashFirst url.toList) := by
  refine ⟨_, ofDomains_eq hdomains, ?_⟩
  intro url haccepts
  obtain ⟨l, hurl, hin⟩ := (domainSet_accepts_iff hdomains).1 haccepts
  rw [allUrls_accepts_iff, hurl]
  exact observed_iff_of_isIn hin

theorem observed_of_serves {url : String} (h : Shortener.serves url = true) :
    allUrls.accepts url = true ↔ Url.IsSlashFirst url.toList := by
  obtain ⟨l, hurl, hin⟩ := shortener_serves_iff.1 h
  rw [allUrls_accepts_iff, hurl]
  exact observed_iff_of_isIn hin

theorem serves_of_member {domain url : String} (hdomain : domain ∈ Shortener.domains)
    (h : accepts ⟨[(Pattern.ofDomain true domain).regex]⟩ url = true) :
    Shortener.serves url = true := by
  obtain ⟨member, hmember, hmatches⟩ := accepts_iff.1 h
  rw [List.mem_singleton] at hmember
  exact accepts_iff.2 ⟨member, List.mem_map.2 ⟨domain, hdomain, hmember.symm⟩, hmatches⟩

end PatternSet

open Pathfinder

/-- Of the URLs that a set of domains accepts, those are observed that have nothing or a slash
behind their authority. So it is for the short links that an attached pathfinder is asked to follow:
it hears of these, and no response from any other short link changes anything. -/
theorem observed_iff_slash_first {domains : List String} (subdomains : Bool)
    (hdomains : ∀ domain ∈ domains, Pattern.IsDomain domain) (rules : Rules)
    (answer? : String → Option Response) (actions : List Action) :
    (∃ set, PatternSet.ofDomains domains subdomains = .ok set ∧
      ∀ url, set.accepts url = true →
        (PatternSet.allUrls.accepts url = true ↔ Url.IsSlashFirst url.toList)) ∧
    let p := (onWeb { answer? := answer? }).run rules actions
    p.attached = true → ∀ url, Shortener.serves url = true →
      (p.web.listeners.hears url = true ↔ Url.IsSlashFirst url.toList) ∧
      (¬Url.IsSlashFirst url.toList →
        ∀ response, response.url = url → p.deliver response = p) := by
  refine ⟨PatternSet.exists_observed_iff subdomains hdomains, ?_⟩
  intro p hattached url hserves
  have hhears : p.web.listeners.hears url = true ↔ Url.IsSlashFirst url.toList := by
    rw [(attended_run rules answer? actions).hears_eq hattached]
    exact PatternSet.observed_of_serves hserves
  refine ⟨hhears, ?_⟩
  rintro hhidden response rfl
  exact deliver_of_unheard (Bool.eq_false_iff.2 (mt hhears.1 hhidden))

/-- A short link that is heard of, and one whose responses are lost. -/
theorem observed_short_link_with_path :
    let p := (onWeb {}).run ({} : Settings).rules [.attach]
    let single : PatternSet := ⟨[(Pattern.ofDomain true "bit.ly").regex]⟩
    p.attached = true ∧ Shortener.serves "https://a.bit.ly:80/x?y#z" = true ∧
      p.web.listeners.hears "https://a.bit.ly:80/x?y#z" = true ∧
      Shortener.serves "http://bit.ly?x" = true ∧
      p.deliver (.redirect "http://bit.ly?x" "http://a/") = p ∧
      (∀ domain ∈ ["bit.ly"], Pattern.IsDomain domain) ∧
      PatternSet.ofDomains ["bit.ly"] true = .ok single ∧
      single.accepts "https://a.bit.ly:80/x?y#z" = true ∧
      PatternSet.allUrls.accepts "https://a.bit.ly:80/x?y#z" = true := by
  intro p single
  have hdomain : ∀ domain ∈ ["bit.ly"], Pattern.IsDomain domain := by
    simp [Pattern.IsDomain, isHostChar, isLabelChar]
  obtain ⟨⟨set, hset, hobserved⟩, hheard⟩ := observed_iff_slash_first true hdomain
    ({} : Settings).rules (fun _ => none) [.attach]
  have hobserves := hheard rfl
  have hslash : Url.IsSlashFirst "https://a.bit.ly:80/x?y#z".toList := by decide +kernel
  have hsingle : single.accepts "https://a.bit.ly:80/x?y#z" = true := by decide +kernel
  have hserves : Shortener.serves "https://a.bit.ly:80/x?y#z" = true :=
    PatternSet.serves_of_member (by decide) hsingle
  have hhidden : Shortener.serves "http://bit.ly?x" = true :=
    @PatternSet.serves_of_member "bit.ly" _ (by decide) (by decide +kernel)
  have hsame : set = single := Except.ok.inj (hset.symm.trans (by rfl))
  exact ⟨rfl, hserves, (hobserves _ hserves).1.2 hslash, hhidden,
    (hobserves _ hhidden).2 (by decide +kernel) _ rfl, hdomain,
    hset.trans (congrArg Except.ok hsame), hsingle, (hobserved _ (hsame ▸ hsingle)).2 hslash⟩

/-- A short link whose query stands right behind the host is served, and nothing is heard of it. -/
theorem not_observed_of_query_first :
    Shortener.serves "http://bit.ly?x" = true ∧
      ¬∀ domains subdomains set, (∀ domain ∈ domains, Pattern.IsDomain domain) →
        PatternSet.ofDomains domains subdomains = .ok set →
          ∀ url, set.accepts url = true → PatternSet.allUrls.accepts url = true := by
  have hserves : Shortener.serves "http://bit.ly?x" = true :=
    @PatternSet.serves_of_member "bit.ly" _ (by decide) (by decide +kernel)
  refine ⟨hserves, ?_⟩
  intro h
  have hobserved :=
    h _ true _ PatternSet.isDomain_of_shortener Shortener.ofDomains_domains _ hserves
  exact absurd hobserved (by decide +kernel)

end LinkTrail
