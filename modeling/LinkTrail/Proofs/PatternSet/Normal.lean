import LinkTrail.Proofs.AmpCache.Publisher

/-!
Normal forms of the URLs that sets of domains accept. Main statement: such a URL has a normal form
unless its port is no number for a service, and the set accepts that too (`normalize_stays`).
-/

namespace LinkTrail

open LinkTrail.Text LinkTrail.Pattern

variable {domains : List String} {subdomains : Bool} {url v : String} {l m : Url.Location}

namespace Url.Location

theorem lowered_scheme_of_text (h : l.text = m.text) :
    l.scheme.map Char.toLower = m.scheme.map Char.toLower := by
  rw [← l.parts_eq.1, ← m.parts_eq.1, parts, parts, h]

theorem IsIn.normalize_iff (h : m.IsIn domains subdomains) (htext : l.text = m.text)
    (hurl : url.toList = l.text) :
    (∃ v, normalize (.text url) = .ok v) ↔ l.PortFits := by
  have hspecial : l.scheme.map Char.toLower ∈ specialSchemes :=
    lowered_scheme_of_text htext ▸ (isAlpha_of_web h.web).2
  simp only [normalize_eq_ok_iff, hurl]
  by_cases hfits : l.PortFits
  · obtain ⟨n, hnormal, -⟩ := normalText?_of_portFits hspecial hfits
    simp only [hfits, iff_true]
    exact ⟨String.ofList n.text, by rw [hnormal, String.toList_ofList]⟩
  · simp [normalText?_of_not_portFits hspecial hfits, hfits]

/-- The normal form has the scheme and the host in small letters and a path only. -/
theorem IsIn.exists_normal (h : l.IsIn domains subdomains) (hurl : url.toList = l.text)
    (hnormal : normalize (.text url) = .ok v) :
    ∃ n : Location, v.toList = n.text ∧ n.IsIn domains subdomains ∧
      n.host.map Char.toLower = l.host.map Char.toLower := by
  have hfits := (h.normalize_iff rfl hurl).1 ⟨v, hnormal⟩
  obtain ⟨n, htext, hscheme, hhost, hpath⟩ :=
    normalText?_of_portFits (isAlpha_of_web h.web).2 hfits
  have heq : some v.toList = some n.text := by
    rw [← normalize_eq_ok_iff.1 hnormal, hurl, htext]
  have hlowered : n.host.map Char.toLower = l.host.map Char.toLower := by
    rw [hhost, map_toLower_map_toLower]
  refine ⟨n, Option.some.inj heq, h.respelled ?_ hlowered ?_, hlowered⟩
  · rw [hscheme, map_toLower_map_toLower]
  · exact not_mem_of_isTail (by decide) hpath

end Url.Location

namespace PatternSet

/-- A URL that the set of some domains accepts has a normal form exactly if its port stands for a
number that can be read and is small enough. The set accepts the normal form, too. So short links
stay short links, and the URLs of caches lead to the same publishers. -/
theorem normalize_stays (subdomains : Bool)
    (hdomains : ∀ domain ∈ domains, Pattern.IsDomain domain) :
    (∃ set, ofDomains domains subdomains = .ok set ∧ ∀ url, set.accepts url = true →
      (∃ l : Url.Location, url.toList = l.text) ∧
        (∀ l : Url.Location, url.toList = l.text →
          ((∃ v, Url.normalize (.text url) = .ok v) ↔ l.PortFits)) ∧
        ∀ v, Url.normalize (.text url) = .ok v → set.accepts v = true) ∧
    ∀ url v, Url.normalize (.text url) = .ok v →
      (Shortener.serves url = true → Shortener.serves v = true) ∧
        (AmpCache.serves url = true →
          AmpCache.serves v = true ∧ AmpCache.publisher? v = AmpCache.publisher? url) := by
  refine ⟨⟨_, ofDomains_eq hdomains, ?_⟩, ?_⟩
  · intro url haccepts
    obtain ⟨m, hurl, hin⟩ := (domainSet_accepts_iff hdomains).1 haccepts
    refine ⟨⟨m, hurl⟩, fun l hl => hin.normalize_iff (hl.symm.trans hurl) hl, ?_⟩
    intro v hv
    obtain ⟨n, hn, hnIn, -⟩ := hin.exists_normal hurl hv
    exact (domainSet_accepts_iff hdomains).2 ⟨n, hn, hnIn⟩
  · intro url v hv
    constructor
    · intro hserves
      obtain ⟨l, hurl, hin⟩ := shortener_serves_iff.1 hserves
      obtain ⟨n, hn, hnIn, -⟩ := hin.exists_normal hurl hv
      exact shortener_serves_iff.2 ⟨n, hn, hnIn⟩
    · intro hserves
      obtain ⟨l, hurl, hin⟩ := cache_serves_iff.1 hserves
      obtain ⟨n, hn, hnIn, hhost⟩ := hin.exists_normal hurl hv
      have hstays : AmpCache.serves v = true := cache_serves_iff.2 ⟨n, hn, hnIn⟩
      refine ⟨hstays, ?_⟩
      rw [AmpCache.publisher?_of_hasHost hstays ((AmpCache.hasHost_iff hn).2 hhost.symm),
        AmpCache.publisher?_of_hasHost hserves ((AmpCache.hasHost_iff hurl).2 rfl)]

/-- A short link with a port that can be read, and one with a port that is too large. -/
theorem normalize_stays_short_link :
    let set := domainSet ["bit.ly"] true
    (∀ domain ∈ ["bit.ly"], Pattern.IsDomain domain) ∧ ofDomains ["bit.ly"] true = .ok set ∧
      set.accepts "HTTP://A.bit.ly:80?x" = true ∧
      Url.normalize (.text "HTTP://A.bit.ly:80?x") = .ok "http://a.bit.ly/" ∧
      set.accepts "http://a.bit.ly/" = true ∧ set.accepts "http://bit.ly:65536" = true ∧
      ¬∃ v, Url.normalize (.text "http://bit.ly:65536") = .ok v := by
  intro set
  have hdomain : ∀ domain ∈ ["bit.ly"], Pattern.IsDomain domain := by
    simp [Pattern.IsDomain, isHostChar, isLabelChar]
  obtain ⟨⟨found, hfound, hstays⟩, -⟩ := normalize_stays true hdomain
  have hset : ofDomains ["bit.ly"] true = .ok set := ofDomains_eq hdomain
  obtain rfl : found = set := Except.ok.inj (hfound.symm.trans hset)
  have hlink : set.accepts "HTTP://A.bit.ly:80?x" = true := by decide +kernel
  have hlarge : set.accepts "http://bit.ly:65536" = true := by decide +kernel
  have hnormal : Url.normalize (.text "HTTP://A.bit.ly:80?x") = .ok "http://a.bit.ly/" :=
    Url.normalize_eq_ok_iff.2 (by decide +kernel)
  let l : Url.Location := ⟨"http".toList, "bit.ly".toList, ":65536".toList, [],
    ⟨by simp, by simp⟩, ⟨by simp, by simp [isHostChar, isLabelChar]⟩,
    Or.inr ⟨"65536".toList, by simp⟩, by simp⟩
  have hport := (hstays _ hlarge).2.1 l (by decide +kernel)
  exact ⟨hdomain, hset, hlink, hnormal, (hstays _ hlink).2.2 _ hnormal, hlarge,
    mt hport.1 (by decide +kernel)⟩

end PatternSet

end LinkTrail
