import LinkTrail.Proofs.Pattern.Respelled
import LinkTrail.Proofs.PatternSet.Host
import LinkTrail.Proofs.Regex.Letters

/-!
Letter case in patterns and in URLs. Main statements: the case of ASCII letters decides neither
whether patterns are valid nor what their set accepts, and no other character passes for one of the
letters in front of the path (`accepts_respelled`). Only the pattern for all URLs is told by its
case (`not_valid_of_capital_allUrls`).
-/

namespace LinkTrail.Pattern

open LinkTrail.Text

variable {p : Parts} {text : String} {s before after back front : List Char} {c d : Char}

namespace Parts

def IsFront (p : Parts) (s : List Char) : Prop :=
  ∃ scheme host port, s = scheme ++ p.separator.toList ++ host ++ port ∧
    p.IsScheme scheme ∧ p.IsHost host ∧ p.IsPort port

def IsBack (p : Parts) (s : List Char) : Prop :=
  ∃ path query fragment, s = path ++ query ++ fragment ∧
    p.IsPath path ∧ IsTail '?' query ∧ IsTail '#' fragment

theorem covers_iff_exists_front :
    p.Covers s ↔ ∃ front back, s = front ++ back ∧ p.IsFront front ∧ p.IsBack back := by
  constructor
  · rintro ⟨scheme, host, port, path, query, fragment, rfl, hscheme, hhost, hport, hpath, hquery,
      hfragment⟩
    exact ⟨_, path ++ query ++ fragment, by simp, ⟨scheme, host, port, rfl, hscheme, hhost, hport⟩,
      path, query, fragment, rfl, hpath, hquery, hfragment⟩
  · rintro ⟨_, _, rfl, ⟨scheme, host, port, rfl, hscheme, hhost, hport⟩,
      path, query, fragment, rfl, hpath, hquery, hfragment⟩
    exact ⟨scheme, host, port, path, query, fragment, by simp, hscheme, hhost, hport, hpath, hquery,
      hfragment⟩

end Parts

theorem endsAuthority_of_isBack (hroot : p.path.toList.head? = some '/') (h : p.IsBack s) :
    ∀ c ∈ s.head?, Url.endsAuthority c = true := by
  obtain ⟨path, query, fragment, rfl, hpath, hquery, hfragment⟩ := h
  exact endsAuthority_behind hroot hpath hquery hfragment

theorem exists_of_isFront (hhas : p.hasHost = true) (hhost : IsDomain p.host) (h : p.IsFront s) :
    ∃ scheme authority, s = scheme ++ "://".toList ++ authority ∧
      (∀ c ∈ scheme, c.isAlpha = true) ∧ ∀ c ∈ authority, Url.isAuthorityChar c = true := by
  obtain ⟨scheme, host, port, rfl, hscheme, hisHost, hisPort⟩ := h
  obtain ⟨-, hplain, -⟩ := host_of_isHost hhas hhost hisHost
  have hport : IsAnyPort port := by
    unfold Parts.IsPort at hisPort
    split_ifs at hisPort
    · exact hisPort
    · exact Or.inl hisPort
  exact ⟨scheme, host ++ port, by simp [Parts.separator, hhas],
    (scheme_of_isScheme hhas hscheme).2.1, Url.isAuthorityChar_of_plain hplain hport⟩

theorem toNat_of_isFront (hhas : p.hasHost = true) (hhost : IsDomain p.host) (h : p.IsFront s) :
    ∀ c ∈ s, c.toNat < 128 := by
  obtain ⟨scheme, authority, rfl, hscheme, hauthority⟩ := exists_of_isFront hhas hhost h
  exact fun c hc => (Url.toNat_of_mem_front hscheme hauthority c hc).2

/-- A front that goes on where another one ends goes on within its authority. -/
theorem endsAuthority_of_longer_front (hhas : p.hasHost = true) (hhost : IsDomain p.host)
    (hshort : p.IsFront front) (hlong : p.IsFront (front ++ c :: after)) :
    Url.endsAuthority c = false := by
  obtain ⟨scheme, authority, rfl, hscheme, -⟩ := exists_of_isFront hhas hhost hshort
  obtain ⟨other, longer, heq, hother, hlonger⟩ := exists_of_isFront hhas hhost hlong
  have hcolon {s : List Char} (hs : ∀ c ∈ s, c.isAlpha = true) : ':' ∉ s :=
    fun hmem => absurd (hs ':' hmem) (by decide)
  have hcut : cut? ':' (scheme ++ ':' :: ("//".toList ++ authority ++ c :: after)) =
      cut? ':' (other ++ ':' :: ("//".toList ++ longer)) :=
    congrArg (cut? ':') (by simpa using heq)
  rw [cut?_append (hcolon hscheme), cut?_append (hcolon hother)] at hcut
  have hrest : authority ++ c :: after = longer := by simpa using congrArg (·.map Prod.snd) hcut
  exact Url.endsAuthority_of_isAuthorityChar (hlonger c (by simp [← hrest]))

/-- No URL is covered that has a character beyond ASCII in its front. -/
theorem not_covers_of_foreign (hhas : p.hasHost = true)
    (hroot : p.path.toList.head? = some '/') (hhost : IsDomain p.host)
    (hfront : p.IsFront (before ++ c :: after)) (hd : 128 ≤ d.toNat) (rest : List Char) :
    ¬p.Covers (before ++ d :: rest) := by
  rw [Parts.covers_iff_exists_front]
  rintro ⟨front, back, heq, hfront', hback⟩
  have hends := endsAuthority_of_isBack hroot hback
  have hforeign : d ∉ front := fun hmem =>
    absurd (toNat_of_isFront hhas hhost hfront' d hmem) (Nat.not_lt.2 hd)
  have hsplit : ∃ tail, before = front ++ tail ∧ back = tail ++ d :: rest := by
    obtain ⟨start, rfl, hstart⟩ | ⟨tail, rfl, rfl⟩ := List.append_eq_append_iff.1 heq
    · cases start with
      | nil => exact ⟨[], by simp, hstart.symm⟩
      | cons first start =>
          obtain ⟨rfl, -⟩ := List.cons.inj hstart
          simp at hforeign
    · exact ⟨tail, rfl, rfl⟩
  obtain ⟨tail, rfl, rfl⟩ := hsplit
  cases tail with
  | nil =>
      have hmark := hends d rfl
      simp only [Url.endsAuthority, Bool.or_eq_true, decide_eq_true_eq] at hmark
      obtain (rfl | rfl) | rfl := hmark <;> exact absurd hd (by decide)
  | cons first tail =>
      have hlong : p.IsFront (front ++ first :: (tail ++ c :: after)) := by simpa using hfront
      have hinside := endsAuthority_of_longer_front hhas hhost hfront' hlong
      rw [hends first rfl] at hinside
      contradiction

end LinkTrail.Pattern

namespace LinkTrail.PatternSet

open LinkTrail.Pattern

variable {text other : String} {texts others : List String} {pattern : Pattern}
  {set : PatternSet} {url url' : String}

/-- The pattern in letters of either case; the one for all URLs is spelled in one way only. -/
def IsRespelling (text other : String) : Prop :=
  Spells text other.toList ∧ (text = allUrlsText ↔ other = allUrlsText)

theorem IsRespelling.symm (h : IsRespelling text other) : IsRespelling other text :=
  ⟨h.1.swap, h.2.symm⟩

theorem IsRespelling.exists_parse (h : IsRespelling text other)
    (hparse : parse text = .ok pattern) :
    ∃ respelled, parse other = .ok respelled ∧ pattern.Alike respelled := by
  have hall : text.toList = allUrlsText.toList → other.toList = allUrlsText.toList := by
    rw [String.toList_inj, String.toList_inj]
    exact h.2.1
  obtain ⟨respelled, hreads, halike⟩ := (parse_eq_ok_iff.1 hparse).respelled h.1 hall
  exact ⟨respelled, parse_eq_ok_iff.2 hreads, halike⟩

theorem ofPatterns_cons_eq_ok_iff :
    ofPatterns (text :: texts) = .ok set ↔
      ∃ pattern rest, parse text = .ok pattern ∧ ofPatterns texts = .ok rest ∧
        set = ⟨pattern.regex :: rest.members⟩ := by
  cases hparse : parse text with
  | error error => simp [ofPatterns_cons_of_error hparse]
  | ok pattern =>
      rw [ofPatterns_cons_of_ok hparse]
      cases ofPatterns texts with
      | error error => simp [Except.map]
      | ok rest => simp [Except.map, eq_comm]

theorem accepts_cons_iff {rest : PatternSet} :
    accepts ⟨pattern.regex :: rest.members⟩ url = true ↔
      pattern.Covers url.toList ∨ rest.accepts url = true := by
  simp only [accepts_iff, List.exists_mem_cons_iff, matches_regex_iff]

theorem exists_respelled (h : List.Forall₂ IsRespelling texts others)
    (hset : ofPatterns texts = .ok set) :
    ∃ respelled, ofPatterns others = .ok respelled ∧
      ∀ url, respelled.accepts url = set.accepts url := by
  induction h generalizing set with
  | nil => exact ⟨set, hset, fun _ => rfl⟩
  | cons hfirst _ ih =>
      obtain ⟨pattern, rest, hparse, hrest, rfl⟩ := ofPatterns_cons_eq_ok_iff.1 hset
      obtain ⟨other, hother, halike⟩ := hfirst.exists_parse hparse
      obtain ⟨respelled, hrespelled, haccepts⟩ := ih hrest
      refine ⟨_, ofPatterns_cons_eq_ok_iff.2 ⟨other, respelled, hother, hrespelled, rfl⟩, ?_⟩
      intro url
      rw [Bool.eq_iff_iff, accepts_cons_iff, accepts_cons_iff, halike.covers_iff, haccepts]

theorem accepts_of_spells (set : PatternSet) (h : Spells url url'.toList) :
    set.accepts url' = set.accepts url :=
  Regex.accepts_of_fold h

theorem accepts_respelled (h : List.Forall₂ IsRespelling texts others) :
    ((∃ set, ofPatterns texts = .ok set) ↔ ∃ set, ofPatterns others = .ok set) ∧
      (∀ set respelled, ofPatterns texts = .ok set → ofPatterns others = .ok respelled →
        ∀ url url', Spells url url'.toList → set.accepts url = respelled.accepts url') ∧
      ∀ text p, parse text = .ok (parts p) → p.hasHost = true → IsDomain p.host →
        ∃ set, ofPatterns [text] = .ok set ∧
          (∀ url, set.accepts url = true ↔
            ∃ front back, url.toList = front ++ back ∧ p.IsFront front ∧ p.IsBack back) ∧
          ∀ before c after back, p.IsFront (before ++ c :: after) → p.IsBack back →
            ∀ d : Char, 128 ≤ d.toNat →
              set.accepts (String.ofList (before ++ d :: after ++ back)) = false := by
  have hflip : List.Forall₂ IsRespelling others texts := h.flip.imp fun _ _ => IsRespelling.symm
  refine ⟨⟨?_, ?_⟩, ?_, ?_⟩
  · rintro ⟨set, hset⟩
    obtain ⟨respelled, hrespelled, -⟩ := exists_respelled h hset
    exact ⟨respelled, hrespelled⟩
  · rintro ⟨set, hset⟩
    obtain ⟨respelled, hrespelled, -⟩ := exists_respelled hflip hset
    exact ⟨respelled, hrespelled⟩
  · intro set respelled hset hrespelled url url' hurl
    obtain ⟨found, hfound, haccepts⟩ := exists_respelled h hset
    obtain rfl : found = respelled := Except.ok.inj (hfound.symm.trans hrespelled)
    rw [accepts_of_spells found hurl, haccepts]
  · intro text p hparse hhas hhost
    have hroot := (parse_eq_ok_iff.1 hparse).valid.rooted hhas
    have haccepts (url : String) :
        accepts ⟨[(parts p).regex]⟩ url = true ↔ p.Covers url.toList := by
      rw [accepts_iff, ← Parts.matches_regex_iff]
      simp [Pattern.regex]
    refine ⟨_, ofPatterns_singleton hparse, ?_, ?_⟩
    · intro url
      rw [haccepts, Parts.covers_iff_exists_front]
    · intro before c after back hfront hback d hd
      rw [Bool.eq_false_iff, ne_eq, haccepts, String.toList_ofList, List.append_assoc,
        List.cons_append]
      exact not_covers_of_foreign hhas hroot hhost hfront hd _

/-- Patterns in letters of either case, and the Kelvin sign, which is no letter `k`. -/
theorem accepts_respelled_host :
    let texts := ["HTTPS://*.Skype.com/A*", allUrlsText]
    let others := ["https://*.sKYPE.com/a*", allUrlsText]
    List.Forall₂ IsRespelling texts others ∧
      (∃ set respelled, ofPatterns texts = .ok set ∧ ofPatterns others = .ok respelled ∧
        set.accepts "https://www.skype.com/ab" = respelled.accepts "HTTPS://WWW.SKYPE.COM/AB") ∧
      ∃ set, ofPatterns ["HTTPS://*.Skype.com/A*"] = .ok set ∧
        set.accepts "https://www.skype.com/ab" = true ∧
        set.accepts "https://www.s\u212aype.com/ab" = false := by
  intro texts others
  have hfirst : IsRespelling "HTTPS://*.Skype.com/A*" "https://*.sKYPE.com/a*" :=
    ⟨by simp [Spells], by simp [allUrlsText]⟩
  have h : List.Forall₂ IsRespelling texts others := .cons hfirst (.cons ⟨rfl, Iff.rfl⟩ .nil)
  obtain ⟨hvalid, hsame, hforeign⟩ := accepts_respelled h
  let p : Parts := ⟨"https", true, "Skype.com", "/A*"⟩
  have hparse : parse "HTTPS://*.Skype.com/A*" = .ok (parts p) := rfl
  have hset : ofPatterns texts = .ok _ :=
    ofPatterns_cons_eq_ok_iff.2 ⟨_, _, hparse, ofPatterns_allUrls, rfl⟩
  obtain ⟨respelled, hrespelled⟩ := hvalid.1 ⟨_, hset⟩
  have hurl : Spells "https://www.skype.com/ab" "HTTPS://WWW.SKYPE.COM/AB".toList := by
    simp [Spells]
  refine ⟨h, ⟨_, respelled, hset, hrespelled, hsame _ respelled hset hrespelled _ _ hurl⟩, ?_⟩
  obtain ⟨single, hsingle, haccepts, hrejects⟩ := hforeign "HTTPS://*.Skype.com/A*" p hparse rfl
    ⟨by decide, by simp [p, isHostChar, isLabelChar]⟩
  have hlabels : IsLabels "www.".toList := @IsLabels.more ['w', 'w', 'w'] [] (by simp)
    (by simp [isLabelChar]) .none
  have hname : Spells "Skype.com" "skype.com".toList := by simp [Spells]
  have hfront : p.IsFront ("https://www.s".toList ++ 'k' :: "ype.com".toList) :=
    ⟨"https".toList, "www.skype.com".toList, [],
      by simp [p, Parts.separator, Parts.hasHost, hostSchemes], rfl,
      ⟨"www.".toList, "skype.com".toList, by simp, hname, hlabels⟩, Or.inl rfl⟩
  have hpath : p.IsPath "/ab".toList := by
    have hfills : Fills ['/', 'A', '*'] ['/', 'a', 'b'] :=
      .char (by decide) rfl (.char (by decide) rfl (@Fills.star [] ['b'] [] (by decide) .nil))
    simpa [Parts.IsPath, p] using hfills
  have hback : p.IsBack "/ab".toList :=
    ⟨"/ab".toList, [], [], by simp, hpath, Or.inl rfl, Or.inl rfl⟩
  exact ⟨single, hsingle, (haccepts _).2 ⟨_, _, rfl, hfront, hback⟩,
    hrejects _ _ _ _ hfront hback '\u212a' (by decide)⟩

/-- The pattern for all URLs in capitals is no pattern. -/
theorem not_valid_of_capital_allUrls :
    "<ALL_URLS>" ≠ allUrlsText ∧ Spells "<ALL_URLS>" allUrlsText.toList ∧
      (∃ set, ofPatterns [allUrlsText] = .ok set) ∧
      ofPatterns ["<ALL_URLS>"] = .error ⟨"<ALL_URLS>", .missingColon⟩ ∧
      ¬∀ texts others : List String,
        List.Forall₂ (fun text other => text = other ∨
          text ≠ allUrlsText ∧ Spells text other.toList) texts others →
        ((∃ set, ofPatterns texts = .ok set) ↔ ∃ set, ofPatterns others = .ok set) := by
  have hne : "<ALL_URLS>" ≠ allUrlsText := by decide
  have hspells : Spells "<ALL_URLS>" allUrlsText.toList := by simp [Spells, allUrlsText]
  have hrefused : ofPatterns ["<ALL_URLS>"] = .error ⟨"<ALL_URLS>", .missingColon⟩ := rfl
  have hall : ∃ set, ofPatterns [allUrlsText] = .ok set := ⟨_, ofPatterns_allUrls⟩
  refine ⟨hne, hspells, hall, hrefused, ?_⟩
  intro h
  obtain ⟨set, hset⟩ := (h ["<ALL_URLS>"] [allUrlsText] (.cons (.inr ⟨hne, hspells⟩) .nil)).2 hall
  rw [hrefused] at hset
  contradiction

end LinkTrail.PatternSet
