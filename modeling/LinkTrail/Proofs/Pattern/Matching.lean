import LinkTrail.Proofs.Pattern.Covers
import LinkTrail.Proofs.PatternSet.Members

/-!
The expression of a pattern matches the URLs that the pattern stands for. Main statements: each
part of the expression matches its part of a URL (`Parts.matches_regex_iff`), and what is written
down for a pattern accepts exactly what it covers (`accepts_iff_covers`).
-/

namespace LinkTrail.Pattern

open LinkTrail.Text

variable {w : List Char}

open Regex

theorem matches_word_iff {text : String} :
    Matches .ignoreAsciiCase (word text) w ↔ Spells text w :=
  matches_literal_iff

theorem matches_mark_iff {mark : Char} (h : mark.isAlpha = false) :
    Matches .ignoreAsciiCase (char mark) w ↔ w = [mark] := by
  rw [matches_char_iff]
  constructor
  · rintro ⟨d, rfl, hfold⟩
    rw [(toLower_eq_toLower_iff h).1 hfold]
  · rintro rfl
    exact ⟨mark, rfl, rfl⟩

theorem matches_tail_iff {mark : Char} (h : mark.isAlpha = false) :
    Matches .ignoreAsciiCase (opt (group (concat [char mark, anyText]))) w ↔ IsTail mark w := by
  rw [matches_opt_iff, matches_group_iff, matches_concat_pair_iff]
  simp only [matches_mark_iff h, matches_anyText_iff]
  constructor
  · rintro (rfl | ⟨_, rest, rfl, rfl, hrest⟩)
    · exact Or.inl rfl
    · exact Or.inr ⟨rest, rfl, hrest⟩
  · rintro (rfl | ⟨rest, rfl, hrest⟩)
    · exact Or.inl rfl
    · exact Or.inr ⟨[mark], rest, rfl, rfl, hrest⟩

theorem has_one (c d : Char) : (Item.one d).has c = decide (c = d) := Bool.beq_eq_decide_eq c d

theorem has_lowerRange (c : Char) : (Item.range 'a' 'z').has c = c.isLower := rfl

theorem has_upperRange (c : Char) : (Item.range 'A' 'Z').has c = c.isUpper := by
  simp [Item.has, Char.isUpper, Char.le_def]

theorem has_digitRange (c : Char) : (Item.range '0' '9').has c = c.isDigit := rfl

theorem anyHas_eq (items : List Item) (c : Char) :
    Item.anyHas .ignoreAsciiCase items c =
      (items.any (·.has c) || items.any (·.has c.toLower) || items.any (·.has c.toUpper)) := by
  induction items with
  | nil => rfl
  | cons item items ih =>
      simp only [Item.anyHas] at ih
      simp only [Item.anyHas, List.any_cons, ih]
      ac_rfl

/-- Where the class treats both cases of a letter alike, case need not be looked at. -/
theorem anyHas_of_letters {items : List Item} {has : Char → Bool}
    (hhas : ∀ c, items.any (·.has c) = has c) {value : Bool}
    (hletters : ∀ c, c.isAlpha = true → has c = value) (c : Char) :
    Item.anyHas .ignoreAsciiCase items c = has c := by
  rw [anyHas_eq, hhas, hhas, hhas]
  cases h : c.isAlpha with
  | true => rw [hletters c h, hletters c.toLower (by simpa), hletters c.toUpper (by simpa)]; simp
  | false => rw [toLower_of_not_isAlpha h, toUpper_of_not_isAlpha h]; simp

theorem anyHas_digits (c : Char) : Item.anyHas .ignoreAsciiCase digits c = c.isDigit := by
  refine anyHas_of_letters (fun d => ?_) (fun d => isDigit_of_isAlpha) c
  simp [digits, has_digitRange]

theorem isLabelChar_of_isAlpha {c : Char} (h : c.isAlpha = true) : isLabelChar c = true := by
  simp [isLabelChar, Char.isAlphanum, h]

theorem any_labelItems (c : Char) : labelItems.any (·.has c) = isLabelChar c := by
  simp only [labelItems, List.any_cons, List.any_nil, has_lowerRange, has_upperRange,
    has_digitRange, has_one, Bool.or_false, isLabelChar, Char.isAlphanum, Char.isAlpha]
  ac_rfl

theorem anyHas_labelItems (c : Char) :
    Item.anyHas .ignoreAsciiCase labelItems c = isLabelChar c :=
  anyHas_of_letters any_labelItems (fun _ => isLabelChar_of_isAlpha) c

theorem anyHas_hostItems (c : Char) :
    Item.anyHas .ignoreAsciiCase (labelItems ++ [.one '.']) c = isHostChar c := by
  have hhas : ∀ d, (labelItems ++ [Item.one '.']).any (·.has d) = isHostChar d := fun d => by
    rw [List.any_append, any_labelItems, isHostChar, List.any_cons, List.any_nil, Bool.or_false,
      has_one]
  have hletters : ∀ d, d.isAlpha = true → isHostChar d = true := fun d hd => by
    simp [isHostChar, isLabelChar_of_isAlpha hd]
  exact anyHas_of_letters hhas hletters c

theorem matches_plus_oneOf_iff {items : List Item} {has : Char → Bool}
    (h : ∀ c, Item.anyHas .ignoreAsciiCase items c = has c) :
    Matches .ignoreAsciiCase (plus (oneOf items)) w ↔ w ≠ [] ∧ ∀ c ∈ w, has c = true := by
  apply matches_plus_iff_forall
  intro u
  rw [matches_oneOf_iff]
  simp only [h]

theorem matches_optMark_iff {mark : Char} (h : mark.isAlpha = false) :
    Matches .ignoreAsciiCase (opt (char mark)) w ↔ w = [] ∨ w = [mark] := by
  rw [matches_opt_iff, matches_mark_iff h]

theorem matches_anyHost_iff : Matches .ignoreAsciiCase anyHost w ↔ IsAnyHost w := by
  rw [anyHost, matches_concat_cons_iff]
  simp only [matches_concat_pair_iff, matches_plus_oneOf_iff anyHas_hostItems,
    matches_optMark_iff (show '['.isAlpha = false from rfl),
    matches_optMark_iff (show ']'.isAlpha = false from rfl)]
  constructor
  · rintro ⟨opening, _, rfl, hopening, name, closing, rfl, hname, hclosing⟩
    exact ⟨opening, name, closing, by simp, hopening, hname, hclosing⟩
  · rintro ⟨opening, name, closing, rfl, hopening, hname, hclosing⟩
    exact ⟨opening, name ++ closing, by simp, hopening, name, closing, rfl, hname, hclosing⟩

theorem matches_anyPort_iff : Matches .ignoreAsciiCase anyPort w ↔ IsAnyPort w := by
  rw [anyPort, matches_opt_iff, matches_group_iff, matches_concat_pair_iff]
  simp only [matches_mark_iff (show ':'.isAlpha = false from rfl),
    matches_plus_oneOf_iff anyHas_digits]
  constructor
  · rintro (rfl | ⟨_, number, rfl, rfl, hnumber⟩)
    · exact Or.inl rfl
    · exact Or.inr ⟨number, rfl, hnumber⟩
  · rintro (rfl | ⟨number, rfl, hnumber⟩)
    · exact Or.inl rfl
    · exact Or.inr ⟨[':'], number, rfl, rfl, hnumber⟩

theorem matches_label_iff (u : List Char) :
    Matches .ignoreAsciiCase (group (concat [plus (oneOf labelItems), char '.'])) u ↔
      ∃ label, u = label ++ ['.'] ∧ label ≠ [] ∧ ∀ c ∈ label, isLabelChar c = true := by
  rw [matches_group_iff, matches_concat_pair_iff]
  simp only [matches_mark_iff (show '.'.isAlpha = false from rfl),
    matches_plus_oneOf_iff anyHas_labelItems]
  constructor
  · rintro ⟨label, _, rfl, hlabel, rfl⟩
    exact ⟨label, rfl, hlabel⟩
  · rintro ⟨label, rfl, hlabel⟩
    exact ⟨label, ['.'], rfl, hlabel, rfl⟩

theorem matches_anySubdomains_iff : Matches .ignoreAsciiCase anySubdomains w ↔ IsLabels w := by
  constructor
  · intro h
    generalize hq : anySubdomains = q at h
    induction h with
    | starNil => exact .none
    | starCons hr _ _ ih =>
        obtain rfl := Regex.star.inj hq
        obtain ⟨label, rfl, hne, hlabel⟩ := (matches_label_iff _).1 hr
        rw [List.append_assoc]
        exact .more hne hlabel (ih rfl)
    | _ => contradiction
  · intro h
    induction h with
    | none => exact .starNil
    | @more label rest hne hlabel _ ih =>
        have hfirst := (matches_label_iff (label ++ ['.'])).2 ⟨label, rfl, hne, hlabel⟩
        rw [List.append_cons]
        exact .starCons hfirst ih

theorem wildcardPath_cons {piece : List Char} {pieces : List (List Char)} (h : pieces ≠ []) :
    Parts.wildcardPath (piece :: pieces) =
      concat [literal piece, anyText, Parts.wildcardPath pieces] := by
  cases pieces with
  | nil => contradiction
  | cons second pieces => rfl

theorem matches_wildcardPath_star_iff {pieces : List (List Char)} (h : pieces ≠ []) :
    Matches .ignoreAsciiCase (Parts.wildcardPath ([] :: pieces)) w ↔
      ∃ any s, w = any ++ s ∧ '\n' ∉ any ∧
        Matches .ignoreAsciiCase (Parts.wildcardPath pieces) s := by
  rw [wildcardPath_cons h, matches_concat_cons_iff]
  simp only [matches_concat_pair_iff, matches_anyText_iff]
  constructor
  · rintro ⟨_, _, rfl, hnil, any, s, rfl, hany, hs⟩
    obtain rfl := matches_empty_iff.1 hnil
    exact ⟨any, s, rfl, hany, hs⟩
  · rintro ⟨any, s, rfl, hany, hs⟩
    exact ⟨[], any ++ s, rfl, .empty, any, s, rfl, hany, hs⟩

theorem matches_wildcardPath_cons_iff {c : Char} {piece : List Char} {pieces : List (List Char)} :
    Matches .ignoreAsciiCase (Parts.wildcardPath ((c :: piece) :: pieces)) w ↔
      ∃ d s, w = d :: s ∧ d.toLower = c.toLower ∧
        Matches .ignoreAsciiCase (Parts.wildcardPath (piece :: pieces)) s := by
  have hliteral : ∀ u, Matches .ignoreAsciiCase (literal (c :: piece)) u ↔
      ∃ d s, u = d :: s ∧ d.toLower = c.toLower ∧ Matches .ignoreAsciiCase (literal piece) s := by
    intro u
    cases u with
    | nil => simp [matches_literal_iff]
    | cons d s => simp [matches_literal_iff, Letters.fold]
  cases pieces with
  | nil => exact hliteral w
  | cons second pieces =>
      rw [wildcardPath_cons (List.cons_ne_nil second pieces),
        wildcardPath_cons (List.cons_ne_nil second pieces), matches_concat_cons_iff]
      simp only [hliteral, matches_concat_cons_iff (r := literal piece)]
      constructor
      · rintro ⟨_, v, rfl, ⟨d, s, rfl, hd, hs⟩, hv⟩
        exact ⟨d, s ++ v, rfl, hd, s, v, rfl, hs, hv⟩
      · rintro ⟨d, _, rfl, hd, s, v, rfl, hs, hv⟩
        exact ⟨d :: s, v, rfl, ⟨d, s, rfl, hd, hs⟩, hv⟩

theorem matches_wildcardPath_iff {path : List Char} :
    Matches .ignoreAsciiCase (Parts.wildcardPath (split '*' path)) w ↔ Fills path w := by
  induction path generalizing w with
  | nil =>
      constructor
      · intro h
        obtain rfl := matches_empty_iff.1 h
        exact .nil
      · intro h
        cases h
        exact .empty
  | cons c path ih =>
      by_cases hc : c = '*'
      · rw [split, if_pos hc, matches_wildcardPath_star_iff (split_ne_nil '*' path), hc,
          fills_star_iff]
        simp only [ih]
      · obtain ⟨piece, pieces, hpieces⟩ := List.exists_cons_of_ne_nil (split_ne_nil '*' path)
        rw [split, if_neg hc, hpieces, fills_char_iff hc]
        simp only [matches_wildcardPath_cons_iff, ← hpieces, ih]

theorem matches_withS_iff {text : String} :
    Matches .ignoreAsciiCase (concat [word text, opt (char 's')]) w ↔
      Spells text w ∨ Spells (text ++ "s") w := by
  have hletter : ∀ u, Matches .ignoreAsciiCase (char 's') u ↔ Spells "s" u := fun u => by
    rw [← matches_word_iff]
    exact matches_concat_singleton_iff.symm
  rw [matches_concat_pair_iff, spells_append_iff]
  simp only [matches_word_iff, matches_opt_iff, hletter]
  constructor
  · rintro ⟨u, v, rfl, hu, rfl | hv⟩
    · exact Or.inl (by simpa using hu)
    · exact Or.inr ⟨u, v, rfl, hu, hv⟩
  · rintro (hw | ⟨u, v, rfl, hu, hv⟩)
    · exact ⟨w, [], by simp, hw, Or.inl rfl⟩
    · exact ⟨u, v, rfl, hu, Or.inr hv⟩

theorem matches_http_iff :
    Matches .ignoreAsciiCase http w ↔ Spells "http" w ∨ Spells "https" w :=
  matches_withS_iff

theorem matches_webSocket_iff :
    Matches .ignoreAsciiCase webSocket w ↔ Spells "ws" w ∨ Spells "wss" w :=
  matches_withS_iff

namespace Parts

variable {p : Parts}

theorem matches_schemeRegex_iff :
    Matches .ignoreAsciiCase p.schemeRegex w ↔ p.IsScheme w := by
  unfold schemeRegex IsScheme
  split
  · rw [matches_group_iff, matches_anyOf_iff]
    simp [matches_http_iff, matches_webSocket_iff, or_assoc]
  · exact matches_word_iff

theorem matches_separator_iff :
    Matches .ignoreAsciiCase (word p.separator) w ↔ w = p.separator.toList := by
  rw [matches_word_iff]
  apply spells_iff_of_marks
  unfold separator
  cases p.hasHost with
  | true => simp
  | false => simp

theorem matches_placeRegex_iff :
    Matches .ignoreAsciiCase (if p.host = "*" then anyHost
      else concat [if p.subdomains then anySubdomains else empty, word p.host]) w ↔
    if p.host = "*" then IsAnyHost w
    else ∃ labels name, w = labels ++ name ∧ Spells p.host name ∧
      if p.subdomains then IsLabels labels else labels = [] := by
  have hlabels : ∀ u, Matches .ignoreAsciiCase (if p.subdomains then anySubdomains else empty) u ↔
      if p.subdomains then IsLabels u else u = [] := by
    intro u
    split
    · exact matches_anySubdomains_iff
    · exact matches_empty_iff
  split
  · exact matches_anyHost_iff
  · rw [matches_concat_pair_iff]
    simp only [hlabels, matches_word_iff, and_comm]

theorem matches_hostRegex_iff :
    Matches .ignoreAsciiCase p.hostRegex w ↔
      ∃ host port, w = host ++ port ∧ p.IsHost host ∧ p.IsPort port := by
  unfold hostRegex IsHost IsPort
  cases hhost : p.hasHost with
  | false => simp
  | true =>
      have hport : ∀ u, Matches .ignoreAsciiCase
          (if p.scheme = "file" then empty else anyPort) u ↔
          if p.scheme ≠ "file" then IsAnyPort u else u = [] := by
        intro u
        split <;> simp_all [matches_anyPort_iff]
      simp only [if_true, matches_concat_pair_iff, matches_placeRegex_iff, hport, true_and]

theorem matches_pathRegex_iff : Matches .ignoreAsciiCase p.pathRegex w ↔ p.IsPath w := by
  unfold pathRegex IsPath
  split
  · exact matches_optMark_iff rfl
  · split
    · exact matches_tail_iff rfl
    · exact matches_wildcardPath_iff

theorem matches_regex_iff : Matches .ignoreAsciiCase p.regex w ↔ p.Covers w := by
  unfold regex Covers
  simp only [matches_concat_cons_iff (r := p.schemeRegex),
    matches_concat_cons_iff (r := word p.separator), matches_concat_cons_iff (r := p.hostRegex),
    matches_concat_cons_iff (r := p.pathRegex),
    matches_concat_pair_iff, matches_schemeRegex_iff, matches_separator_iff, matches_hostRegex_iff,
    matches_pathRegex_iff, anyQuery, anyFragment,
    matches_tail_iff (show '?'.isAlpha = false from rfl),
    matches_tail_iff (show '#'.isAlpha = false from rfl)]
  constructor
  · rintro ⟨scheme, _, rfl, hscheme, _, _, rfl, rfl, _, _, rfl, ⟨host, port, rfl, hhost, hport⟩,
      path, _, rfl, hpath, query, fragment, rfl, hquery, hfragment⟩
    exact ⟨scheme, host, port, path, query, fragment, by simp, hscheme, hhost, hport, hpath,
      hquery, hfragment⟩
  · rintro ⟨scheme, host, port, path, query, fragment, rfl, hscheme, hhost, hport, hpath, hquery,
      hfragment⟩
    exact ⟨scheme, p.separator.toList ++ (host ++ port ++ (path ++ (query ++ fragment))), by simp,
      hscheme, p.separator.toList, _, rfl, rfl, host ++ port, _, rfl,
      ⟨host, port, rfl, hhost, hport⟩, path, _, rfl, hpath, query, fragment, rfl, hquery, hfragment⟩

end Parts

theorem matches_observableLocation_iff :
    Matches .ignoreAsciiCase (concat [group (anyOf [http, webSocket, word "ftp"]), word "://",
      anyHost, anyPort, anyPath]) w ↔ IsObservableLocation w := by
  have hscheme : ∀ u, Matches .ignoreAsciiCase (group (anyOf [http, webSocket, word "ftp"])) u ↔
      ∃ name ∈ ["http", "https", "ws", "wss", "ftp"], Spells name u := by
    intro u
    rw [matches_group_iff, matches_anyOf_iff]
    simp [matches_http_iff, matches_webSocket_iff, matches_word_iff, or_assoc]
  have hseparator : ∀ u, Matches .ignoreAsciiCase (word "://") u ↔ u = "://".toList := by
    intro u
    rw [matches_word_iff]
    exact spells_iff_of_marks (by simp)
  have hpath : ∀ u, Matches .ignoreAsciiCase anyPath u ↔ IsTail '/' u := by
    intro u
    exact matches_tail_iff rfl
  rw [matches_concat_cons_iff]
  simp only [matches_concat_cons_iff (r := word "://"), matches_concat_cons_iff (r := anyHost),
    matches_concat_pair_iff, hscheme, hseparator, matches_anyHost_iff, matches_anyPort_iff, hpath]
  constructor
  · rintro ⟨scheme, _, rfl, hscheme, _, _, rfl, rfl, host, _, rfl, hhost, port, path, rfl, hport,
      hpath⟩
    exact ⟨scheme, host, port, path, by simp, hscheme, hhost, hport, hpath⟩
  · rintro ⟨scheme, host, port, path, rfl, hscheme, hhost, hport, hpath⟩
    exact ⟨scheme, "://".toList ++ (host ++ (port ++ path)), by simp, hscheme, _, _, rfl, rfl,
      host, _, rfl, hhost, port, path, rfl, hport, hpath⟩

theorem matches_beginning_iff {text : String} :
    Matches .ignoreAsciiCase (concat [word text, anyText]) w ↔ BeginsWith text w := by
  rw [matches_concat_pair_iff]
  simp only [matches_word_iff, matches_anyText_iff]
  rfl

theorem matches_regex_iff {pattern : Pattern} :
    Matches .ignoreAsciiCase pattern.regex w ↔ pattern.Covers w := by
  cases pattern with
  | allUrls =>
      rw [Pattern.regex, allUrlsRegex, matches_anyOf_iff, Covers]
      simp only [List.exists_mem_cons_iff, List.not_mem_nil, false_and, exists_false, or_false,
        matches_group_iff, matches_observableLocation_iff, matches_beginning_iff]
  | parts p => exact Parts.matches_regex_iff

def FitsInRow (r : Regex) : Prop := Writable r ∧ r.isRow = true

instance : DecidablePred FitsInRow := fun r =>
  inferInstanceAs (Decidable (Writable r ∧ r.isRow = true))

theorem fitsInRow_literal (text : List Char) : FitsInRow (literal text) :=
  ⟨writable_literal text, isRow_literal text⟩

theorem fitsInRow_concat {rs : List Regex} (h : ∀ r ∈ rs, FitsInRow r) : FitsInRow (concat rs) :=
  ⟨writable_concat h, isRow_concat rs⟩

namespace Parts

variable (p : Parts)

theorem fitsInRow_schemeRegex : FitsInRow p.schemeRegex := by
  unfold schemeRegex
  split
  · decide
  · exact fitsInRow_literal p.scheme.toList

theorem fitsInRow_hostRegex : FitsInRow p.hostRegex := by
  have hlabels : FitsInRow (if p.subdomains then anySubdomains else empty) := by
    split <;> decide
  have hport : FitsInRow (if p.scheme = "file" then empty else anyPort) := by
    split <;> decide
  have hname : FitsInRow (word p.host) := fitsInRow_literal p.host.toList
  unfold hostRegex
  split
  · apply fitsInRow_concat
    simp only [List.forall_mem_cons, hport, true_and]
    refine ⟨?_, by simp⟩
    split
    · decide
    · apply fitsInRow_concat
      simp [hlabels, hname]
  · decide

theorem fitsInRow_wildcardPath (pieces : List (List Char)) : FitsInRow (wildcardPath pieces) := by
  induction pieces with
  | nil => exact (by decide : FitsInRow empty)
  | cons piece pieces ih =>
      cases pieces with
      | nil => exact fitsInRow_literal piece
      | cons second pieces =>
          apply fitsInRow_concat
          have hany : FitsInRow anyText := by decide
          simp [fitsInRow_literal piece, hany, ih]

theorem fitsInRow_pathRegex : FitsInRow p.pathRegex := by
  unfold pathRegex
  split
  · decide
  · split
    · decide
    · exact fitsInRow_wildcardPath _

theorem writable_regex : Writable p.regex := by
  apply writable_concat
  have hquery : FitsInRow anyQuery := by decide
  have hfragment : FitsInRow anyFragment := by decide
  simpa only [List.forall_mem_cons, List.not_mem_nil] using
    ⟨p.fitsInRow_schemeRegex, fitsInRow_literal p.separator.toList, p.fitsInRow_hostRegex,
      p.fitsInRow_pathRegex, hquery, hfragment, by simp⟩

end Parts

theorem writable_regex (pattern : Pattern) : Writable pattern.regex := by
  cases pattern with
  | allUrls => exact (by decide : Writable allUrlsRegex)
  | parts p => exact p.writable_regex

/-- What is written down for a pattern can be read, alone and between anchors, and accepts exactly
the URLs that the pattern covers. -/
theorem accepts_iff_covers (pattern : Pattern) :
    let set : PatternSet := ⟨[pattern.regex]⟩
    ∃ fragment anchored : Regex,
      parse? pattern.regex.render = some fragment ∧ parseAnchored? set.regexText = some anchored ∧
      ∀ url : String,
        (fragment.accepts .ignoreAsciiCase url.toList = true ↔ pattern.Covers url.toList) ∧
        (anchored.accepts .ignoreAsciiCase url.toList = true ↔ pattern.Covers url.toList) ∧
        (set.accepts url = true ↔ pattern.Covers url.toList) := by
  intro set
  have hwritable : ∀ member ∈ set.members, Writable member := by
    simp [set, writable_regex pattern]
  have hset : ∀ url : String, set.accepts url = true ↔ pattern.Covers url.toList := by
    intro url
    rw [PatternSet.accepts_iff, ← matches_regex_iff]
    simp [set]
  refine ⟨pattern.regex.reread, set.regex.reread, parse?_render (writable_regex pattern),
    PatternSet.parseAnchored?_regexText hwritable, ?_⟩
  intro url
  refine ⟨?_, ?_, hset url⟩
  · rw [Regex.accepts_iff, matches_reread_iff (writable_regex pattern), matches_regex_iff]
  · rw [PatternSet.accepts_reread_iff hwritable, hset url]

end LinkTrail.Pattern
