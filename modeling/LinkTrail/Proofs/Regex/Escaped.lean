import Mathlib.Data.List.Forall2
import LinkTrail.Proofs.Regex.Written

/-!
Escaped texts, alone and among other written expressions. Main statements: what is read of a text
does not hang on what comes after it (`lexemes?_append`), an escaped text is read as its characters
(`parse?_escape`), also between the segments of a row (`parse?_segments`), and alternatives are read
each in a group of its own (`parseAnchored?_unionText`).
-/

namespace LinkTrail.Regex

variable {before rest after : List Char} {lexemes : List Lexeme} {items : List Item}
  {r : Regex} {rs : List Regex} {texts : List String}

theorem map_cons_append {first : Lexeme}
    (ih : ∀ {lexemes}, lexemes? none rest = some lexemes →
      lexemes? none (rest ++ after) = (lexemes? none after).map (lexemes ++ ·))
    (h : (lexemes? none rest).map (first :: ·) = some lexemes) :
    (lexemes? none (rest ++ after)).map (first :: ·) =
      (lexemes? none after).map (lexemes ++ ·) := by
  obtain ⟨later, hlater, rfl⟩ := Option.map_eq_some_iff.1 h
  rw [ih hlater, Option.map_map]
  rfl

theorem exists_cons_of_class (hrange : ∀ last text, rest = '-' :: last :: text → False)
    (h : lexemes? (some items) rest = some lexemes) : ∃ d text, rest = d :: text ∧ d ≠ '-' := by
  cases rest with
  | nil => simp [lexemes?] at h
  | cons d text =>
      refine ⟨d, text, rfl, ?_⟩
      rintro rfl
      cases text with
      | nil => simp [lexemes?, classMetaChars] at h
      | cons last text => exact hrange last text rfl

/-- A text that can be read ends outside of any class and with no backslash, so nothing behind it
can change what is read of it. -/
theorem lexemes?_append {inClass : Option (List Item)} (h : lexemes? inClass before = some lexemes)
    (after : List Char) :
    lexemes? inClass (before ++ after) = (lexemes? none after).map (lexemes ++ ·) := by
  -- The cases that refuse the text are left to the end.
  fun_induction lexemes? inClass before generalizing lexemes with
  | case3 items rest hitems ih =>
      rw [List.cons_append, lexemes?, if_neg hitems]
      exact map_cons_append ih h
  | case4 items c rest hc ih => exact (lexemes?_escape_class hc items _).trans (ih h)
  | case6 items first last rest _ _ hrange ih =>
      exact (lexemes?_range_class hrange items _).trans (ih h)
  | case9 items c rest _ _ hrange hc ih =>
      obtain ⟨d, text, rfl, hd⟩ := exists_cons_of_class hrange h
      exact (lexemes?_one_class hc hd items _).trans (ih h)
  | case10 =>
      cases h
      simp
  | case11 rest ih | case12 rest ih | case13 rest ih | case14 rest ih | case15 rest ih
  | case16 rest ih | case17 rest ih | case18 rest ih => exact map_cons_append ih h
  | case19 rest ih => exact ih h
  | case20 c rest hc ih =>
      rw [List.cons_append, List.cons_append, lexemes?, if_pos hc]
      exact map_cons_append ih h
  | case23 c rest _ _ _ _ _ _ _ _ _ _ hc ih =>
      have hread := lexemes?_escapeChar c (rest ++ after)
      rw [escapeChar, if_neg hc] at hread
      exact hread.trans (map_cons_append ih h)
  | _ => contradiction

@[simp] theorem toList_escape (text : String) :
    (escape text).toList = text.toList.flatMap escapeChar := String.toList_ofList

theorem render_literal_eq_escape (text : String) :
    (literal text.toList).render = (escape text).toList := by
  rw [render_literal, toList_escape]

theorem lexemes_literal (s : List Char) : (literal s).lexemes = s.map fun c => .piece (char c) := by
  induction s with
  | nil => rfl
  | cons c s ih => simp [literal, Regex.lexemes, ih]

theorem lexemes?_escape_append (text : String) (after : List Char) :
    lexemes? none ((escape text).toList ++ after) =
      (lexemes? none after).map ((text.toList.map fun c => .piece (char c)) ++ ·) := by
  rw [← render_literal_eq_escape, lexemes?_render_append (writable_literal _), lexemes_literal]

theorem lexemes?_escape_between (h : lexemes? none before = some lexemes) (text : String)
    (after : List Char) :
    lexemes? none (before ++ (escape text).toList ++ after) =
      (lexemes? none after).map
        (lexemes ++ (text.toList.map fun c => .piece (char c)) ++ ·) := by
  rw [List.append_assoc, lexemes?_append h, lexemes?_escape_append, Option.map_map]
  simp [Function.comp_def]

def pieces (r : Regex) : List Regex := r.alternatives.flatten

theorem reread_of_isRow (h : r.isRow = true) : r.reread = concat r.pieces := by
  rw [reread, alternatives_of_isRow h]
  rfl

@[simp] theorem pieces_literal (s : List Char) : (literal s).pieces = s.map char := by
  induction s with
  | nil => rfl
  | cons c s ih =>
      have hs : (literal s).alternatives.flatten = s.map char := ih
      simp [pieces, literal, alternatives, hs]

@[simp] theorem pieces_concat (rs : List Regex) : (concat rs).pieces = rs.flatMap pieces := by
  induction rs with
  | nil => rfl
  | cons r rs ih =>
      have hrs : (concat rs).alternatives.flatten = rs.flatMap pieces := ih
      simp [pieces, concat, alternatives, hrs]

theorem parse?_render_of_isRow (h : Writable r) (hrow : r.isRow = true) :
    parse? r.render = some (concat r.pieces) := by
  rw [parse?_render h, reread_of_isRow hrow]

theorem concat_map_char (s : List Char) : concat (s.map char) = literal s := by
  induction s with
  | nil => rfl
  | cons c s ih => rw [List.map_cons, concat, literal, ih]

theorem parse?_escape (text : String) :
    parse? (escape text).toList = some (literal text.toList) := by
  rw [← render_literal_eq_escape, parse?_render_of_isRow (writable_literal _) (isRow_literal _),
    pieces_literal, concat_map_char]

theorem accepts_literal_exact_iff {s text : String} :
    (literal text.toList).accepts .exact s.toList = true ↔ s = text := by
  have hfold (u : List Char) : u.map Letters.exact.fold = u := List.map_id' u
  rw [accepts_iff, matches_literal_iff, hfold, hfold, String.toList_inj]

theorem escape_injective {first second : String} (h : escape first = escape second) :
    first = second := by
  have hread : literal first.toList = literal second.toList := by
    apply Option.some.inj
    rw [← parse?_escape, ← parse?_escape, h]
  rw [← accepts_literal_exact_iff, ← hread, accepts_literal_exact_iff]

/-- What written rows are put together from: expressions, and texts that are escaped. -/
inductive Segment where
  | expression (r : Regex)
  | text (s : String)

namespace Segment

def render : Segment → List Char
  | expression r => r.render
  | text s => (escape s).toList

def pieces : Segment → List Regex
  | expression r => r.pieces
  | text s => s.toList.map char

def Fits : Segment → Prop
  | expression r => Writable r ∧ r.isRow = true
  | text _ => True

@[simp] theorem fits_text (s : String) : (text s).Fits := trivial

def regex : Segment → Regex
  | expression r => r
  | text s => literal s.toList

theorem render_regex (segment : Segment) : segment.regex.render = segment.render := by
  cases segment with
  | expression r => rfl
  | text s => exact render_literal_eq_escape s

theorem pieces_regex (segment : Segment) : segment.regex.pieces = segment.pieces := by
  cases segment with
  | expression r => rfl
  | text s => exact pieces_literal s.toList

theorem Fits.regex {segment : Segment} (h : segment.Fits) :
    Writable segment.regex ∧ segment.regex.isRow = true := by
  cases segment with
  | expression r => exact h
  | text s => exact ⟨writable_literal s.toList, isRow_literal s.toList⟩

end Segment

/-- The pieces of a segment are the same whatever stands beside it. -/
theorem parse?_segments {segments : List Segment} (h : ∀ segment ∈ segments, segment.Fits) :
    parse? (segments.flatMap Segment.render) = some (concat (segments.flatMap Segment.pieces)) := by
  have hwritable : Writable (concat (segments.map Segment.regex)) := by
    apply writable_concat
    intro _ hmem
    obtain ⟨segment, hsegment, rfl⟩ := List.mem_map.1 hmem
    exact (h segment hsegment).regex
  have hread := parse?_render_of_isRow hwritable (isRow_concat _)
  rw [render_concat, pieces_concat, List.flatMap_map, List.flatMap_map] at hread
  simpa only [Segment.render_regex, Segment.pieces_regex] using hread

theorem parse?_text_between {before after : List Segment} (h : ∀ segment ∈ before, segment.Fits)
    (h' : ∀ segment ∈ after, segment.Fits) (text : String) :
    parse? ((before ++ .text text :: after).flatMap Segment.render) =
      some (concat (before.flatMap Segment.pieces ++ text.toList.map char ++
        after.flatMap Segment.pieces)) := by
  rw [parse?_segments]
  · simp [Segment.pieces]
  · simpa [or_imp, forall_and] using ⟨h, h'⟩

/-- A closed group is one piece of the row around it, whatever that row and the groups around it. -/
theorem readFrom_groupEnd {inner outer : List Level} {level around : Level}
    (h : readFrom inner level lexemes = some r) (rest : List Lexeme) :
    readFrom (inner ++ around :: outer) level (lexemes ++ .groupEnd :: rest) =
      readFrom outer (around.push (group r)) rest := by
  -- The levels in `inner` are groups that the lexemes open and have yet to close.
  induction lexemes generalizing inner level with
  | nil =>
      rw [readFrom] at h
      split at h
      · rename_i hinner
        subst hinner
        cases h
        rfl
      · contradiction
  | cons lexeme lexemes ih =>
      cases lexeme with
      | piece piece => exact ih h
      | groupStart => exact @ih (level :: inner) {} h
      | groupEnd =>
          cases inner with
          | nil => contradiction
          | cons next inner => exact ih h
      | bar => exact ih h
      | opt | star | plus =>
          obtain ⟨repeated, hrepeated, h⟩ := Option.bind_eq_some_iff.1 h
          rw [List.cons_append, readFrom, hrepeated]
          exact ih h

theorem parse?_eq_some_iff {text : List Char} :
    parse? text = some r ↔
      ∃ lexemes, lexemes? none text = some lexemes ∧ readFrom [] {} lexemes = some r :=
  Option.bind_eq_some_iff

/-- A text that can be read alone is read as one piece within a group. -/
theorem exists_lexemes_of_parse? {text : List Char} (h : parse? text = some r) :
    ∃ lexemes, (∀ after, lexemes? none ("(?:".toList ++ text ++ ')' :: after) =
        (lexemes? none after).map (lexemes ++ ·)) ∧
      ∀ outer level rest, readFrom outer level (lexemes ++ rest) =
        readFrom outer (level.push (group r)) rest := by
  obtain ⟨lexemes, hlexemes, hread⟩ := parse?_eq_some_iff.1 h
  refine ⟨.groupStart :: lexemes ++ [.groupEnd], ?_, ?_⟩
  · intro after
    have htext := lexemes?_append hlexemes (')' :: after)
    simp [lexemes?, htext, Function.comp_def]
  · intro outer level rest
    have hgroup := @readFrom_groupEnd _ _ [] outer {} level hread rest
    simpa [readFrom] using hgroup

def writtenAlternatives (texts : List String) : List Char :=
  ['|'].intercalate (texts.map fun text => "(?:".toList ++ text.toList ++ [')'])

theorem exists_lexemes_of_alternatives {text : String}
    (h : parse? text.toList = some r)
    (hrest : List.Forall₂ (fun text r => parse? text.toList = some r) texts rs) :
    ∃ lexemes, (∀ after, lexemes? none (writtenAlternatives (text :: texts) ++ after) =
        (lexemes? none after).map (lexemes ++ ·)) ∧
      ∀ outer level rest, readFrom outer level (lexemes ++ rest) =
        readFrom outer (level.take ((r :: rs).map fun r => [group r])) rest := by
  induction hrest generalizing text r with
  | nil =>
      obtain ⟨lexemes, hlexemes, hread⟩ := exists_lexemes_of_parse? h
      refine ⟨lexemes, ?_, hread⟩
      intro after
      simpa [writtenAlternatives] using hlexemes after
  | @cons text' r' texts rs h' hrest ih =>
      obtain ⟨lexemes, hlexemes, hread⟩ := exists_lexemes_of_parse? h
      obtain ⟨later, hlater, hread'⟩ := ih h'
      refine ⟨lexemes ++ .bar :: later, ?_, ?_⟩
      · intro after
        have htext := hlexemes ('|' :: (writtenAlternatives (text' :: texts) ++ after))
        rw [lexemes?, hlater] at htext
        simpa [writtenAlternatives, List.intercalate_cons_cons, Function.comp_def] using htext
      · intro outer level rest
        rw [List.append_assoc, hread, List.cons_append, readFrom, hread']
        rfl

theorem unionText_of_ne_nil (h : texts ≠ []) :
    unionText texts =
      "^" ++ String.ofList ("(?:".toList ++ writtenAlternatives texts ++ [')']) ++ "$" := by
  apply String.toList_injective
  rw [unionText, if_neg h, writtenAlternatives]
  simp [String.toList_intercalate, Function.comp_def]

/-- Texts that can be read alone are read in a union each in a group of its own. -/
theorem parseAnchored?_unionText
    (h : List.Forall₂ (fun text r => parse? text.toList = some r) texts rs) (hne : texts ≠ []) :
    parseAnchored? (unionText texts) =
      some (concat [group (anyOf (rs.map fun r => concat [group r]))]) := by
  rw [unionText_of_ne_nil hne, parseAnchored?_append]
  cases h with
  | nil => contradiction
  | @cons text r texts rs h hrest =>
      obtain ⟨lexemes, hlexemes, hread⟩ := exists_lexemes_of_alternatives h hrest
      have hclosed := hread [{}] {} [.groupEnd]
      rw [readFrom, Level.regex_take (by simp), readFrom, if_pos rfl] at hclosed
      have htext := hlexemes [')']
      rw [List.append_assoc, parse?]
      simp [lexemes?, htext, readFrom, hclosed, ofAlternatives, Level.push, Level.regex,
        Level.branch, anyOf, Function.comp_def]

end LinkTrail.Regex
