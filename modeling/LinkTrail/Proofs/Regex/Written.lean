import LinkTrail.Regex.Parser
import LinkTrail.Proofs.Regex.Language

/-!
Expressions that can be written down. Main statements: what is written is read back
(`parse?_render`), as an expression that matches the same texts (`matches_reread_iff`).
-/

namespace LinkTrail.Regex

def Item.IsWritable : Item → Prop
  | .one _ => True
  | .range first last => first ∉ classMetaChars ∧ last ∉ classMetaChars ∧ first ≤ last

instance : DecidablePred Item.IsWritable
  | .one _ => .isTrue trivial
  | .range first last =>
      inferInstanceAs
        (Decidable (first ∉ classMetaChars ∧ last ∉ classMetaChars ∧ first ≤ last))

/-- Whether the expression may stand in a row with others: alternatives need a group for that. -/
def isRow : Regex → Bool
  | alt _ _ => false
  | _ => true

/-- The expressions whose text shows how they are put together. -/
inductive Writable : Regex → Prop where
  | never : Writable never
  | empty : Writable empty
  | char (c : Char) : Writable (char c)
  | any : Writable any
  | oneOf {items : List Item} (hne : items ≠ []) (hitems : ∀ item ∈ items, item.IsWritable) :
      Writable (oneOf items)
  | seq {r s : Regex} (hr : Writable r) (hs : Writable s) (hrow : r.isRow = true)
      (hrow' : s.isRow = true) : Writable (seq r s)
  | alt {r s : Regex} (hr : Writable r) (hs : Writable s) : Writable (alt r s)
  | group {r : Regex} (hr : Writable r) : Writable (group r)
  | opt {r : Regex} (hr : Writable r) (hatom : r.isAtom = true) : Writable (opt r)
  | star {r : Regex} (hr : Writable r) (hatom : r.isAtom = true) : Writable (star r)
  | plus {r : Regex} (hr : Writable r) (hatom : r.isAtom = true) : Writable (plus r)

instance decidableWritable : (r : Regex) → Decidable (Writable r)
  | .never => .isTrue .never
  | .empty => .isTrue .empty
  | .char c => .isTrue (.char c)
  | .any => .isTrue .any
  | .oneOf items =>
      decidable_of_iff (items ≠ [] ∧ ∀ item ∈ items, item.IsWritable)
        ⟨fun h => .oneOf h.1 h.2, fun | .oneOf hne hitems => ⟨hne, hitems⟩⟩
  | .seq r s =>
      have := decidableWritable r
      have := decidableWritable s
      decidable_of_iff ((Writable r ∧ Writable s) ∧ r.isRow = true ∧ s.isRow = true)
        ⟨fun h => .seq h.1.1 h.1.2 h.2.1 h.2.2,
          fun | .seq hr hs hrow hrow' => ⟨⟨hr, hs⟩, hrow, hrow'⟩⟩
  | .alt r s =>
      have := decidableWritable r
      have := decidableWritable s
      decidable_of_iff (Writable r ∧ Writable s)
        ⟨fun h => .alt h.1 h.2, fun | .alt hr hs => ⟨hr, hs⟩⟩
  | .group r =>
      have := decidableWritable r
      decidable_of_iff (Writable r) ⟨.group, fun | .group hr => hr⟩
  | .opt r =>
      have := decidableWritable r
      decidable_of_iff (Writable r ∧ r.isAtom = true)
        ⟨fun h => .opt h.1 h.2, fun | .opt hr hatom => ⟨hr, hatom⟩⟩
  | .star r =>
      have := decidableWritable r
      decidable_of_iff (Writable r ∧ r.isAtom = true)
        ⟨fun h => .star h.1 h.2, fun | .star hr hatom => ⟨hr, hatom⟩⟩
  | .plus r =>
      have := decidableWritable r
      decidable_of_iff (Writable r ∧ r.isAtom = true)
        ⟨fun h => .plus h.1 h.2, fun | .plus hr hatom => ⟨hr, hatom⟩⟩

def lexemes : Regex → List Lexeme
  | empty => []
  | seq r s => r.lexemes ++ s.lexemes
  | alt r s => r.lexemes ++ .bar :: s.lexemes
  | group r => .groupStart :: (r.lexemes ++ [.groupEnd])
  | opt r => r.lexemes ++ [.opt]
  | star r => r.lexemes ++ [.star]
  | plus r => r.lexemes ++ [.plus]
  | r => [.piece r]

/-- A hyphen in a class is escaped, so none stands where an item begins. -/
theorem exists_class_eq_cons {items : List Item} (h : ∀ item ∈ items, item.IsWritable)
    (rest : List Char) :
    ∃ c text, items.flatMap Item.render ++ ']' :: rest = c :: text ∧ c ≠ '-' := by
  cases items with
  | nil => exact ⟨']', rest, rfl, by decide⟩
  | cons item items =>
      cases item with
      | one c =>
          by_cases hc : c ∈ classMetaChars
          · exact ⟨'\\', c :: (items.flatMap Item.render ++ ']' :: rest),
              by simp [Item.render, Item.escapeChar, hc], by decide⟩
          · refine ⟨c, items.flatMap Item.render ++ ']' :: rest,
              by simp [Item.render, Item.escapeChar, hc], ?_⟩
            rintro rfl
            exact hc (by decide)
      | range first last =>
          have hfirst : (Item.range first last).IsWritable := h _ (by simp)
          refine ⟨first, '-' :: last :: (items.flatMap Item.render ++ ']' :: rest),
            by simp [Item.render], ?_⟩
          rintro rfl
          exact hfirst.1 (by decide)

theorem lexemes?_escape_class {c : Char} (hc : c ∈ classMetaChars) (before : List Item)
    (rest : List Char) :
    lexemes? (some before) ('\\' :: c :: rest) = lexemes? (some (.one c :: before)) rest := by
  rw [lexemes?, if_pos hc]

theorem lexemes?_one_class {c d : Char} (hc : c ∉ classMetaChars) (hd : d ≠ '-')
    (before : List Item) (rest : List Char) :
    lexemes? (some before) (c :: d :: rest) = lexemes? (some (.one c :: before)) (d :: rest) := by
  rw [lexemes?, if_neg hc]
  · rintro rfl
    exact hc (by decide)
  · rintro _ _ rfl
    exact absurd (show '\\' ∈ classMetaChars by decide) hc
  · rintro _ _ ⟨rfl, rfl⟩
    exact hd rfl

theorem lexemes?_range_class {first last : Char}
    (h : (Item.range first last).IsWritable) (before : List Item) (rest : List Char) :
    lexemes? (some before) (first :: '-' :: last :: rest) =
      lexemes? (some (.range first last :: before)) rest := by
  have hwritable : first ∉ classMetaChars ∧ last ∉ classMetaChars ∧ first ≤ last := h
  rw [lexemes?, if_pos hwritable]
  · rintro rfl
    exact h.1 (by decide)
  · rintro rfl
    exact h.1 (by decide)

theorem lexemes?_class {items : List Item} (h : ∀ item ∈ items, item.IsWritable)
    (before : List Item) (hne : before ≠ [] ∨ items ≠ []) (rest : List Char) :
    lexemes? (some before) (items.flatMap Item.render ++ ']' :: rest) =
      (lexemes? none rest).map (.piece (oneOf (before.reverse ++ items)) :: ·) := by
  induction items generalizing before with
  | nil =>
      have hbefore : before ≠ [] := by simpa using hne
      simp [lexemes?, hbefore]
  | cons item items ih =>
      have hitems : ∀ item ∈ items, item.IsWritable := fun item hmem => h item (by simp [hmem])
      have hlater := ih hitems (item :: before) (Or.inl (List.cons_ne_nil item before))
      rw [List.reverse_cons, List.append_assoc, List.singleton_append] at hlater
      rw [← hlater, List.flatMap_cons, List.append_assoc]
      cases item with
      | one c =>
          by_cases hc : c ∈ classMetaChars
          · simp only [Item.render, Item.escapeChar, if_pos hc]
            exact lexemes?_escape_class hc before _
          · obtain ⟨d, text, htext, hd⟩ := exists_class_eq_cons hitems rest
            simp only [Item.render, Item.escapeChar, if_neg hc, htext]
            exact lexemes?_one_class hc hd before text
      | range first last => exact lexemes?_range_class (h _ (by simp)) before _

theorem lexemes?_escapeChar (c : Char) (rest : List Char) :
    lexemes? none (escapeChar c ++ rest) = (lexemes? none rest).map (.piece (char c) :: ·) := by
  unfold escapeChar
  split
  · rename_i hc
    simp only [List.cons_append, List.nil_append]
    rw [lexemes?, if_pos hc]
  · rename_i hc
    simp only [List.cons_append, List.nil_append]
    rw [lexemes?, if_neg hc]
    all_goals
      intros
      subst_vars
      exact hc (by decide)

theorem lexemes?_render_append {r : Regex} (h : Writable r) (rest : List Char) :
    lexemes? none (r.render ++ rest) = (lexemes? none rest).map (r.lexemes ++ ·) := by
  induction h generalizing rest with
  | never => simp [render, lexemes, lexemes?]
  | empty => simp [render, lexemes]
  | char c => exact lexemes?_escapeChar c rest
  | any => simp [render, lexemes, lexemes?]
  | oneOf hne hitems =>
      have hclass := lexemes?_class hitems [] (Or.inr hne) rest
      simpa [render, lexemes, lexemes?] using hclass
  | seq hr hs hrow hrow' ihr ihs =>
      simp [render, lexemes, ihr, ihs, Function.comp_def]
  | alt hr hs ihr ihs =>
      simp [render, lexemes, lexemes?, ihr, ihs, Function.comp_def]
  | group hr ih => simp [render, lexemes, lexemes?, ih, Function.comp_def]
  | opt hr hatom ih => simp [render, lexemes, lexemes?, ih, Function.comp_def]
  | star hr hatom ih => simp [render, lexemes, lexemes?, ih, Function.comp_def]
  | plus hr hatom ih => simp [render, lexemes, lexemes?, ih, Function.comp_def]

def ofAlternatives (alternatives : List (List Regex)) : Regex :=
  anyOf (alternatives.map concat)

/-- The alternatives in the written form, each with its pieces in a row. -/
def alternatives : Regex → List (List Regex)
  | empty => [[]]
  | seq r s => [r.alternatives.flatten ++ s.alternatives.flatten]
  | alt r s => r.alternatives ++ s.alternatives
  | group r => [[group (ofAlternatives r.alternatives)]]
  | opt r => [r.alternatives.flatten.map opt]
  | star r => [r.alternatives.flatten.map star]
  | plus r => [r.alternatives.flatten.map plus]
  | r => [[r]]

def reread (r : Regex) : Regex := ofAlternatives r.alternatives

theorem alternatives_of_isRow {r : Regex} (h : r.isRow = true) :
    r.alternatives = [r.alternatives.flatten] := by
  cases r with
  | alt r s => contradiction
  | _ => simp [alternatives]

theorem alternatives_of_isAtom {r : Regex} (h : r.isAtom = true) :
    ∃ piece, r.alternatives = [[piece]] ∧ piece.isAtom = true := by
  cases r with
  | char c => exact ⟨char c, rfl, rfl⟩
  | any => exact ⟨any, rfl, rfl⟩
  | oneOf items => exact ⟨oneOf items, rfl, rfl⟩
  | group r => exact ⟨group r.reread, rfl, rfl⟩
  | _ => contradiction

theorem alternatives_ne_nil (r : Regex) : r.alternatives ≠ [] := by
  induction r with
  | alt r s ihr ihs => simp [alternatives, ihr]
  | _ => simp [alternatives]

namespace Level

def takeRow (level : Level) (row : List Regex) : Level :=
  { level with pieces := row.reverse ++ level.pieces }

def take (level : Level) : List (List Regex) → Level
  | [] => level
  | [row] => level.takeRow row
  | row :: rows => ((level.takeRow row).branch).take rows

theorem takeRow_append (level : Level) (row row' : List Regex) :
    level.takeRow (row ++ row') = (level.takeRow row).takeRow row' := by
  simp [takeRow]

theorem take_append (level : Level) {rows rows' : List (List Regex)} (h : rows ≠ [])
    (h' : rows' ≠ []) : level.take (rows ++ rows') = (level.take rows).branch.take rows' := by
  induction rows generalizing level with
  | nil => contradiction
  | cons row rows ih =>
      obtain ⟨first, rest, rfl⟩ := List.exists_cons_of_ne_nil h'
      cases rows with
      | nil => rfl
      | cons second rows => exact ih (level.takeRow row).branch (List.cons_ne_nil second rows)

theorem alternatives_take (level : Level) (row : List Regex) (rows : List (List Regex)) :
    (level.take (row :: rows)).branch.alternatives.reverse =
      level.alternatives.reverse ++ concat (level.pieces.reverse ++ row) :: rows.map concat := by
  induction rows generalizing level row with
  | nil => simp [take, takeRow, branch]
  | cons second rows ih =>
      have hlater := ih (level.takeRow row).branch second
      rw [take, hlater]
      · simp [takeRow, branch]
      · simp

theorem regex_take {rows : List (List Regex)} (h : rows ≠ []) :
    (({} : Level).take rows).regex = ofAlternatives rows := by
  obtain ⟨row, rows, rfl⟩ := List.exists_cons_of_ne_nil h
  simp [regex, alternatives_take, ofAlternatives]

theorem repeat?_takeRow (level : Level) {piece : Regex} (h : piece.isAtom = true)
    (repeated : Regex → Regex) :
    (level.takeRow [piece]).repeat? repeated = some (level.takeRow [repeated piece]) := by
  simp [repeat?, takeRow, h]

end Level

theorem readFrom_lexemes_append {r : Regex} (h : Writable r) (outer : List Level) (level : Level)
    (rest : List Lexeme) :
    readFrom outer level (r.lexemes ++ rest) = readFrom outer (level.take r.alternatives) rest := by
  induction h generalizing outer level rest with
  | never => rfl
  | empty => rfl
  | char c => rfl
  | any => rfl
  | oneOf hne hitems => rfl
  | @seq r s hr hs hrow hrow' ihr ihs =>
      rw [lexemes, List.append_assoc, ihr, ihs, alternatives_of_isRow hrow,
        alternatives_of_isRow hrow']
      simp [alternatives, Level.take, Level.takeRow_append]
  | @alt r s hr hs ihr ihs =>
      rw [lexemes, List.append_assoc, ihr, List.cons_append, readFrom, ihs, alternatives,
        Level.take_append level r.alternatives_ne_nil s.alternatives_ne_nil]
  | @group r hr ih =>
      rw [lexemes, List.cons_append, List.append_assoc, readFrom, ih, List.singleton_append,
        readFrom, Level.regex_take r.alternatives_ne_nil]
      rfl
  | @opt r hr hatom ih =>
      obtain ⟨piece, hpiece, hatom⟩ := alternatives_of_isAtom hatom
      rw [lexemes, List.append_assoc, ih, alternatives, hpiece, Level.take, List.singleton_append,
        readFrom, level.repeat?_takeRow hatom]
      rfl
  | @star r hr hatom ih =>
      obtain ⟨piece, hpiece, hatom⟩ := alternatives_of_isAtom hatom
      rw [lexemes, List.append_assoc, ih, alternatives, hpiece, Level.take, List.singleton_append,
        readFrom, level.repeat?_takeRow hatom]
      rfl
  | @plus r hr hatom ih =>
      obtain ⟨piece, hpiece, hatom⟩ := alternatives_of_isAtom hatom
      rw [lexemes, List.append_assoc, ih, alternatives, hpiece, Level.take, List.singleton_append,
        readFrom, level.repeat?_takeRow hatom]
      rfl

theorem parse?_render {r : Regex} (h : Writable r) : parse? r.render = some r.reread := by
  have hlexemes : lexemes? none r.render = some r.lexemes := by
    simpa [lexemes?] using lexemes?_render_append h []
  have hread : readFrom [] {} r.lexemes = readFrom [] (({} : Level).take r.alternatives) [] := by
    simpa using readFrom_lexemes_append h [] {} []
  rw [parse?, hlexemes, Option.bind_some, hread, readFrom, if_pos rfl,
    Level.regex_take r.alternatives_ne_nil, reread]

theorem matches_ofAlternatives_iff {letters : Letters} {rows : List (List Regex)}
    {w : List Char} :
    Matches letters (ofAlternatives rows) w ↔ ∃ row ∈ rows, Matches letters (concat row) w := by
  rw [ofAlternatives, matches_anyOf_iff]
  simp only [List.mem_map]
  constructor
  · rintro ⟨_, ⟨row, hrow, rfl⟩, h⟩
    exact ⟨row, hrow, h⟩
  · rintro ⟨row, hrow, h⟩
    exact ⟨_, ⟨row, hrow, rfl⟩, h⟩

theorem matches_reread_of_singleton_iff {letters : Letters} {r : Regex} {row : List Regex}
    (h : r.alternatives = [row]) {w : List Char} :
    Matches letters r.reread w ↔ Matches letters (concat row) w := by
  rw [reread, h, matches_ofAlternatives_iff]
  simp

theorem matches_reread_of_piece_iff {letters : Letters} {r piece : Regex}
    (h : r.alternatives = [[piece]]) {w : List Char} :
    Matches letters r.reread w ↔ Matches letters piece w := by
  rw [matches_reread_of_singleton_iff h, matches_concat_singleton_iff]

theorem matches_reread_iff {r : Regex} (h : Writable r) {letters : Letters} {w : List Char} :
    Matches letters r.reread w ↔ Matches letters r w := by
  induction h generalizing w with
  | never => exact matches_reread_of_piece_iff rfl
  | empty => exact Iff.rfl
  | char c => exact matches_reread_of_piece_iff rfl
  | any => exact matches_reread_of_piece_iff rfl
  | oneOf hne hitems => exact matches_reread_of_piece_iff rfl
  | @seq r s hr hs hrow hrow' ihr ihs =>
      rw [matches_reread_of_singleton_iff rfl, matches_concat_append_iff, matches_seq_iff]
      simp only [← matches_reread_of_singleton_iff (alternatives_of_isRow hrow),
        ← matches_reread_of_singleton_iff (alternatives_of_isRow hrow'), ihr, ihs]
  | @alt r s hr hs ihr ihs =>
      rw [reread, alternatives, matches_ofAlternatives_iff, matches_alt_iff, ← ihr, ← ihs,
        reread, reread, matches_ofAlternatives_iff, matches_ofAlternatives_iff]
      simp only [List.mem_append, or_and_right, exists_or]
  | @group r hr ih =>
      rw [matches_reread_of_piece_iff rfl, matches_group_iff, matches_group_iff]
      exact ih
  | @opt r hr hatom ih =>
      obtain ⟨piece, hpiece, -⟩ := alternatives_of_isAtom hatom
      have hopt : (opt r).alternatives = [[opt piece]] := by simp [alternatives, hpiece]
      rw [matches_reread_of_piece_iff hopt, matches_opt_iff, matches_opt_iff,
        ← matches_reread_of_piece_iff hpiece, ih]
  | @star r hr hatom ih =>
      obtain ⟨piece, hpiece, -⟩ := alternatives_of_isAtom hatom
      have hstar : (star r).alternatives = [[star piece]] := by simp [alternatives, hpiece]
      rw [matches_reread_of_piece_iff hstar]
      apply matches_star_congr
      intro u
      rw [← matches_reread_of_piece_iff hpiece, ih]
  | @plus r hr hatom ih =>
      obtain ⟨piece, hpiece, -⟩ := alternatives_of_isAtom hatom
      have hplus : (plus r).alternatives = [[plus piece]] := by simp [alternatives, hpiece]
      rw [matches_reread_of_piece_iff hplus]
      apply matches_plus_congr
      intro u
      rw [← matches_reread_of_piece_iff hpiece, ih]

theorem isRow_literal (text : List Char) : (literal text).isRow = true := by
  cases text <;> rfl

theorem writable_literal (text : List Char) : Writable (literal text) := by
  induction text with
  | nil => exact .empty
  | cons c text ih => exact .seq (.char c) ih rfl (isRow_literal text)

theorem isRow_concat (rs : List Regex) : (concat rs).isRow = true := by
  cases rs <;> rfl

theorem writable_concat {rs : List Regex} (h : ∀ r ∈ rs, Writable r ∧ r.isRow = true) :
    Writable (concat rs) := by
  induction rs with
  | nil => exact .empty
  | cons r rs ih =>
      obtain ⟨⟨hr, hrow⟩, hrs⟩ := List.forall_mem_cons.1 h
      exact .seq hr (ih hrs) hrow (isRow_concat rs)

theorem writable_anyOf {rs : List Regex} (h : ∀ r ∈ rs, Writable r) : Writable (anyOf rs) := by
  induction rs with
  | nil => exact .never
  | cons r rs ih =>
      obtain ⟨hr, hrs⟩ := List.forall_mem_cons.1 h
      cases rs with
      | nil => exact hr
      | cons s rs => exact .alt hr (ih hrs)

theorem writable_union {rs : List Regex} (h : ∀ r ∈ rs, Writable r) : Writable (union rs) := by
  unfold union
  split
  · exact .never
  · apply Writable.group
    apply writable_anyOf
    intro _ hmem
    obtain ⟨r, hr, rfl⟩ := List.mem_map.1 hmem
    exact .group (h r hr)

theorem parseAnchored?_append (text : List Char) :
    parseAnchored? ("^" ++ String.ofList text ++ "$") = parse? text := by
  have htext : ("^" ++ String.ofList text ++ "$").toList = '^' :: (text ++ ['$']) := by simp
  unfold parseAnchored?
  rw [htext]
  simp

end LinkTrail.Regex
