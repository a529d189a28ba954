import LinkTrail.Regex.Derivative

namespace LinkTrail.Regex

variable {letters : Letters} {r s : Regex} {u w : List Char} {c d : Char}

theorem not_matches_never : ¬ Matches letters never w := by
  intro h
  cases h

@[simp] theorem matches_never_iff : Matches letters never w ↔ False :=
  ⟨not_matches_never, False.elim⟩

@[simp] theorem matches_empty_iff : Matches letters empty w ↔ w = [] := by
  constructor
  · intro h
    cases h
    rfl
  · rintro rfl
    exact .empty

@[simp] theorem matches_char_iff :
    Matches letters (char c) w ↔ ∃ d, w = [d] ∧ letters.fold c = letters.fold d := by
  constructor
  · intro h
    cases h with
    | char hfold => exact ⟨_, rfl, hfold⟩
  · rintro ⟨d, rfl, hfold⟩
    exact .char hfold

@[simp] theorem matches_any_iff : Matches letters any w ↔ ∃ d, w = [d] ∧ d ≠ '\n' := by
  constructor
  · intro h
    cases h with
    | any hne => exact ⟨_, rfl, hne⟩
  · rintro ⟨d, rfl, hne⟩
    exact .any hne

@[simp] theorem matches_oneOf_iff {items : List Item} :
    Matches letters (oneOf items) w ↔ ∃ d, w = [d] ∧ Item.anyHas letters items d = true := by
  constructor
  · intro h
    cases h with
    | oneOf hhas => exact ⟨_, rfl, hhas⟩
  · rintro ⟨d, rfl, hhas⟩
    exact .oneOf hhas

theorem matches_seq_iff :
    Matches letters (seq r s) w ↔
      ∃ u v, w = u ++ v ∧ Matches letters r u ∧ Matches letters s v := by
  constructor
  · intro h
    cases h with
    | seq hr hs => exact ⟨_, _, rfl, hr, hs⟩
  · rintro ⟨u, v, rfl, hr, hs⟩
    exact .seq hr hs

@[simp] theorem matches_alt_iff :
    Matches letters (alt r s) w ↔ Matches letters r w ∨ Matches letters s w := by
  constructor
  · intro h
    cases h with
    | altLeft hr => exact Or.inl hr
    | altRight hs => exact Or.inr hs
  · rintro (hr | hs)
    · exact .altLeft hr
    · exact .altRight hs

@[simp] theorem matches_group_iff : Matches letters (group r) w ↔ Matches letters r w := by
  constructor
  · intro h
    cases h with
    | group hr => exact hr
  · exact .group

@[simp] theorem matches_opt_iff :
    Matches letters (opt r) w ↔ w = [] ∨ Matches letters r w := by
  constructor
  · intro h
    cases h with
    | optNone => exact Or.inl rfl
    | optSome hr => exact Or.inr hr
  · rintro (rfl | hr)
    · exact .optNone
    · exact .optSome hr

theorem matches_plus_iff :
    Matches letters (plus r) w ↔ Matches letters (seq r (star r)) w := by
  rw [matches_seq_iff]
  constructor
  · intro h
    cases h with
    | plus hr hs => exact ⟨_, _, rfl, hr, hs⟩
  · rintro ⟨u, v, rfl, hr, hs⟩
    exact .plus hr hs

/-- A repeated expression matches a text that is not empty by a first part that is not empty. -/
theorem matches_star_cons_iff :
    Matches letters (star r) (d :: w) ↔
      ∃ u v, w = u ++ v ∧ Matches letters r (d :: u) ∧ Matches letters (star r) v := by
  constructor
  · intro h
    generalize hq : star r = q at h
    generalize ht : d :: w = t at h
    induction h with
    | starNil => contradiction
    | @starCons r' first rest hr hs _ ih =>
        cases first with
        | nil => exact ih hq ht
        | cons e first =>
            obtain rfl := Regex.star.inj hq
            obtain ⟨rfl, rfl⟩ := List.cons.inj ht
            exact ⟨first, rest, rfl, hr, hs⟩
    | _ => contradiction
  · rintro ⟨u, v, rfl, hr, hs⟩
    exact .starCons hr hs

theorem matches_andThen_iff :
    Matches letters (r.andThen s) w ↔ Matches letters (seq r s) w := by
  unfold andThen
  split
  · rename_i hr
    subst hr
    rw [matches_seq_iff]
    constructor
    · intro h
      exact ⟨[], w, rfl, .empty, h⟩
    · rintro ⟨u, v, rfl, hu, hv⟩
      rw [matches_empty_iff.1 hu]
      exact hv
  · rfl

theorem nullable_iff (letters : Letters) : r.nullable = true ↔ Matches letters r [] := by
  induction r with
  | never => simp [nullable]
  | empty => simp [nullable]
  | char c => simp [nullable]
  | any => simp [nullable]
  | oneOf items => simp [nullable]
  | seq r s ihr ihs => simp [nullable, matches_seq_iff, ihr, ihs, and_assoc]
  | alt r s ihr ihs => simp [nullable, ihr, ihs]
  | group r ih => simp [nullable, ih]
  | opt r ih => simp [nullable]
  | star r ih => simp [nullable, Matches.starNil]
  | plus r ih =>
      simp only [nullable, ih, matches_plus_iff, matches_seq_iff]
      constructor
      · intro h
        exact ⟨[], [], rfl, h, .starNil⟩
      · rintro ⟨u, v, heq, hr, _⟩
        obtain ⟨rfl, rfl⟩ := List.append_eq_nil_iff.1 heq.symm
        exact hr

/-- What is left of `r` and then `s` once a character has been read inside `r`. -/
theorem exists_mem_map_andThen_iff {rs : List Regex} :
    (∃ q ∈ rs.map (·.andThen s), Matches letters q w) ↔
      ∃ u v, w = u ++ v ∧ (∃ q ∈ rs, Matches letters q u) ∧ Matches letters s v := by
  simp only [List.mem_map]
  constructor
  · rintro ⟨_, ⟨q, hq, rfl⟩, h⟩
    obtain ⟨u, v, rfl, hu, hv⟩ := matches_seq_iff.1 (matches_andThen_iff.1 h)
    exact ⟨u, v, rfl, ⟨q, hq, hu⟩, hv⟩
  · rintro ⟨u, v, rfl, ⟨q, hq, hu⟩, hv⟩
    exact ⟨_, ⟨q, hq, rfl⟩, matches_andThen_iff.2 (.seq hu hv)⟩

theorem exists_mem_after_iff :
    (∃ q ∈ r.after letters d, Matches letters q w) ↔ Matches letters r (d :: w) := by
  induction r generalizing w with
  | never => simp [after]
  | empty => simp [after]
  | char c =>
      by_cases h : letters.fold c = letters.fold d
      · simp [after, h, and_assoc]
      · simp [after, h, and_assoc]
  | any =>
      by_cases h : d = '\n'
      · simp [after, h, and_assoc]
      · simp [after, h, and_assoc]
  | oneOf items =>
      by_cases h : Item.anyHas letters items d = true
      · simp [after, h, and_assoc]
      · simp [after, h, and_assoc]
  | seq r s ihr ihs =>
      have hfirst : (∃ q ∈ (r.after letters d).map (·.andThen s), Matches letters q w) ↔
          ∃ u v, w = u ++ v ∧ Matches letters r (d :: u) ∧ Matches letters s v := by
        simp only [exists_mem_map_andThen_iff, ihr]
      have hsecond : (∃ q ∈ if r.nullable then s.after letters d else [], Matches letters q w) ↔
          Matches letters r [] ∧ Matches letters s (d :: w) := by
        by_cases h : r.nullable = true
        · simp [h, ihs, (nullable_iff letters).1 h]
        · simp [h, mt (nullable_iff letters).2 h]
      simp only [after, List.mem_append, or_and_right, exists_or, hfirst, hsecond]
      rw [matches_seq_iff]
      constructor
      · rintro (⟨u, v, rfl, hr, hs⟩ | ⟨hr, hs⟩)
        · exact ⟨d :: u, v, rfl, hr, hs⟩
        · exact ⟨[], d :: w, rfl, hr, hs⟩
      · rintro ⟨u, v, heq, hr, hs⟩
        cases u with
        | nil =>
            obtain rfl : d :: w = v := heq
            exact Or.inr ⟨hr, hs⟩
        | cons e u =>
            obtain ⟨rfl, rfl⟩ := List.cons.inj heq
            exact Or.inl ⟨u, v, rfl, hr, hs⟩
  | alt r s ihr ihs =>
      simp only [after, List.mem_append, or_and_right, exists_or, ihr, ihs, matches_alt_iff]
  | group r ih => simp only [after, ih, matches_group_iff]
  | opt r ih => simp [after, ih]
  | star r ih => simp only [after, exists_mem_map_andThen_iff, ih, matches_star_cons_iff]
  | plus r ih =>
      simp only [after, exists_mem_map_andThen_iff, ih, matches_plus_iff, matches_seq_iff]
      constructor
      · rintro ⟨u, v, rfl, hr, hs⟩
        exact ⟨d :: u, v, rfl, hr, hs⟩
      · rintro ⟨u, v, heq, hr, hs⟩
        cases u with
        | nil =>
            obtain rfl : d :: w = v := heq
            exact matches_star_cons_iff.1 hs
        | cons e u =>
            obtain ⟨rfl, rfl⟩ := List.cons.inj heq
            exact ⟨u, v, rfl, hr, hs⟩

/-- The expressions that are left over after a text has been read. -/
theorem any_nullable_foldl_iff {rs : List Regex} :
    (w.foldl (fun rs d => (rs.flatMap (after letters d)).eraseDups) rs).any nullable = true ↔
      ∃ q ∈ rs, Matches letters q w := by
  induction w generalizing rs with
  | nil => simp [nullable_iff letters]
  | cons d w ih =>
      rw [List.foldl_cons, ih]
      simp only [List.mem_eraseDups, List.mem_flatMap]
      constructor
      · rintro ⟨q, ⟨r, hr, hq⟩, h⟩
        exact ⟨r, hr, exists_mem_after_iff.1 ⟨q, hq, h⟩⟩
      · rintro ⟨r, hr, h⟩
        obtain ⟨q, hq, h⟩ := exists_mem_after_iff.2 h
        exact ⟨q, ⟨r, hr, hq⟩, h⟩

theorem accepts_iff : r.accepts letters w = true ↔ Matches letters r w := by
  unfold accepts
  rw [any_nullable_foldl_iff]
  simp

end LinkTrail.Regex
