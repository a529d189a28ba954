import LinkTrail.Regex.Lemmas

namespace LinkTrail.Regex

variable {letters : Letters} {r s : Regex} {rs rs' : List Regex} {w : List Char}

@[simp] theorem matches_concat_nil_iff : Matches letters (concat []) w ↔ w = [] :=
  matches_empty_iff

theorem matches_concat_cons_iff :
    Matches letters (concat (r :: rs)) w ↔
      ∃ u v, w = u ++ v ∧ Matches letters r u ∧ Matches letters (concat rs) v :=
  matches_seq_iff

@[simp] theorem matches_concat_singleton_iff :
    Matches letters (concat [r]) w ↔ Matches letters r w := by
  rw [matches_concat_cons_iff]
  constructor
  · rintro ⟨u, v, rfl, hr, hv⟩
    obtain rfl := matches_concat_nil_iff.1 hv
    rwa [List.append_nil]
  · intro h
    exact ⟨w, [], by simp, h, .empty⟩

theorem matches_concat_pair_iff :
    Matches letters (concat [r, s]) w ↔
      ∃ u v, w = u ++ v ∧ Matches letters r u ∧ Matches letters s v := by
  rw [matches_concat_cons_iff]
  simp only [matches_concat_singleton_iff]

theorem matches_concat_append_iff :
    Matches letters (concat (rs ++ rs')) w ↔
      ∃ u v, w = u ++ v ∧ Matches letters (concat rs) u ∧ Matches letters (concat rs') v := by
  induction rs generalizing w with
  | nil =>
      constructor
      · intro h
        exact ⟨[], w, rfl, .empty, h⟩
      · rintro ⟨u, v, rfl, hu, hv⟩
        obtain rfl := matches_concat_nil_iff.1 hu
        exact hv
  | cons r rs ih =>
      simp only [List.cons_append, matches_concat_cons_iff, ih]
      constructor
      · rintro ⟨first, _, rfl, hr, second, third, rfl, hrs, hrs'⟩
        exact ⟨first ++ second, third, by simp, ⟨first, second, rfl, hr, hrs⟩, hrs'⟩
      · rintro ⟨_, third, rfl, ⟨first, second, rfl, hr, hrs⟩, hrs'⟩
        exact ⟨first, second ++ third, by simp, hr, second, third, rfl, hrs, hrs'⟩

theorem matches_anyOf_iff :
    Matches letters (anyOf rs) w ↔ ∃ r ∈ rs, Matches letters r w := by
  induction rs with
  | nil => simp [anyOf]
  | cons r rs ih =>
      cases rs with
      | nil => simp [anyOf]
      | cons s rs =>
          rw [anyOf, matches_alt_iff, ih]
          · simp
          · simp

theorem matches_union_iff :
    Matches letters (union rs) w ↔ ∃ r ∈ rs, Matches letters r w := by
  unfold union
  split
  · rename_i h
    simp [h]
  · simp only [matches_group_iff, matches_anyOf_iff, List.mem_map]
    constructor
    · rintro ⟨_, ⟨r, hr, rfl⟩, h⟩
      exact ⟨r, hr, matches_group_iff.1 h⟩
    · rintro ⟨r, hr, h⟩
      exact ⟨group r, ⟨r, hr, rfl⟩, .group h⟩

theorem matches_literal_iff {text : List Char} :
    Matches letters (literal text) w ↔ w.map letters.fold = text.map letters.fold := by
  induction text generalizing w with
  | nil => simp [literal]
  | cons c text ih =>
      simp only [literal, matches_seq_iff, matches_char_iff, ih]
      constructor
      · rintro ⟨_, v, rfl, ⟨d, rfl, hfold⟩, hv⟩
        simp [hfold, hv]
      · intro h
        cases w with
        | nil => simp at h
        | cons d w =>
            obtain ⟨hfold, hw⟩ := List.cons.inj h
            exact ⟨[d], w, rfl, ⟨d, rfl, hfold.symm⟩, hw⟩

theorem Matches.star_mono (h : ∀ u, Matches letters r u → Matches letters s u)
    (hw : Matches letters (star r) w) : Matches letters (star s) w := by
  generalize hq : star r = q at hw
  induction hw with
  | starNil => exact .starNil
  | starCons hr _ _ ih =>
      obtain rfl := Regex.star.inj hq
      exact .starCons (h _ hr) (ih rfl)
  | _ => contradiction

theorem matches_star_congr (h : ∀ u, Matches letters r u ↔ Matches letters s u) :
    Matches letters (star r) w ↔ Matches letters (star s) w :=
  ⟨.star_mono fun u => (h u).1, .star_mono fun u => (h u).2⟩

theorem matches_plus_congr (h : ∀ u, Matches letters r u ↔ Matches letters s u) :
    Matches letters (plus r) w ↔ Matches letters (plus s) w := by
  simp only [matches_plus_iff, matches_seq_iff, h, matches_star_congr h]

theorem matches_star_iff_forall {p : Char → Prop}
    (h : ∀ u, Matches letters r u ↔ ∃ d, u = [d] ∧ p d) :
    Matches letters (star r) w ↔ ∀ d ∈ w, p d := by
  induction w with
  | nil => simp [Matches.starNil]
  | cons c w ih =>
      rw [matches_star_cons_iff, List.forall_mem_cons, ← ih]
      constructor
      · rintro ⟨u, v, rfl, hr, hv⟩
        obtain ⟨d, heq, hd⟩ := (h _).1 hr
        obtain ⟨rfl, rfl⟩ := List.cons.inj heq
        exact ⟨hd, hv⟩
      · rintro ⟨hc, hw⟩
        exact ⟨[], w, rfl, (h _).2 ⟨c, rfl, hc⟩, hw⟩

theorem matches_plus_iff_forall {p : Char → Prop}
    (h : ∀ u, Matches letters r u ↔ ∃ d, u = [d] ∧ p d) :
    Matches letters (plus r) w ↔ w ≠ [] ∧ ∀ d ∈ w, p d := by
  rw [matches_plus_iff, matches_seq_iff]
  simp only [matches_star_iff_forall h, h]
  constructor
  · rintro ⟨_, v, rfl, ⟨d, rfl, hd⟩, hv⟩
    exact ⟨by simp, List.forall_mem_cons.2 ⟨hd, hv⟩⟩
  · rintro ⟨hne, hw⟩
    obtain ⟨d, v, rfl⟩ := List.exists_cons_of_ne_nil hne
    obtain ⟨hd, hv⟩ := List.forall_mem_cons.1 hw
    exact ⟨[d], v, rfl, ⟨d, rfl, hd⟩, hv⟩

@[simp] theorem matches_anyText_iff : Matches letters anyText w ↔ '\n' ∉ w := by
  rw [anyText, matches_star_iff_forall fun _ => matches_any_iff]
  constructor
  · intro h hmem
    exact h '\n' hmem rfl
  · rintro h d hd rfl
    exact h hd

end LinkTrail.Regex
