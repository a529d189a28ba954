import Mathlib.Data.List.TakeWhile
import LinkTrail.Text.Blank

namespace LinkTrail.Text

section

variable {α : Type} {mark : α} {before after s : List α}

def IsMarked (mark : α) (s : List α) : Prop := s = [] ∨ s.head? = some mark

theorem isMarked_iff : IsMarked mark s ↔ s = [] ∨ ∃ rest, s = mark :: rest := by
  rw [IsMarked, List.head?_eq_some_iff]

variable [DecidableEq α]

theorem cut_of_not_mem (h : mark ∉ s) : cut mark s = (s, []) := by
  simp [cut, cut?_eq_none_iff.2 h]

theorem cut_append (hbefore : mark ∉ before) (h : IsMarked mark s) :
    cut mark (before ++ s) = (before, s.tail) := by
  obtain rfl | ⟨rest, rfl⟩ := isMarked_iff.1 h
  · simpa using cut_of_not_mem hbefore
  · simp [cut, cut?_append hbefore]

theorem cut_spec (mark : α) (s : List α) :
    ∃ rest, s = (cut mark s).1 ++ rest ∧ mark ∉ (cut mark s).1 ∧ IsMarked mark rest ∧
      (cut mark s).2 = rest.tail := by
  rw [cut]
  cases hcut : cut? mark s with
  | none => exact ⟨[], by simp, by simpa using cut?_eq_none_iff.1 hcut, Or.inl rfl, rfl⟩
  | some parts =>
      obtain ⟨before, after⟩ := parts
      exact ⟨mark :: after, eq_append_of_cut? hcut, not_mem_of_cut? hcut, Or.inr rfl, rfl⟩

theorem cutLast?_append (hafter : mark ∉ after) :
    cutLast? mark (before ++ mark :: after) = some (before, after) := by
  induction before with
  | nil => simp [cutLast?, cutLast?_eq_none_iff.2 hafter]
  | cons c before ih => simp [cutLast?, ih]

theorem afterLast_append (hafter : mark ∉ after) :
    afterLast mark (before ++ mark :: after) = after := by
  simp [afterLast, cutLast?_append hafter]

theorem afterLast_of_not_mem (h : mark ∉ s) : afterLast mark s = s := by
  simp [afterLast, cutLast?_eq_none_iff.2 h]

theorem cutLast?_spec (h : cutLast? mark s = some (before, after)) :
    s = before ++ mark :: after ∧ mark ∉ after := by
  induction s generalizing before with
  | nil => simp [cutLast?] at h
  | cons c s ih =>
      rw [cutLast?] at h
      cases hs : cutLast? mark s with
      | none =>
          by_cases hc : c = mark
          · simp only [hs, hc, if_true, Option.some.injEq, Prod.mk.injEq] at h
            obtain ⟨rfl, rfl⟩ := h
            exact ⟨by simp [hc], cutLast?_eq_none_iff.1 hs⟩
          · simp [hs, hc] at h
      | some parts =>
          obtain ⟨first, last⟩ := parts
          simp only [hs, Option.some.injEq, Prod.mk.injEq] at h
          obtain ⟨rfl, rfl⟩ := h
          obtain ⟨rfl, hmark⟩ := ih hs
          exact ⟨rfl, hmark⟩

theorem afterLast_append_of_not_mem {tail : List α} (h : mark ∉ tail) :
    afterLast mark (s ++ tail) = afterLast mark s ++ tail := by
  cases hcut : cutLast? mark s with
  | none =>
      have hs := cutLast?_eq_none_iff.1 hcut
      rw [afterLast_of_not_mem hs, afterLast_of_not_mem (by simp [hs, h])]
  | some parts =>
      obtain ⟨rfl, hmark⟩ := cutLast?_spec hcut
      rw [List.append_assoc, List.cons_append, afterLast_append hmark,
        afterLast_append (by simp [hmark, h])]

theorem mem_of_split {c : α} (h : c ∈ s) (hc : c ≠ mark) : ∃ piece ∈ split mark s, c ∈ piece := by
  induction s with
  | nil => contradiction
  | cons first s ih =>
      unfold split
      by_cases hfirst : first = mark
      · have hmem : c ∈ s := by
          obtain rfl | hmem := List.mem_cons.1 h
          · contradiction
          · exact hmem
        obtain ⟨piece, hpiece, hin⟩ := ih hmem
        rw [if_pos hfirst]
        exact ⟨piece, List.mem_cons_of_mem _ hpiece, hin⟩
      · rw [if_neg hfirst]
        cases hpieces : split mark s with
        | nil => exact absurd hpieces (split_ne_nil mark s)
        | cons piece pieces =>
            obtain rfl | hmem := List.mem_cons.1 h
            · exact ⟨_, List.mem_cons_self .., List.mem_cons_self ..⟩
            · obtain ⟨found, hfound, hin⟩ := ih hmem
              rw [hpieces] at hfound
              obtain rfl | hfound := List.mem_cons.1 hfound
              · exact ⟨_, List.mem_cons_self .., List.mem_cons_of_mem _ hin⟩
              · exact ⟨found, List.mem_cons_of_mem _ hfound, hin⟩

section

variable {f : α → α} (hf : ∀ c, f c = mark ↔ c = mark)

include hf

theorem split_map (s : List α) : split mark (s.map f) = (split mark s).map (List.map f) := by
  induction s with
  | nil => rfl
  | cons c s ih =>
      unfold split
      rw [List.map_cons]
      by_cases hc : c = mark
      · simp [hc, (hf mark).2 rfl, ih]
      · cases hpieces : split mark s with
        | nil => exact absurd hpieces (split_ne_nil mark s)
        | cons piece pieces => simp [hc, hf, ih, hpieces]

theorem cut?_map (s : List α) :
    cut? mark (s.map f) = (cut? mark s).map fun (before, after) => (before.map f, after.map f) := by
  induction s with
  | nil => rfl
  | cons c s ih =>
      unfold cut?
      rw [List.map_cons]
      by_cases hc : c = mark
      · simp [hc, (hf mark).2 rfl]
      · simp only [hf, hc, if_false, ih, Option.map_map]
        rfl

end

end

variable {c : Char} {s before after : List Char}

theorem isBlank_of_bounds (hlow : 32 < c.toNat) (hhigh : c.toNat < 133) : isBlank c = false := by
  rw [Bool.eq_false_iff]
  intro h
  simp only [isBlank, Ranges.has, blankRanges, List.any_cons, List.any_nil, Bool.or_false,
    Bool.or_eq_true, Bool.and_eq_true, decide_eq_true_eq] at h
  omega

theorem dropWhile_of_head {p : Char → Bool} (h : ∀ c ∈ s.head?, p c = false) :
    s.dropWhile p = s := by
  cases s with
  | nil => rfl
  | cons first s => exact List.dropWhile_cons_of_neg (by simp [h first rfl])

theorem strip_surrounded (hbefore : ∀ c ∈ before, isBlank c = true)
    (hafter : ∀ c ∈ after, isBlank c = true) (hfirst : ∀ c ∈ s.head?, isBlank c = false)
    (hlast : ∀ c ∈ s.getLast?, isBlank c = false) (hne : s ≠ []) :
    strip (before ++ s ++ after) = s := by
  have hleft : (before ++ s ++ after).dropWhile isBlank = s ++ after := by
    rw [List.append_assoc, List.dropWhile_append_of_pos hbefore, dropWhile_of_head]
    obtain ⟨first, s, rfl⟩ := List.exists_cons_of_ne_nil hne
    exact hfirst
  have hright : (s ++ after).reverse.dropWhile isBlank = s.reverse := by
    rw [List.reverse_append, List.dropWhile_append_of_pos (by simpa using hafter),
      dropWhile_of_head (by rwa [List.head?_reverse])]
  rw [strip, trim, hleft, hright, List.reverse_reverse]

theorem strip_spec (h : ∀ c ∈ s.head?, isBlank c = false) :
    ∃ tail, s = strip s ++ tail ∧ (∀ c ∈ tail, isBlank c = true) ∧
      ∀ c ∈ (strip s).getLast?, isBlank c = false := by
  rw [strip, trim, dropWhile_of_head h]
  refine ⟨(s.reverse.takeWhile isBlank).reverse, ?_, ?_, ?_⟩
  · rw [← List.reverse_append, List.takeWhile_append_dropWhile, List.reverse_reverse]
  · intro c hc
    exact List.mem_takeWhile_imp (List.mem_reverse.1 hc)
  · intro c hc
    have hlast := List.head?_dropWhile_not isBlank s.reverse
    rw [List.getLast?_reverse] at hc
    rwa [hc] at hlast

/-- White space is taken away from the end no further than the last other character. -/
theorem strip_append {front rest : List Char} (hne : front ≠ [])
    (h : ∀ c ∈ front, isBlank c = false) :
    ∃ kept tail, strip (front ++ rest) = front ++ kept ∧ rest = kept ++ tail := by
  have hfirst : ∀ c ∈ (front ++ rest).head?, isBlank c = false := by
    obtain ⟨first, front, rfl⟩ := List.exists_cons_of_ne_nil hne
    exact fun c hc => h c (List.mem_cons.2 (Or.inl (Option.mem_some_iff.1 hc).symm))
  obtain ⟨tail, heq, htail, -⟩ := strip_spec hfirst
  obtain ⟨kept, hstrip, hrest⟩ | ⟨blanks, hfront, hblanks⟩ := List.append_eq_append_iff.1 heq
  · exact ⟨kept, tail, hstrip, hrest⟩
  · have hnil : blanks = [] := by
      rw [List.eq_nil_iff_forall_not_mem]
      intro c hc
      have hblank := htail c (by simp [hblanks, hc])
      rw [h c (by rw [hfront]; simp [hc])] at hblank
      contradiction
    rw [hnil, List.append_nil] at hfront
    exact ⟨[], rest, by simpa using hfront.symm, rfl⟩

end LinkTrail.Text
