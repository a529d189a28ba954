namespace LinkTrail.Text

variable {α : Type} [DecidableEq α]

def cut? (mark : α) : List α → Option (List α × List α)
  | [] => none
  | c :: rest =>
      if c = mark then some ([], rest)
      else (cut? mark rest).map fun (before, after) => (c :: before, after)

def cutLast? (mark : α) : List α → Option (List α × List α)
  | [] => none
  | c :: rest =>
      match cutLast? mark rest with
      | some (before, after) => some (c :: before, after)
      | none => if c = mark then some ([], rest) else none

/-- The text up to the first `mark`, or all of it, and the text after that mark. -/
def cut (mark : α) (s : List α) : List α × List α :=
  (cut? mark s).getD (s, [])

def afterLast (mark : α) (s : List α) : List α :=
  ((cutLast? mark s).map Prod.snd).getD s

def split (mark : α) : List α → List (List α)
  | [] => [[]]
  | c :: rest =>
      if c = mark then [] :: split mark rest
      else
        match split mark rest with
        | [] => [[c]]
        | piece :: pieces => (c :: piece) :: pieces

def join (mark : α) : List (List α) → List α
  | [] => []
  | [piece] => piece
  | piece :: pieces => piece ++ mark :: join mark pieces

def trim (blank : α → Bool) (s : List α) : List α :=
  ((s.dropWhile blank).reverse.dropWhile blank).reverse

theorem eq_append_of_cut? {mark : α} {s before after : List α}
    (h : cut? mark s = some (before, after)) : s = before ++ mark :: after := by
  induction s generalizing before with
  | nil => simp [cut?] at h
  | cons c rest ih =>
      by_cases hc : c = mark
      · simp only [cut?, hc, if_true, Option.some.injEq, Prod.mk.injEq] at h
        obtain ⟨rfl, rfl⟩ := h
        simp [hc]
      · simp only [cut?, hc, if_false, Option.map_eq_some_iff] at h
        obtain ⟨⟨first, last⟩, hrest, heq⟩ := h
        obtain ⟨rfl, rfl⟩ := Prod.mk.inj heq
        rw [ih hrest, List.cons_append]

theorem not_mem_of_cut? {mark : α} {s before after : List α}
    (h : cut? mark s = some (before, after)) : mark ∉ before := by
  induction s generalizing before with
  | nil => simp [cut?] at h
  | cons c rest ih =>
      by_cases hc : c = mark
      · simp only [cut?, hc, if_true, Option.some.injEq, Prod.mk.injEq] at h
        simp [← h.1]
      · simp only [cut?, hc, if_false, Option.map_eq_some_iff] at h
        obtain ⟨⟨first, last⟩, hrest, heq⟩ := h
        obtain ⟨rfl, rfl⟩ := Prod.mk.inj heq
        simp [Ne.symm hc, ih hrest]

theorem cut?_append {mark : α} {before : List α} (hmark : mark ∉ before)
    (after : List α) : cut? mark (before ++ mark :: after) = some (before, after) := by
  induction before with
  | nil => simp [cut?]
  | cons c rest ih =>
      simp only [List.mem_cons, not_or] at hmark
      simp [cut?, Ne.symm hmark.1, ih hmark.2]

theorem cut?_eq_none_iff {mark : α} {s : List α} : cut? mark s = none ↔ mark ∉ s := by
  induction s with
  | nil => simp [cut?]
  | cons c rest ih =>
      by_cases hc : c = mark
      · simp [cut?, hc]
      · simp [cut?, hc, Ne.symm hc, ih]

theorem cutLast?_eq_none_iff {mark : α} {s : List α} : cutLast? mark s = none ↔ mark ∉ s := by
  induction s with
  | nil => simp [cutLast?]
  | cons c rest ih =>
      unfold cutLast?
      cases hrest : cutLast? mark rest with
      | none => simp [ih.1 hrest, eq_comm]
      | some found =>
          have hmem : ¬mark ∉ rest := by
            rw [← ih, hrest]
            simp
          simp [Decidable.not_not.1 hmem]

theorem split_ne_nil (mark : α) (s : List α) : split mark s ≠ [] := by
  cases s with
  | nil => simp [split]
  | cons c rest =>
      unfold split
      split
      · simp
      · split <;> simp

theorem split_of_not_mem {mark : α} {s : List α} (h : mark ∉ s) : split mark s = [s] := by
  induction s with
  | nil => rfl
  | cons c rest ih =>
      simp only [List.mem_cons, not_or] at h
      simp [split, Ne.symm h.1, ih h.2]

theorem split_append {mark : α} {before : List α} (h : mark ∉ before) (after : List α) :
    split mark (before ++ mark :: after) = before :: split mark after := by
  induction before with
  | nil => simp [split]
  | cons c rest ih =>
      simp only [List.mem_cons, not_or] at h
      simp [split, Ne.symm h.1, ih h.2]

theorem join_split (mark : α) (s : List α) : join mark (split mark s) = s := by
  induction s with
  | nil => rfl
  | cons c rest ih =>
      unfold split
      split
      · rename_i hc
        cases hpieces : split mark rest with
        | nil => exact absurd hpieces (split_ne_nil mark rest)
        | cons piece pieces => simp [join, ← hpieces, ih, hc]
      · cases hpieces : split mark rest with
        | nil => exact absurd hpieces (split_ne_nil mark rest)
        | cons piece pieces =>
            rw [hpieces] at ih
            rw [← ih]
            cases pieces <;> rfl

end LinkTrail.Text
