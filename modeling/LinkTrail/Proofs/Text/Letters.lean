import Mathlib
import LinkTrail.Text.Lower

namespace LinkTrail.Text

theorem toLower_of_not_isAlpha {c : Char} (h : c.isAlpha = false) : c.toLower = c := by
  apply Char.toLower_eq_of_not_isUpper
  intro hupper
  simp [Char.isAlpha, hupper] at h

theorem toUpper_of_not_isAlpha {c : Char} (h : c.isAlpha = false) : c.toUpper = c := by
  apply Char.toUpper_eq_of_not_isLower
  intro hlower
  simp [Char.isAlpha, hlower] at h

theorem toLower_eq_toLower_iff {mark : Char} (h : mark.isAlpha = false) {d : Char} :
    mark.toLower = d.toLower ↔ d = mark := by
  rw [toLower_of_not_isAlpha h]
  constructor
  · rintro rfl
    have hd : d.isAlpha = false := by simpa using h
    rw [toLower_of_not_isAlpha hd]
  · rintro rfl
    exact (toLower_of_not_isAlpha h).symm

theorem map_toLower_map_toLower (s : List Char) :
    (s.map Char.toLower).map Char.toLower = s.map Char.toLower := by
  rw [List.map_map]
  exact List.map_congr_left fun c _ => Char.toLower_toLower_eq_toLower c

theorem isDigit_of_isAlpha {c : Char} (h : c.isAlpha = true) : c.isDigit = false := by
  simp only [Char.isAlpha, Char.isUpper, Char.isLower, UInt32.le_iff_toNat_le] at h
  simp [Char.isDigit, UInt32.le_iff_toNat_le] at h ⊢
  omega

theorem le_of_mem_tail_capitalRuns : ∀ run ∈ capitalRuns.tail, 128 ≤ run.1 := by
  have hall : (capitalRuns.tail.all fun run => Nat.ble 128 run.1) = true := by decide +kernel
  simpa using hall

/-- Only the first run has ASCII letters. -/
theorem lowerChar_of_ascii {c : Char} (h : c.toNat < 128) : lowerChar c = c.toLower := by
  have hruns : capitalRuns = (0x41, 0x5a, 1, 32) :: capitalRuns.tail := rfl
  have hupper : c.isUpper = true ↔ 0x41 ≤ c.toNat ∧ c.toNat ≤ 0x5a := by
    simp [Char.isUpper, UInt32.le_iff_toNat_le]
  unfold lowerChar
  split
  · rename_i first last step shift hfind
    have hbounds : (first ≤ c.toNat ∧ c.toNat ≤ last) ∧ (c.toNat - first) % step = 0 := by
      simpa using List.find?_some hfind
    have hmem := List.mem_of_find?_eq_some hfind
    rw [hruns] at hmem
    obtain heq | htail := List.mem_cons.1 hmem
    · obtain ⟨rfl, rfl, rfl, rfl⟩ : first = 0x41 ∧ last = 0x5a ∧ step = 1 ∧ shift = 32 := by
        simpa using heq
      rw [Char.toLower_eq_of_isUpper (hupper.2 hbounds.1)]
      rfl
    · have hle := le_of_mem_tail_capitalRuns _ htail
      omega
  · rename_i hfind
    have hmem : (0x41, 0x5a, 1, 32) ∈ capitalRuns := by
      rw [hruns]
      exact List.mem_cons_self
    have hnot : ¬(0x41 ≤ c.toNat ∧ c.toNat ≤ 0x5a) := by
      simpa [Nat.mod_one] using List.find?_eq_none.1 hfind _ hmem
    rw [Char.toLower_eq_of_not_isUpper (mt hupper.1 hnot)]

/-- ASCII characters are lowered one by one, whatever stands behind them. -/
theorem lowerFrom_append_of_ascii {front : List Char} (h : ∀ c ∈ front, c.toNat < 128)
    (before s : List Char) :
    lowerFrom before (front ++ s) =
      front.map Char.toLower ++ lowerFrom (front.reverse ++ before) s := by
  induction front generalizing before with
  | nil => rfl
  | cons c front ih =>
      obtain ⟨hc, hfront⟩ := List.forall_mem_cons.1 h
      have hsigma : c ≠ 'Σ' := by
        rintro rfl
        exact absurd hc (by decide)
      have hdotted : c ≠ 'İ' := by
        rintro rfl
        exact absurd hc (by decide)
      rw [List.cons_append, lowerFrom, if_neg hsigma, if_neg hdotted, ih hfront,
        lowerChar_of_ascii hc]
      simp

theorem lower_of_ascii {s : List Char} (h : ∀ c ∈ s, c.toNat < 128) :
    lower s = s.map Char.toLower := by
  simpa [lower, lowerFrom] using lowerFrom_append_of_ascii h [] []

end LinkTrail.Text
