import LinkTrail.Proofs.Text.Letters
import LinkTrail.Text.Blank
import LinkTrail.Url.Split

/-!
Texts in lower case. Main statements: lowering a text twice is lowering it once (`lower_lower`),
and it neither adds nor removes a mark (`mem_lower_iff`), be it punctuation, white space or a
character that looks like punctuation.
-/

namespace LinkTrail.Text

abbrev Run := Nat × Nat × Nat × Int

namespace Run

variable (run other : Run)

def smallFirst : Nat := (run.1 + run.2.2.2).toNat

def smallLast : Nat := (run.2.1 + run.2.2.2).toNat

def Holds (n : Nat) : Prop := run.1 ≤ n ∧ n ≤ run.2.1 ∧ (n - run.1) % run.2.2.1 = 0

def isSound : Bool :=
  decide (0 ≤ run.1 + run.2.2.2) && (run.smallLast.blt 0xd800 ||
    (Nat.blt 0xdfff run.smallFirst && run.smallLast.blt 0x110000))

def lowersBeside : Bool :=
  run.smallLast.blt other.1 || other.2.1.blt run.smallFirst ||
    ((run.2.2.1.beq 2 || run.1.beq run.2.1) && other.2.2.1.beq 2 &&
      ((run.smallFirst + other.1) % 2).beq 1)

def avoids (range : Nat × Nat) : Bool :=
  (run.2.1.blt range.1 || range.2.blt run.1) &&
    (run.smallLast.blt range.1 || range.2.blt run.smallFirst)

end Run

/-- ASCII characters other than letters, white space, and what looks like a mark of a URL. -/
def markRanges : Ranges :=
  [(0x00, 0x40), (0x5b, 0x60), (0x7b, 0x7f)] ++ blankRanges ++
    Url.lookAlikes.map fun c => (c.toNat, c.toNat)

/-- The whole table is gone through once. The code point 0x0130 is the dotted capital. -/
theorem checked_of_mem : ∀ run ∈ capitalRuns, Run.isSound run = true ∧
    (∀ other ∈ capitalRuns, Run.lowersBeside run other = true) ∧
    (∀ range ∈ markRanges, Run.avoids run range = true) ∧
    Run.avoids run (0x0130, 0x0130) = true := by
  have hall : (capitalRuns.all fun run => Run.isSound run &&
      (capitalRuns.all (Run.lowersBeside run) &&
        (markRanges.all (Run.avoids run) && Run.avoids run (0x0130, 0x0130)))) = true := by
    decide +kernel
  simpa only [List.all_eq_true, Bool.and_eq_true] using hall

variable {c d mark : Char} {s before : List Char}

def isSmall (c : Char) : Bool := c ≠ 'Σ' && c ≠ 'İ' && lowerChar c = c

def isMark (c : Char) : Bool := markRanges.has c

theorem isMark_of_isBlank (h : isBlank c = true) : isMark c = true := by
  simp only [isMark, markRanges, Ranges.has, List.any_append, Bool.or_eq_true]
  exact Or.inl (Or.inr h)

theorem isMark_of_ascii (hascii : c.toNat < 128) (h : c.isAlpha = false) : isMark c = true := by
  have hletter : ¬(0x41 ≤ c.toNat ∧ c.toNat ≤ 0x5a) ∧ ¬(0x61 ≤ c.toNat ∧ c.toNat ≤ 0x7a) := by
    simpa [Char.isAlpha, Char.isUpper, Char.isLower, UInt32.le_iff_toNat_le] using h
  simp only [isMark, markRanges, Ranges.has, List.any_append, List.any_cons, Bool.or_eq_true,
    Bool.and_eq_true, decide_eq_true_eq]
  omega

theorem isMark_of_mem_lookAlikes (h : c ∈ Url.lookAlikes) : isMark c = true := by
  simp only [isMark, markRanges, Ranges.has, List.any_append, List.any_map, Bool.or_eq_true]
  exact Or.inr (List.any_eq_true.2 ⟨c, h, by simp⟩)

theorem lowerChar_cases (c : Char) :
    ((∀ run ∈ capitalRuns, ¬Run.Holds run c.toNat) ∧ lowerChar c = c) ∨
      ∃ run ∈ capitalRuns, Run.Holds run c.toNat ∧
        lowerChar c = Char.ofNat (c.toNat + run.2.2.2).toNat := by
  have hholds (run : Run) : (run.1 ≤ c.toNat && c.toNat ≤ run.2.1 &&
      decide ((c.toNat - run.1) % run.2.2.1 = 0)) = true ↔ run.Holds c.toNat := by
    simp [Run.Holds, and_assoc]
  unfold lowerChar
  split
  · rename_i first last step shift hfind
    have hfound := (hholds (first, last, step, shift)).1 (by simpa using List.find?_some hfind)
    exact Or.inr ⟨_, List.mem_of_find?_eq_some hfind, hfound, rfl⟩
  · rename_i hfind
    refine Or.inl ⟨?_, rfl⟩
    intro run hrun
    rw [← hholds]
    exact List.find?_eq_none.1 hfind run hrun

section

variable {run other : Run} {n : Nat}

theorem toNat_of_holds (hrun : run ∈ capitalRuns) (h : run.Holds n) :
    (Char.ofNat (n + run.2.2.2).toNat).toNat = run.smallFirst + (n - run.1) ∧
      run.smallFirst + (n - run.1) ≤ run.smallLast := by
  obtain ⟨hfirst, hlast, -⟩ := h
  have hsound := (checked_of_mem run hrun).1
  simp only [Run.isSound, Run.smallFirst, Run.smallLast, Bool.and_eq_true, Bool.or_eq_true,
    decide_eq_true_eq, Nat.blt_eq] at hsound
  have hsmall : (n + run.2.2.2).toNat = run.smallFirst + (n - run.1) := by
    rw [Run.smallFirst]
    omega
  have hle : run.smallFirst + (n - run.1) ≤ run.smallLast := by
    rw [Run.smallFirst, Run.smallLast]
    omega
  have hvalid : (run.smallFirst + (n - run.1)).isValidChar := by
    rw [Run.smallFirst, Run.smallLast] at *
    rw [Nat.isValidChar]
    omega
  exact ⟨by rw [hsmall, Char.toNat_ofNat, if_pos hvalid], hle⟩

theorem not_holds_of_holds (hrun : run ∈ capitalRuns) (hother : other ∈ capitalRuns)
    (h : run.Holds n) : ¬other.Holds (run.smallFirst + (n - run.1)) := by
  have hle := (toNat_of_holds hrun h).2
  obtain ⟨hfirst, hlast, hstep⟩ := h
  have hbeside := (checked_of_mem run hrun).2.1 other hother
  simp only [Run.lowersBeside, Bool.or_eq_true, Bool.and_eq_true, Nat.blt_eq, Nat.beq_eq] at hbeside
  rintro ⟨hfirst', hlast', hstep'⟩
  obtain (hbelow | habove) | ⟨⟨hrun | hrun, hother⟩, hodd⟩ := hbeside
  · omega
  · omega
  · rw [hrun] at hstep
    rw [hother] at hstep'
    omega
  · rw [hother] at hstep'
    omega

end

theorem lowerChar_eq_self (h : ∀ run ∈ capitalRuns, ¬Run.Holds run c.toNat) : lowerChar c = c := by
  obtain ⟨-, hself⟩ | ⟨run, hrun, hholds, -⟩ := lowerChar_cases c
  · exact hself
  · exact absurd hholds (h run hrun)

theorem isSmall_lowerChar (hsigma : c ≠ 'Σ') (hdotted : c ≠ 'İ') :
    isSmall (lowerChar c) = true := by
  obtain ⟨-, hself⟩ | ⟨run, hrun, hholds, hlower⟩ := lowerChar_cases c
  · simp [isSmall, hself, hsigma, hdotted]
  · obtain ⟨htoNat, hle⟩ := toNat_of_holds hrun hholds
    rw [← hlower] at htoNat
    have hsmall : ∀ other ∈ capitalRuns, ¬Run.Holds other (lowerChar c).toNat := by
      rw [htoNat]
      exact fun other hother => not_holds_of_holds hrun hother hholds
    have hsigma' : lowerChar c ≠ 'Σ' := by
      intro heq
      have hself := lowerChar_eq_self hsmall
      rw [heq] at hself
      exact absurd hself (by decide)
    have hdotted' : lowerChar c ≠ 'İ' := by
      intro heq
      have havoids := (checked_of_mem run hrun).2.2.2
      rw [heq] at htoNat
      change 0x0130 = _ at htoNat
      simp only [Run.avoids, Bool.and_eq_true, Bool.or_eq_true, Nat.blt_eq] at havoids
      omega
    simp [isSmall, hsigma', hdotted', lowerChar_eq_self hsmall]

/-- A mark has no other form, and no other character has a mark for its small letter. -/
theorem isMark_lowerChar (c : Char) :
    (isMark c = true ∧ lowerChar c = c) ∨ (isMark c = false ∧ isMark (lowerChar c) = false) := by
  obtain ⟨-, hself⟩ | ⟨run, hrun, hholds, hlower⟩ := lowerChar_cases c
  · rw [hself]
    cases isMark c <;> simp
  · obtain ⟨htoNat, hle⟩ := toNat_of_holds hrun hholds
    rw [← hlower] at htoNat
    obtain ⟨hfirst, hlast, -⟩ := hholds
    refine Or.inr ⟨?_, ?_⟩ <;>
    · rw [Bool.eq_false_iff]
      intro hmark
      obtain ⟨range, hrange, hin⟩ := List.any_eq_true.1 hmark
      have havoids := (checked_of_mem run hrun).2.2.1 range hrange
      simp only [Run.avoids, Bool.and_eq_true, Bool.or_eq_true, Nat.blt_eq,
        decide_eq_true_eq] at havoids hin
      omega

theorem isSmall_special :
    (∀ d ∈ ['ς', 'σ', 'i', '\u0307'], isSmall d = true ∧ isMark d = false) ∧
      isMark 'Σ' = false ∧ isMark 'İ' = false := by
  have hall : ((['ς', 'σ', 'i', '\u0307'].all fun d => isSmall d && !isMark d) &&
      (!isMark 'Σ' && !isMark 'İ')) = true := by
    decide +kernel
  simpa only [List.all_eq_true, Bool.and_eq_true, Bool.not_eq_true'] using hall

theorem lowerFrom_cons (before : List Char) (c : Char) (s : List Char) :
    ∃ image, lowerFrom before (c :: s) = image ++ lowerFrom (c :: before) s ∧ image ≠ [] ∧
      (∀ d ∈ image, isSmall d = true) ∧
      ((isMark c = true ∧ image = [c]) ∨ (isMark c = false ∧ ∀ d ∈ image, isMark d = false)) := by
  refine ⟨_, rfl, ?_⟩
  have hspecial {image : List Char} (hne : image ≠ [])
      (himage : ∀ d ∈ image, d ∈ ['ς', 'σ', 'i', '\u0307']) (hc : isMark c = false) :
      image ≠ [] ∧ (∀ d ∈ image, isSmall d = true) ∧
        ((isMark c = true ∧ image = [c]) ∨ (isMark c = false ∧ ∀ d ∈ image, isMark d = false)) :=
    ⟨hne, fun d hd => (isSmall_special.1 d (himage d hd)).1,
      Or.inr ⟨hc, fun d hd => (isSmall_special.1 d (himage d hd)).2⟩⟩
  by_cases hsigma : c = 'Σ'
  · have hc : isMark c = false := hsigma ▸ isSmall_special.2.1
    rw [if_pos hsigma]
    split
    · exact hspecial (by simp) (by simp) hc
    · exact hspecial (by simp) (by simp) hc
  · rw [if_neg hsigma]
    by_cases hdotted : c = 'İ'
    · have hc : isMark c = false := hdotted ▸ isSmall_special.2.2
      rw [if_pos hdotted]
      exact hspecial (by simp) (by simp) hc
    · rw [if_neg hdotted]
      refine ⟨List.cons_ne_nil _ _, by simpa using isSmall_lowerChar hsigma hdotted, ?_⟩
      obtain ⟨hmark, hself⟩ | ⟨hmark, hlowered⟩ := isMark_lowerChar c
      · exact Or.inl ⟨hmark, by rw [hself]⟩
      · exact Or.inr ⟨hmark, by simpa using hlowered⟩

theorem isSmall_of_mem_lowerFrom : ∀ d ∈ lowerFrom before s, isSmall d = true := by
  induction s generalizing before with
  | nil => simp [lowerFrom]
  | cons c s ih =>
      obtain ⟨image, heq, -, hsmall, -⟩ := lowerFrom_cons before c s
      rw [heq, List.forall_mem_append]
      exact ⟨hsmall, ih⟩

theorem lowerFrom_of_isSmall (h : ∀ d ∈ s, isSmall d = true) : lowerFrom before s = s := by
  induction s generalizing before with
  | nil => rfl
  | cons c s ih =>
      obtain ⟨hc, hs⟩ := List.forall_mem_cons.1 h
      simp only [isSmall, Bool.and_eq_true, decide_eq_true_eq] at hc
      rw [lowerFrom, if_neg hc.1.1, if_neg hc.1.2, hc.2, ih hs]
      rfl

@[simp] theorem lower_lower (s : List Char) : lower (lower s) = lower s :=
  lowerFrom_of_isSmall isSmall_of_mem_lowerFrom

theorem mem_lowerFrom_iff (hmark : isMark mark = true) : mark ∈ lowerFrom before s ↔ mark ∈ s := by
  induction s generalizing before with
  | nil => simp [lowerFrom]
  | cons c s ih =>
      obtain ⟨image, heq, -, -, ⟨hc, rfl⟩ | ⟨hc, himage⟩⟩ := lowerFrom_cons before c s
      · rw [heq, List.mem_append, ih, List.mem_singleton, List.mem_cons]
      · have hne : mark ≠ c := by
          rintro rfl
          rw [hmark] at hc
          contradiction
        have hnot : mark ∉ image := by
          intro hmem
          rw [himage mark hmem] at hmark
          contradiction
        rw [heq, List.mem_append, ih, List.mem_cons, or_iff_right hnot, or_iff_right hne]

theorem mem_lower_iff (hmark : isMark mark = true) : mark ∈ lower s ↔ mark ∈ s :=
  mem_lowerFrom_iff hmark

theorem lowerFrom_eq_nil_iff : lowerFrom before s = [] ↔ s = [] := by
  cases s with
  | nil => simp [lowerFrom]
  | cons c s =>
      obtain ⟨image, heq, hne, -⟩ := lowerFrom_cons before c s
      simp [heq, hne]

theorem lower_eq_nil_iff : lower s = [] ↔ s = [] := lowerFrom_eq_nil_iff

theorem getLast?_lowerFrom : ∀ d ∈ (lowerFrom before s).getLast?,
    isMark d = true → s.getLast? = some d := by
  induction s generalizing before with
  | nil => simp [lowerFrom]
  | cons c s ih =>
      intro d hd hmark
      obtain ⟨image, heq, hne, -, himage⟩ := lowerFrom_cons before c s
      rw [heq, List.getLast?_append] at hd
      by_cases hs : s = []
      · subst hs
        obtain ⟨-, rfl⟩ | ⟨-, hnone⟩ := himage
        · simpa [lowerFrom] using hd
        · have hin := hnone d (List.mem_of_mem_getLast? (by simpa [lowerFrom] using hd))
          rw [hmark] at hin
          contradiction
      · have hlowered : lowerFrom (c :: before) s ≠ [] := fun h => hs (lowerFrom_eq_nil_iff.1 h)
        rw [List.getLast?_eq_some_getLast hlowered, Option.some_or,
          ← List.getLast?_eq_some_getLast hlowered] at hd
        rw [List.getLast?_cons_of_ne_nil hs]
        exact ih d hd hmark

end LinkTrail.Text
