import LinkTrail.Proofs.Seconds.Rounding

/-!
The grain of clocks. Main statement: a deadline that is not due lies ahead, but for clocks that do not
tell a grain (`Timer.ahead_of_not_isDue`).
-/

namespace LinkTrail

namespace Binary64

open Float.Model UnpackedFloat

theorem hasValue_round {n : Nat} (sign : Sign) (hn : 0 < n) (k : Nat) :
    ∃ a : Nat, HasValue (UnpackedFloat.unpack .binary64 (UnpackedFloat.pack .binary64
        (UnpackedFloat.round .binary64 sign n (k - 1074)))) (sign.apply a) ∧
      ∀ m l, IsNormal m l → l ≤ maxExponent →
        (m * 2 ^ l ≤ n * 2 ^ k → m * 2 ^ l ≤ a) ∧ (n * 2 ^ k ≤ m * 2 ^ l → a ≤ m * 2 ^ l) := by
  obtain ⟨m, l, h, hround, horder⟩ := round_eq sign hn k
  refine ⟨min (m * 2 ^ l) overflow, hround ▸ hasValue_pack sign h, ?_⟩
  intro m' l' h' hl'
  have hlt := h'.lt_overflow hl'
  obtain ⟨hle, hge⟩ := horder m' l' h'
  constructor
  · intro hbelow
    exact le_min (hle hbelow) hlt.le
  · intro habove
    exact (min_le_left _ _).trans (hge habove)

theorem add_finite_eq (s s' : Sign) {m n : Nat} (k l : Nat) (hm : 0 < m) (hn : 0 < n) :
    UnpackedFloat.add .binary64 (.finite s m (k - 1074) hm) (.finite s' n (l - 1074) hn) =
      UnpackedFloat.normalize .binary64
        (s.apply (m * 2 ^ (k - min k l) : Nat) + s'.apply (n * 2 ^ (l - min k l) : Nat))
        ((min k l : Nat) - 1074) .positive := by
  have hlow : min ((k : Int) - 1074) (l - 1074) = ((min k l : Nat) : Int) - 1074 := by omega
  have hfirst : ((k : Int) - 1074 - (((min k l : Nat) : Int) - 1074)).toNat = k - min k l := by omega
  have hsecond : ((l : Int) - 1074 - (((min k l : Nat) : Int) - 1074)).toNat = l - min k l := by omega
  simp only [UnpackedFloat.add, decreaseExponent, hlow, hfirst, hsecond, Nat.shiftLeft_eq]

theorem normalize_of_pos {n : Nat} (hn : 0 < n) (exponent : Int) :
    UnpackedFloat.normalize .binary64 n exponent .positive =
      UnpackedFloat.round .binary64 .positive n exponent := by
  rw [UnpackedFloat.normalize, compare_gt_iff_gt.2 (Int.natCast_pos.2 hn), Int.toNat_natCast]

theorem normalize_of_neg {n : Nat} (hn : 0 < n) (exponent : Int) :
    UnpackedFloat.normalize .binary64 (-n) exponent .positive =
      UnpackedFloat.round .binary64 .negative n exponent := by
  rw [UnpackedFloat.normalize, compare_lt_iff_lt.2 (Int.neg_neg_of_pos (Int.natCast_pos.2 hn)), Int.neg_neg,
    Int.toNat_natCast]

theorem unpack_pack_notANumber :
    UnpackedFloat.unpack .binary64 (UnpackedFloat.pack .binary64 .notANumber) = .notANumber := by
  rfl

theorem hasValue_zero (sign : Sign) :
    HasValue (UnpackedFloat.unpack .binary64 (UnpackedFloat.pack .binary64 (.zero sign))) 0 := by
  cases sign
  · exact .zero .negative
  · exact .zero .positive

theorem hasValue_infinity (sign : Sign) :
    HasValue (UnpackedFloat.unpack .binary64 (UnpackedFloat.pack .binary64 (.infinity sign)))
      (sign.apply overflow) := by
  cases sign
  · exact .infinity .negative
  · exact .infinity .positive

theorem HasValue.le_add {x : UnpackedFloat} {a : Int} (hx : HasValue x a) {n l : Nat}
    (hn : IsNormal n l) : ∃ b, a ≤ b ∧ HasValue (UnpackedFloat.unpack .binary64
      (UnpackedFloat.pack .binary64
        (UnpackedFloat.add .binary64 x (.finite .positive n (l - 1074) hn.pos)))) b := by
  cases hx with
  | infinity sign => exact ⟨_, Int.le_refl _, hasValue_infinity sign⟩
  | zero sign => exact ⟨_, Int.natCast_nonneg _, hasValue_pack .positive hn⟩
  | @finite sign m k hm hk =>
      rw [add_finite_eq]
      have hvalue : m * 2 ^ (k - min k l) * 2 ^ min k l = m * 2 ^ k := by
        rw [Nat.mul_assoc, ← Nat.pow_add, Nat.sub_add_cancel (Nat.min_le_left k l)]
      have hpos : 0 < n * 2 ^ (l - min k l) := Nat.mul_pos hn.pos (Nat.two_pow_pos _)
      generalize m * 2 ^ (k - min k l) = first at hvalue
      generalize n * 2 ^ (l - min k l) = second at hpos
      cases sign with
      | positive =>
          have hsum : 0 < first + second := Nat.add_pos_right first hpos
          obtain ⟨b, hb, horder⟩ := hasValue_round .positive hsum (min k l)
          refine ⟨b, ?_, ?_⟩
          · refine Int.ofNat_le.2 ((horder m k hm hk).1 ?_)
            rw [← hvalue]
            exact Nat.mul_le_mul_right _ (Nat.le_add_right first second)
          · rw [← normalize_of_pos hsum] at hb
            exact hb
      | negative =>
          rcases Nat.lt_trichotomy first second with hlt | heq | hgt
          -- The sum is positive.
          · obtain ⟨b, hb, -⟩ := hasValue_round .positive (Nat.sub_pos_of_lt hlt) (min k l)
            rw [← normalize_of_pos (Nat.sub_pos_of_lt hlt), Int.ofNat_sub hlt.le] at hb
            refine ⟨b, ?_, ?_⟩
            · exact (Int.neg_nonpos_of_nonneg (Int.natCast_nonneg _)).trans (Int.natCast_nonneg b)
            · rw [Sign.apply, Sign.apply, Int.add_comm, ← Int.sub_eq_add_neg]
              exact hb
          · refine ⟨0, Int.neg_nonpos_of_nonneg (Int.natCast_nonneg _), ?_⟩
            rw [heq, Sign.apply, Sign.apply, Int.add_left_neg]
            exact hasValue_zero .positive
          -- The sum is negative, and its size is less.
          · obtain ⟨b, hb, horder⟩ := hasValue_round .negative (Nat.sub_pos_of_lt hgt) (min k l)
            rw [← normalize_of_neg (Nat.sub_pos_of_lt hgt), Int.ofNat_sub hgt.le] at hb
            refine ⟨-b, ?_, ?_⟩
            · refine Int.neg_le_neg (Int.ofNat_le.2 ((horder m k hm hk).2 ?_))
              rw [← hvalue]
              exact Nat.mul_le_mul_right _ (Nat.sub_le first second)
            · rw [Sign.apply, Sign.apply, Int.add_comm, ← Int.sub_eq_add_neg, ← Int.neg_sub]
              exact hb

theorem HasValue.zero_add {x : UnpackedFloat} {a : Int} (hx : HasValue x a) :
    HasValue (UnpackedFloat.unpack .binary64 (UnpackedFloat.pack .binary64
      (UnpackedFloat.add .binary64 (.zero .positive) x))) a := by
  cases hx with
  | infinity sign => exact hasValue_infinity sign
  | zero sign =>
      cases sign
      · exact hasValue_zero .positive
      · exact hasValue_zero .positive
  | finite sign hm hk =>
      have hpacked := hasValue_pack sign hm
      rw [min_eq_left (hm.lt_overflow hk).le] at hpacked
      exact hpacked

end Binary64

namespace Seconds

open Float.Model Binary64

theorem le_iff {a b : Seconds} :
    a ≤ b ↔ a.value.toModel.unpack.le b.value.toModel.unpack = true :=
  decide_eq_true_iff

theorem lt_iff {a b : Seconds} :
    a < b ↔ a.value.toModel.unpack.lt b.value.toModel.unpack = true :=
  decide_eq_true_iff

theorem exists_hasValue_or (a : Seconds) :
    a.value.toModel.unpack = .notANumber ∨ ∃ v, HasValue a.value.toModel.unpack v :=
  hasValue_unpack a.value.toModel.toBits.toBitVec

theorem exists_grain_eq : ∃ n l, ∃ h : IsNormal n l,
    grain.value.toModel.unpack = .finite .positive n (l - 1074) h.pos := by
  have hpos : grain.value.toModel.unpack.compare (.zero .positive) = some .gt := by decide +kernel
  have hfinite : grain.value.toModel.unpack.compare (.infinity .positive) = some .lt := by
    decide +kernel
  rcases exists_hasValue_or grain with hnone | ⟨v, hv⟩
  · rw [hnone] at hpos
    contradiction
  · generalize grain.value.toModel.unpack = unpacked at hpos hfinite hv
    cases hv with
    | infinity sign => cases sign <;> contradiction
    | zero sign => simp [UnpackedFloat.compare] at hpos
    | @finite sign n l hn hl =>
        cases sign with
        | negative => simp [UnpackedFloat.compare] at hpos
        | positive => exact ⟨n, l, hn, rfl⟩

theorem unpack_add (a b : Seconds) : (a + b).value.toModel.unpack =
    UnpackedFloat.unpack .binary64 (UnpackedFloat.pack .binary64
      (UnpackedFloat.add .binary64 a.value.toModel.unpack b.value.toModel.unpack)) :=
  rfl

theorem le_iff_exists {a b : Seconds} : a ≤ b ↔ ∃ v w,
    HasValue a.value.toModel.unpack v ∧ HasValue b.value.toModel.unpack w ∧ v ≤ w := by
  rw [le_iff]
  constructor
  · intro h
    rcases exists_hasValue_or a with hnone | ⟨v, hv⟩
    · rw [hnone] at h
      contradiction
    · rcases exists_hasValue_or b with hnone | ⟨w, hw⟩
      · rw [hnone] at h
        cases ha : a.value.toModel.unpack <;> rw [ha] at h <;> contradiction
      · exact ⟨v, w, hv, hw, (hv.le_iff hw).1 h⟩
  · rintro ⟨v, w, hv, hw, hle⟩
    exact (hv.le_iff hw).2 hle

theorem le_trans {a b c : Seconds} (hab : a ≤ b) (hbc : b ≤ c) : a ≤ c := by
  obtain ⟨u, v, hu, hv, huv⟩ := le_iff_exists.1 hab
  obtain ⟨v', w, hv', hw, hvw⟩ := le_iff_exists.1 hbc
  obtain rfl := hv.unique hv'
  exact le_iff_exists.2 ⟨u, w, hu, hw, Int.le_trans huv hvw⟩

/-- What lies at least a grain ahead has not been passed. -/
theorem le_of_add_grain_le {clock deadline : Seconds} (h : clock + grain ≤ deadline) :
    clock ≤ deadline := by
  obtain ⟨v, w, hv, hw, hle⟩ := le_iff_exists.1 h
  obtain ⟨n, l, hn, hgrain⟩ := exists_grain_eq
  rw [unpack_add, hgrain] at hv
  rcases exists_hasValue_or clock with hnone | ⟨a, ha⟩
  · have hadd : ∀ x, UnpackedFloat.add .binary64 .notANumber x = .notANumber := fun _ => rfl
    rw [hnone, hadd, unpack_pack_notANumber] at hv
    contradiction
  · obtain ⟨v', hav, hv'⟩ := ha.le_add hn
    obtain rfl := hv.unique hv'
    exact le_iff_exists.2 ⟨a, w, ha, hw, Int.le_trans hav hle⟩

end Seconds

namespace Timer

open Float.Model Binary64

/-- What has not come lies ahead, or the clock reads it and is so far on that it does not tell a grain
more. -/
theorem ahead_of_not_isDue {timer : Timer} {deadline clock : Seconds}
    (h : ¬ timer.isDue deadline clock = true) :
    clock + Seconds.grain ≤ deadline ∧ clock ≤ deadline ∧
      (deadline ≤ clock → timer = .strict ∧ clock + Seconds.grain ≤ clock) := by
  simp only [isDue, Bool.or_eq_true, Bool.not_eq_true', decide_eq_false_iff_not, not_or, not_not,
    Bool.and_eq_true, decide_eq_true_eq] at h
  obtain ⟨hgrain, hprompt⟩ := h
  refine ⟨hgrain, Seconds.le_of_add_grain_le hgrain, fun hreached => ⟨?_, ?_⟩⟩
  · cases timer with
    | strict => rfl
    | prompt => exact absurd ⟨rfl, hreached⟩ hprompt
  · exact Seconds.le_trans hgrain hreached

/-- At the end of time all is due that has been given a finite time at its beginning. -/
theorem isDue_endOfTime {limit : Seconds} (h : ¬ Seconds.endOfTime ≤ limit) :
    strict.isDue (0 + limit) .endOfTime = true := by
  by_contra hnever
  obtain ⟨hgrain, -⟩ := ahead_of_not_isDue hnever
  obtain ⟨v, w, hv, hw, hle⟩ := Seconds.le_iff_exists.1 (Seconds.le_of_add_grain_le hgrain)
  have hzero : (0 : Seconds).value.toModel.unpack = .zero .positive := by rfl
  rw [Seconds.unpack_add, hzero] at hw
  rcases Seconds.exists_hasValue_or limit with hnone | ⟨l, hl⟩
  · have hadd : UnpackedFloat.add .binary64 (.zero .positive) .notANumber = .notANumber := rfl
    rw [hnone, hadd, unpack_pack_notANumber] at hw
    contradiction
  · obtain rfl := hw.unique hl.zero_add
    exact h (Seconds.le_iff_exists.2 ⟨v, w, hv, hl, hle⟩)

end Timer

end LinkTrail
