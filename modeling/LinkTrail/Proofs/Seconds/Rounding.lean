import LinkTrail.Proofs.Seconds.Value

namespace LinkTrail.Binary64

open Float.Model UnpackedFloat

structure IsRounded (n d rounded : Nat) : Prop where
  le_of_le : ∀ x, x * 2 ^ d ≤ n → x ≤ rounded
  ge_of_ge : ∀ x, n ≤ x * 2 ^ d → rounded ≤ x

theorem shiftRight_exact (n d : Nat) :
    let em := ExtendedMantissa.ofMantissaAndAccuracy n .exact >>> d
    em.mantissa = n / 2 ^ d ∧ (n % 2 ^ d = 0 → em.roundBit = false ∧ em.stickyBit = false) := by
  induction d with
  | zero => exact ⟨(Nat.div_one n).symm, fun _ => ⟨rfl, rfl⟩⟩
  | succ d ih =>
      obtain ⟨hmantissa, hbits⟩ := ih
      have hsucc : ExtendedMantissa.ofMantissaAndAccuracy n .exact >>> (d + 1) =
          (ExtendedMantissa.ofMantissaAndAccuracy n .exact >>> d).shiftRightOne := rfl
      rw [hsucc]
      refine ⟨?_, ?_⟩
      · rw [ExtendedMantissa.shiftRightOne, hmantissa, Nat.div_div_eq_div_mul, ← Nat.pow_succ]
      · intro hzero
        have hdvd : 2 ^ d * 2 ∣ n := Nat.dvd_of_mod_eq_zero hzero
        obtain ⟨hround, hsticky⟩ := hbits
          (Nat.mod_eq_zero_of_dvd (Nat.dvd_trans (Nat.dvd_mul_right _ _) hdvd))
        have heven : n / 2 ^ d % 2 = 0 := Nat.mod_eq_zero_of_dvd (Nat.dvd_div_of_mul_dvd hdvd)
        simp [ExtendedMantissa.shiftRightOne, hmantissa, hround, hsticky, heven]

theorem isRounded_shiftRight (n d : Nat) :
    IsRounded n d (ExtendedMantissa.ofMantissaAndAccuracy n .exact >>> d).roundedMantissa := by
  obtain ⟨hmantissa, hbits⟩ := shiftRight_exact n d
  generalize ExtendedMantissa.ofMantissaAndAccuracy n .exact >>> d = em at hmantissa hbits
  have hpos := Nat.two_pow_pos d
  obtain ⟨mantissa, round, sticky⟩ := em
  dsimp only at hmantissa hbits
  have hbounds : mantissa ≤ (ExtendedMantissa.mk mantissa round sticky).roundedMantissa ∧
      (ExtendedMantissa.mk mantissa round sticky).roundedMantissa ≤ mantissa + 1 := by
    unfold ExtendedMantissa.roundedMantissa
    cases round <;> cases sticky <;>
      simp only [ExtendedMantissa.accuracy, Accuracy.roundToNearestEven] <;> omega
  constructor
  · intro x hx
    have hbelow := (Nat.le_div_iff_mul_le hpos).2 hx
    omega
  · intro x hx
    rcases Nat.eq_or_lt_of_le hx with rfl | hlt
    · obtain ⟨rfl, rfl⟩ := hbits (Nat.mul_mod_left x _)
      rw [Nat.mul_div_cancel x hpos] at hmantissa
      exact Nat.le_of_eq hmantissa
    · have hbelow := (Nat.div_lt_iff_lt_mul hpos).2 hlt
      omega

theorem targetExponent_eq {n : Nat} (k : Nat) :
    Format.binary64.targetExponent (totalExponent n ((k : Int) - 1074)) =
      ((n.log2 + k - 52 : Nat) : Int) - 1074 := by
  have hbits : (Format.binary64.mantissaBits : Int) = 53 := rfl
  have hmin : Format.binary64.minExponent = -1074 := rfl
  rw [Format.targetExponent, totalExponent, hbits, hmin]
  omega

theorem shiftToTargetExponent_eq (n k : Nat) :
    shiftToTargetExponent .binary64 n ((k : Int) - 1074) .exact =
      (ExtendedMantissa.ofMantissaAndAccuracy n .exact >>> (n.log2 + k - 52 - k),
        ((max k (n.log2 + k - 52) : Nat) : Int) - 1074) := by
  have hamount : (((n.log2 + k - 52 : Nat) : Int) - 1074 - (k - 1074)).toNat =
      n.log2 + k - 52 - k := by omega
  rw [shiftToTargetExponent, targetExponent_eq, shiftToExponent, hamount]
  congr 1
  omega

theorem IsRounded.bounds {n k rounded : Nat} (h : IsRounded n (n.log2 + k - 52 - k) rounded)
    (hn : 0 < n) (hk : k ≤ n.log2 + k - 52) :
    0 < rounded ∧ rounded ≤ 2 ^ 53 ∧ (2 ^ 52 ≤ rounded ∨ n.log2 + k - 52 = 0) := by
  have hlog := Nat.log2_self_le hn.ne'
  have hlog' : n < 2 ^ (n.log2 + 1) := Nat.lt_log2_self
  have hle : rounded ≤ 2 ^ 53 := by
    apply h.ge_of_ge
    rw [← Nat.pow_add]
    exact Nat.le_of_lt (Nat.lt_of_lt_of_le hlog' (Nat.pow_le_pow_right (by decide) (by omega)))
  by_cases hzero : n.log2 + k - 52 = 0
  · refine ⟨?_, hle, Or.inr hzero⟩
    apply h.le_of_le
    simp [hzero]
    omega
  · have hge : 2 ^ 52 ≤ rounded := by
      apply h.le_of_le
      rw [← Nat.pow_add]
      exact (Nat.pow_le_pow_right (by decide) (by omega)).trans hlog
    exact ⟨Nat.lt_of_lt_of_le (by decide) hge, hle, Or.inl hge⟩

theorem roundWithAccuracy_eq_finite {n k rounded m l : Nat} (sign : Sign)
    (hk : k ≤ n.log2 + k - 52) (h : IsNormal m l)
    (hrounded : (ExtendedMantissa.ofMantissaAndAccuracy n .exact >>>
      (n.log2 + k - 52 - k)).roundedMantissa = rounded)
    (hm : (ExtendedMantissa.ofMantissaAndAccuracy rounded .exact >>>
      (rounded.log2 + (n.log2 + k - 52) - 52 - (n.log2 + k - 52))).mantissa = m)
    (hl : max (n.log2 + k - 52) (rounded.log2 + (n.log2 + k - 52) - 52) = l) :
    roundWithAccuracy .binary64 sign n (k - 1074) .exact = .finite sign m (l - 1074) h.pos := by
  unfold roundWithAccuracy
  rw [shiftToTargetExponent_eq, max_eq_right hk]
  dsimp only
  rw [hrounded, shiftToTargetExponent_eq]
  dsimp only
  subst hm hl
  exact dif_neg h.pos.ne'

theorem roundWithAccuracy_eq {n k : Nat} (sign : Sign) (hn : 0 < n) (hk : k ≤ n.log2 + k - 52) :
    ∃ rounded m l, ∃ h : IsNormal m l, IsRounded n (n.log2 + k - 52 - k) rounded ∧
      (2 ^ 52 ≤ rounded ∨ n.log2 + k - 52 = 0) ∧
      m * 2 ^ l = rounded * 2 ^ (n.log2 + k - 52) ∧
        roundWithAccuracy .binary64 sign n (k - 1074) .exact = .finite sign m (l - 1074) h.pos := by
  have hrounded := isRounded_shiftRight n (n.log2 + k - 52 - k)
  generalize hr : (ExtendedMantissa.ofMantissaAndAccuracy n .exact >>>
    (n.log2 + k - 52 - k)).roundedMantissa = rounded at hrounded
  obtain ⟨hpos, hle, hge⟩ := hrounded.bounds hn hk
  refine ⟨rounded, ?_⟩
  rcases Nat.eq_or_lt_of_le hle with heq | hlt
  -- Rounding has given one more digit, which is a zero.
  · have hnormal : IsNormal (2 ^ 52) (n.log2 + k - 52 + 1) :=
      ⟨by decide, by decide, Or.inl (Nat.le_refl _)⟩
    refine ⟨2 ^ 52, n.log2 + k - 52 + 1, hnormal, hrounded, hge, ?_,
      roundWithAccuracy_eq_finite sign hk hnormal hr ?_ ?_⟩
    · rw [heq, Nat.pow_succ 2 (n.log2 + k - 52)]
      omega
    · rw [(shiftRight_exact rounded _).1, heq, Nat.log2_two_pow]
      have hone : 53 + (n.log2 + k - 52) - 52 - (n.log2 + k - 52) = 1 := by omega
      rw [hone]
      rfl
    · rw [heq, Nat.log2_two_pow]
      omega
  · have hnormal : IsNormal rounded (n.log2 + k - 52) := ⟨hpos, hlt, hge⟩
    have hshort : rounded.log2 < 53 := (Nat.log2_lt hpos.ne').2 hlt
    have hnone : rounded.log2 + (n.log2 + k - 52) - 52 - (n.log2 + k - 52) = 0 := by omega
    refine ⟨rounded, n.log2 + k - 52, hnormal, hrounded, hge, rfl,
      roundWithAccuracy_eq_finite sign hk hnormal hr ?_ ?_⟩
    · rw [hnone]
      rfl
    · omega

theorem log2_mul_two_pow {n : Nat} (hn : 0 < n) (d : Nat) : (n * 2 ^ d).log2 = n.log2 + d := by
  have hpos : n * 2 ^ d ≠ 0 := (Nat.mul_pos hn (Nat.two_pow_pos d)).ne'
  rw [Nat.log2_eq_iff hpos]
  have hle := Nat.log2_self_le hn.ne'
  have hlt : n < 2 ^ (n.log2 + 1) := Nat.lt_log2_self
  constructor
  · rw [Nat.pow_add]
    exact Nat.mul_le_mul_right _ hle
  · rw [Nat.add_right_comm, Nat.pow_add]
    exact Nat.mul_lt_mul_of_pos_right hlt (Nat.two_pow_pos d)

theorem IsRounded.keeps_order {n low top rounded m l : Nat} (h : IsRounded n (top - low) rounded)
    (hlow : low ≤ top) (hrounded : 2 ^ 52 ≤ rounded ∨ top = 0)
    (hn : 2 ^ 52 * 2 ^ (top - low) ≤ n ∨ top = 0) (hm : IsNormal m l) :
    (m * 2 ^ l ≤ n * 2 ^ low → m * 2 ^ l ≤ rounded * 2 ^ top) ∧
      (n * 2 ^ low ≤ m * 2 ^ l → rounded * 2 ^ top ≤ m * 2 ^ l) := by
  have hpow : 2 ^ (top - low) * 2 ^ low = 2 ^ top := by
    rw [← Nat.pow_add, Nat.sub_add_cancel hlow]
  rcases Nat.lt_or_ge l top with hlt | hge
  -- The number is smaller than all that have this last digit.
  · have hbig := hrounded.resolve_right (by omega)
    have hlong := hn.resolve_right (by omega)
    refine ⟨fun _ => Nat.le_of_lt (mul_pow_lt hm.lt hbig hlt), fun hle => ?_⟩
    have hbelow := mul_pow_lt hm.lt (Nat.le_refl _) hlt
    have habove : 2 ^ 52 * 2 ^ top ≤ n * 2 ^ low := by
      rw [← hpow, ← Nat.mul_assoc]
      exact Nat.mul_le_mul_right _ hlong
    omega
  -- The number is a multiple of the last digit.
  · have hmultiple : m * 2 ^ l = m * 2 ^ (l - top) * 2 ^ top := by
      rw [Nat.mul_assoc, ← Nat.pow_add, Nat.sub_add_cancel hge]
    have hpos := Nat.two_pow_pos low
    rw [hmultiple]
    constructor
    · intro hle
      rw [← hpow, ← Nat.mul_assoc] at hle
      exact Nat.mul_le_mul_right _ (h.le_of_le _ (Nat.le_of_mul_le_mul_right hle hpos))
    · intro hle
      rw [← hpow, ← Nat.mul_assoc] at hle
      rw [← hpow, hpow]
      exact Nat.mul_le_mul_right _ (h.ge_of_ge _ (Nat.le_of_mul_le_mul_right hle hpos))

/-- Rounding gives a normal number and keeps the order to all of them. -/
theorem round_eq {n : Nat} (sign : Sign) (hn : 0 < n) (k : Nat) :
    ∃ m l, ∃ h : IsNormal m l,
      UnpackedFloat.round .binary64 sign n (k - 1074) = .finite sign m (l - 1074) h.pos ∧
        ∀ m' l', IsNormal m' l' → (m' * 2 ^ l' ≤ n * 2 ^ k → m' * 2 ^ l' ≤ m * 2 ^ l) ∧
          (n * 2 ^ k ≤ m' * 2 ^ l' → m * 2 ^ l ≤ m' * 2 ^ l') := by
  generalize hshift : k - (n.log2 + k - 52) = shift
  generalize hlow : k - shift = low
  have hdecrease : decreaseExponent n ((k : Int) - 1074) (((n.log2 + k - 52 : Nat) : Int) - 1074) =
      (n * 2 ^ shift, (low : Int) - 1074) := by
    have hamount : ((k : Int) - 1074 - (((n.log2 + k - 52 : Nat) : Int) - 1074)).toNat = shift := by
      omega
    rw [decreaseExponent, hamount, Nat.shiftLeft_eq]
    congr 1
    omega
  have hvalue : n * 2 ^ k = n * 2 ^ shift * 2 ^ low := by
    rw [Nat.mul_assoc, ← Nat.pow_add]
    congr 2
    omega
  have hpos : 0 < n * 2 ^ shift := Nat.mul_pos hn (Nat.two_pow_pos shift)
  have hlog := log2_mul_two_pow hn shift
  obtain ⟨rounded, m, l, h, hrounded, hge, hsame, hround⟩ :=
    @roundWithAccuracy_eq _ low sign hpos (by omega)
  refine ⟨m, l, h, ?_, ?_⟩
  · rw [UnpackedFloat.round, targetExponent_eq, hdecrease]
    exact hround
  · intro m' l' h'
    rw [hvalue, hsame]
    refine hrounded.keeps_order (by omega) hge ?_ h'
    by_cases hzero : (n * 2 ^ shift).log2 + low - 52 = 0
    · exact Or.inr hzero
    · left
      rw [← Nat.pow_add]
      exact (Nat.pow_le_pow_right (by decide) (by omega)).trans (Nat.log2_self_le hpos.ne')

end LinkTrail.Binary64
