import LinkTrail.Seconds
import Mathlib

/-!
The values of floats. Main statements: every float that is a number has a value, floats are compared
by their values, and a number of a float's precision is packed as itself or as infinity
(`hasValue_unpack`, `HasValue.compare_eq`, `hasValue_pack`).
-/

namespace LinkTrail.Binary64

open Float.Model UnpackedFloat

def maxExponent : Nat := 2045

/-- The least size that no number has, in units of the least positive number. -/
def overflow : Nat := 2 ^ 52 * 2 ^ (maxExponent + 1)

structure IsNormal (m k : Nat) : Prop where
  pos : 0 < m
  lt : m < 2 ^ 53
  normal : 2 ^ 52 ≤ m ∨ k = 0

/-- The value of a float in units of the least positive number; infinity counts as a number. -/
inductive HasValue : UnpackedFloat → Int → Prop where
  | infinity (sign : Sign) : HasValue (.infinity sign) (sign.apply overflow)
  | zero (sign : Sign) : HasValue (.zero sign) 0
  | finite (sign : Sign) {m k : Nat} (normal : IsNormal m k) (le : k ≤ maxExponent) :
      HasValue (.finite sign m (k - 1074) normal.pos) (sign.apply (m * 2 ^ k : Nat))

theorem HasValue.of_finite (sign : Sign) {m k : Nat} {exponent : Int} (normal : IsNormal m k)
    (le : k ≤ maxExponent) (h : exponent = k - 1074) :
    HasValue (.finite sign m exponent normal.pos) (sign.apply (m * 2 ^ k : Nat)) := by
  rw [h]
  exact .finite sign normal le

theorem mul_pow_lt {m k l n : Nat} (hm : m < 2 ^ 53) (hn : 2 ^ 52 ≤ n) (hlt : k < l) :
    m * 2 ^ k < n * 2 ^ l := by
  calc m * 2 ^ k < 2 ^ 53 * 2 ^ k := Nat.mul_lt_mul_of_pos_right hm (Nat.two_pow_pos k)
    _ = 2 ^ 52 * 2 ^ (k + 1) := by rw [Nat.pow_succ 2 k]; omega
    _ ≤ n * 2 ^ l := Nat.mul_le_mul hn (Nat.pow_le_pow_right (by decide) hlt)

theorem IsNormal.lt_overflow {m k : Nat} (h : IsNormal m k) (hk : k ≤ maxExponent) :
    m * 2 ^ k < overflow :=
  mul_pow_lt h.lt (Nat.le_refl _) (Nat.lt_succ_of_le hk)

theorem IsNormal.value_pos {m k : Nat} (h : IsNormal m k) : 0 < m * 2 ^ k :=
  Nat.mul_pos h.pos (Nat.two_pow_pos k)

theorem overflow_pos : 0 < overflow := Nat.mul_pos (Nat.two_pow_pos _) (Nat.two_pow_pos _)

theorem compare_of_lt {a b : Int} (h : a < b) : some .lt = some (compare a b) :=
  congrArg some (compare_lt_iff_lt.2 h).symm

theorem compare_of_gt {a b : Int} (h : b < a) : some .gt = some (compare a b) :=
  congrArg some (compare_gt_iff_gt.2 h).symm

theorem compare_of_eq {a b : Int} (h : a = b) : some .eq = some (compare a b) :=
  congrArg some (compare_eq_iff_eq.2 h).symm

theorem IsNormal.compare_eq {m k n l : Nat} (hm : IsNormal m k) (hn : IsNormal n l) :
    (compare ((k : Int) - 1074) (l - 1074)).then (compare m n) =
      compare ((m * 2 ^ k : Nat) : Int) (n * 2 ^ l : Nat) := by
  rcases Nat.lt_trichotomy k l with hlt | rfl | hgt
  · have hnormal := hn.normal.resolve_right (Nat.ne_of_gt (Nat.zero_lt_of_lt hlt))
    have hvalue := mul_pow_lt hm.lt hnormal hlt
    rw [compare_lt_iff_lt.2 (show (k : Int) - 1074 < l - 1074 by omega),
      compare_lt_iff_lt.2 (Int.ofNat_lt.2 hvalue)]
    rfl
  · have hpos := Nat.two_pow_pos k
    rw [compare_eq_iff_eq.2 rfl]
    rcases Nat.lt_trichotomy m n with hlt | rfl | hgt
    · rw [compare_lt_iff_lt.2 hlt,
        compare_lt_iff_lt.2 (Int.ofNat_lt.2 (Nat.mul_lt_mul_of_pos_right hlt hpos))]
      rfl
    · rw [compare_eq_iff_eq.2 rfl, compare_eq_iff_eq.2 rfl]
      rfl
    · rw [compare_gt_iff_gt.2 hgt,
        compare_gt_iff_gt.2 (Int.ofNat_lt.2 (Nat.mul_lt_mul_of_pos_right hgt hpos))]
      rfl
  · have hnormal := hm.normal.resolve_right (Nat.ne_of_gt (Nat.zero_lt_of_lt hgt))
    have hvalue := mul_pow_lt hn.lt hnormal hgt
    rw [compare_gt_iff_gt.2 (show (l : Int) - 1074 < k - 1074 by omega),
      compare_gt_iff_gt.2 (Int.ofNat_lt.2 hvalue)]
    rfl

theorem compare_neg (a b : Int) : compare (-a) (-b) = (compare a b).swap := by
  rcases lt_trichotomy a b with hlt | rfl | hgt
  · rw [compare_lt_iff_lt.2 hlt, compare_gt_iff_gt.2 (neg_lt_neg hlt)]
    rfl
  · rw [compare_eq_iff_eq.2 rfl, compare_eq_iff_eq.2 rfl]
    rfl
  · rw [compare_gt_iff_gt.2 hgt, compare_lt_iff_lt.2 (neg_lt_neg hgt)]
    rfl

theorem HasValue.compare_eq {x y : UnpackedFloat} {a b : Int} (hx : HasValue x a)
    (hy : HasValue y b) : x.compare y = some (compare a b) := by
  have hoverflow := overflow_pos
  cases hx with
  | infinity sign =>
      cases hy with
      | infinity sign' =>
          cases sign <;> cases sign' <;> simp only [UnpackedFloat.compare, Sign.apply]
          · exact compare_of_eq rfl
          · exact compare_of_lt (by omega)
          · exact compare_of_gt (by omega)
          · exact compare_of_eq rfl
      | zero sign' =>
          cases sign <;> simp only [UnpackedFloat.compare, Sign.apply]
          · exact compare_of_lt (by omega)
          · exact compare_of_gt (by omega)
      | finite sign' hn hl =>
          have hlt := hn.lt_overflow hl
          cases sign <;> cases sign' <;> simp only [UnpackedFloat.compare, Sign.apply]
          · exact compare_of_lt (by omega)
          · exact compare_of_lt (by omega)
          · exact compare_of_gt (by omega)
          · exact compare_of_gt (by omega)
  | zero sign =>
      cases hy with
      | infinity sign' =>
          cases sign' <;> simp only [UnpackedFloat.compare, Sign.apply]
          · exact compare_of_gt (by omega)
          · exact compare_of_lt (by omega)
      | zero sign' => exact compare_of_eq rfl
      | finite sign' hn hl =>
          have hpos := hn.value_pos
          cases sign' <;> simp only [UnpackedFloat.compare, Sign.apply]
          · exact compare_of_gt (by omega)
          · exact compare_of_lt (by omega)
  | finite sign hm hk =>
      have hlt := hm.lt_overflow hk
      have hpos := hm.value_pos
      cases hy with
      | infinity sign' =>
          cases sign <;> cases sign' <;> simp only [UnpackedFloat.compare, Sign.apply]
          · exact compare_of_gt (by omega)
          · exact compare_of_lt (by omega)
          · exact compare_of_gt (by omega)
          · exact compare_of_lt (by omega)
      | zero sign' =>
          cases sign <;> simp only [UnpackedFloat.compare, Sign.apply]
          · exact compare_of_lt (by omega)
          · exact compare_of_gt (by omega)
      | finite sign' hn hl =>
          have hpos' := hn.value_pos
          cases sign <;> cases sign' <;> simp only [UnpackedFloat.compare, Sign.apply]
          · rw [compare_neg, hm.compare_eq hn]
          · exact compare_of_lt (by omega)
          · exact compare_of_gt (by omega)
          · rw [hm.compare_eq hn]

theorem HasValue.le_iff {x y : UnpackedFloat} {a b : Int} (hx : HasValue x a) (hy : HasValue y b) :
    x.le y = true ↔ a ≤ b := by
  rw [UnpackedFloat.le, hx.compare_eq hy]
  exact Int.isLE_compare

theorem HasValue.lt_iff {x y : UnpackedFloat} {a b : Int} (hx : HasValue x a) (hy : HasValue y b) :
    x.lt y = true ↔ a < b := by
  rw [UnpackedFloat.lt, hx.compare_eq hy, beq_iff_eq, Option.some.injEq, compare_lt_iff_lt]

theorem HasValue.unique {x : UnpackedFloat} {a b : Int} (ha : HasValue x a) (hb : HasValue x b) :
    a = b :=
  Int.le_antisymm ((ha.le_iff hb).1 ((ha.le_iff ha).2 (Int.le_refl a)))
    ((hb.le_iff ha).1 ((ha.le_iff ha).2 (Int.le_refl a)))

theorem toNat_one_append {n : Nat} (b : BitVec n) : (1#1 ++ b).toNat = 2 ^ n + b.toNat := by
  rw [BitVec.toNat_append, ← Nat.shiftLeft_add_eq_or_of_lt b.isLt, Nat.shiftLeft_eq]
  simp

theorem one_append_pos {n : Nat} (b : BitVec n) : 0 < (1#1 ++ b).toNat := by
  rw [toNat_one_append]
  exact Nat.add_pos_left (Nat.two_pow_pos n) _

theorem toNat_pos {n : Nat} {b : BitVec n} (h : b ≠ 0#n) : 0 < b.toNat := by
  apply Nat.pos_of_ne_zero
  intro hzero
  exact h (BitVec.eq_of_toNat_eq (by simpa using hzero))

theorem hasValue_unpack (b : BitVec Format.binary64.numBits) :
    UnpackedFloat.unpack .binary64 b = .notANumber ∨
      ∃ a, HasValue (UnpackedFloat.unpack .binary64 b) a := by
  unfold UnpackedFloat.unpack
  dsimp only
  have hmantissa : (unpackMantissa b).toNat < 2 ^ 52 := (unpackMantissa b).isLt
  have hexponent : (unpackExponent b).toNat < 2 ^ 11 := (unpackExponent b).isLt
  split
  · split
    · exact Or.inr ⟨_, .infinity _⟩
    · exact Or.inl rfl
  · rename_i htop
    right
    split
    · split
      · exact ⟨_, .zero _⟩
      · rename_i hzero hnonzero
        have hnormal : IsNormal (unpackMantissa b).toNat 0 :=
          ⟨toNat_pos hnonzero, by omega, Or.inr rfl⟩
        refine ⟨_, HasValue.of_finite (.ofBitVec (unpackSign b)) hnormal (Nat.zero_le _) ?_⟩
        rw [hzero]
        rfl
    · rename_i hzero
      have hpos := toNat_pos hzero
      have hvalue : (1#1 ++ unpackMantissa b).toNat = 2 ^ 52 + (unpackMantissa b).toNat :=
        toNat_one_append _
      have hne : (unpackExponent b).toNat ≠ 2047 := by
        intro heq
        exact htop (BitVec.eq_of_toNat_eq heq)
      have hnormal : IsNormal (1#1 ++ unpackMantissa b).toNat ((unpackExponent b).toNat - 1) :=
        ⟨by omega, by omega, Or.inl (by omega)⟩
      have hle : (unpackExponent b).toNat - 1 ≤ maxExponent := by
        rw [maxExponent]
        omega
      refine ⟨_, HasValue.of_finite (.ofBitVec (unpackSign b)) hnormal hle ?_⟩
      have hbias : ((Format.binary64.exponentBias : Int) +
          Format.binary64.mantissaBitsWithoutImplicit) = 1075 := rfl
      rw [hbias]
      omega

theorem unpack_packComponents (sign : Sign) (exponent : BitVec 11) (mantissa : BitVec 52) :
    UnpackedFloat.unpack .binary64 (packComponents .binary64 sign exponent mantissa) =
      if exponent = -1#11 then (if mantissa = 0#52 then .infinity sign else .notANumber)
      else if exponent = 0#11 then
        if h : mantissa = 0#52 then .zero sign
        else .finite sign mantissa.toNat (-1074) (toNat_pos h)
      else .finite sign (1#1 ++ mantissa).toNat (exponent.toNat - 1075) (one_append_pos mantissa) := by
  have hsign : Sign.ofBitVec (unpackSign (packComponents .binary64 sign exponent mantissa)) = sign := by
    rw [unpackSign_packComponents, Sign.ofBitVec_toBitVec]
  unfold UnpackedFloat.unpack
  dsimp only
  simp only [hsign, unpackExponent_packComponents, unpackMantissa_packComponents]
  split
  · rfl
  · split
    · rename_i hzero
      subst hzero
      rfl
    · rfl

theorem unpack_pack_of_le (sign : Sign) {m k : Nat} (h : IsNormal m k) (hk : k ≤ maxExponent) :
    UnpackedFloat.unpack .binary64
        (if m.log2 + 1 = 53 then
          packComponents .binary64 sign (BitVec.ofNat 11 (k + 1)) (BitVec.ofNat 52 m)
        else packComponents .binary64 sign 0#11 (BitVec.ofNat 52 m)) =
      .finite sign m (k - 1074) h.pos := by
  have hpos := h.pos
  have hlt := h.lt
  have hlog : m.log2 + 1 = 53 ↔ 2 ^ 52 ≤ m := by
    have hshort := (Nat.log2_lt hpos.ne').2 hlt
    have hlong := @Nat.le_log2 m 52 hpos.ne'
    omega
  have hvalue : (BitVec.ofNat 52 m).toNat = m % 2 ^ 52 := BitVec.toNat_ofNat m 52
  rw [maxExponent] at hk
  split
  · rename_i hfull
    have hge := hlog.1 hfull
    have hexponent : (BitVec.ofNat 11 (k + 1)).toNat = k + 1 := by
      rw [BitVec.toNat_ofNat, Nat.mod_eq_of_lt]
      omega
    have htop : BitVec.ofNat 11 (k + 1) ≠ -1#11 := by
      intro heq
      have htoNat : (-1#11).toNat = 2047 := by decide
      rw [heq, htoNat] at hexponent
      omega
    have hbottom : BitVec.ofNat 11 (k + 1) ≠ 0#11 := by
      intro heq
      rw [heq] at hexponent
      simp at hexponent
    have hwhole : (1#1 ++ BitVec.ofNat 52 m).toNat = m := by
      rw [toNat_one_append, hvalue]
      omega
    rw [unpack_packComponents, if_neg htop, if_neg hbottom]
    congr 1
    rw [hexponent]
    omega
  · rename_i hshort
    have hsubnormal : m < 2 ^ 52 := Nat.lt_of_not_le (mt hlog.2 hshort)
    obtain rfl := h.normal.resolve_left (Nat.not_le.2 hsubnormal)
    have hwhole : (BitVec.ofNat 52 m).toNat = m := by
      rw [hvalue, Nat.mod_eq_of_lt hsubnormal]
    have hnonzero : BitVec.ofNat 52 m ≠ 0#52 := by
      intro heq
      rw [heq, BitVec.toNat_ofNat, Nat.zero_mod] at hwhole
      omega
    rw [unpack_packComponents, if_neg (by decide), if_pos rfl, dif_neg hnonzero]
    congr 1

/-- A number of a float's precision is packed as itself, unless it is too large. -/
theorem hasValue_pack (sign : Sign) {m k : Nat} (h : IsNormal m k) :
    HasValue (UnpackedFloat.unpack .binary64
        (UnpackedFloat.pack .binary64 (.finite sign m (k - 1074) h.pos)))
      (sign.apply (min (m * 2 ^ k) overflow : Nat)) := by
  have hexponent : ((k : Int) - 1074 + Format.binary64.exponentBias +
      Format.binary64.mantissaBitsWithoutImplicit).toNat = k + 1 := by
    have hbias : (Format.binary64.exponentBias : Int) = 1023 := rfl
    have hbits : (Format.binary64.mantissaBitsWithoutImplicit : Int) = 52 := rfl
    omega
  have hfits : 2 ^ Format.binary64.exponentBits ≤ k + 1 + 1 ↔ ¬ k ≤ maxExponent := by
    have hbits : 2 ^ Format.binary64.exponentBits = 2048 := rfl
    rw [hbits, maxExponent]
    omega
  unfold UnpackedFloat.pack
  dsimp only
  simp only [hexponent, hfits]
  by_cases hle : k ≤ maxExponent
  · have hpacked := unpack_pack_of_le sign h hle
    rw [if_neg (not_not.2 hle), min_eq_left (h.lt_overflow hle).le]
    exact hpacked ▸ .finite sign h hle
  · have hnormal := h.normal.resolve_right (by omega)
    have hge : overflow ≤ m * 2 ^ k :=
      Nat.mul_le_mul hnormal (Nat.pow_le_pow_right (by decide) (by omega))
    have hpacked : UnpackedFloat.unpack .binary64 (packedInfinity .binary64 sign) =
        .infinity sign := by cases sign <;> rfl
    rw [if_pos hle, min_eq_right hge, hpacked]
    exact .infinity sign

end LinkTrail.Binary64
