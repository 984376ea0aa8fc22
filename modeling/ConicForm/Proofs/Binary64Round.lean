import Mathlib
import ConicForm.Proofs.Binary64Order
/-!
Rounding to doubles, and the two cone exponents of the power rule.

A positive mantissa whose leading bit lies in the range of the finite doubles rounds, packs and
unpacks to a positive finite double no smaller than that leading bit (`unpack_round_pos`). From
it the exponents the power rule stores as doubles are positive reals: `1/d` for `d ≥ 1`
(`toReal_one_div_pos`), with `1 - p ≥ 1` for `p < 0` (`one_le_toReal_one_sub`).
-/

namespace ConicForm.Binary64

open Float.Model UnpackedFloat

/-! ### Shifting and rounding a mantissa -/

namespace ExtendedMantissa

lemma shiftRight_succ (em : ExtendedMantissa) (k : Nat) :
    em >>> (k + 1) = (em >>> k).shiftRightOne := rfl

@[simp] lemma mantissa_shiftRight (em : ExtendedMantissa) (k : Nat) :
    (em >>> k).mantissa = em.mantissa / 2 ^ k := by
  induction k with
  | zero => exact (Nat.div_one _).symm
  | succ k ih =>
    rw [shiftRight_succ, ExtendedMantissa.shiftRightOne, ih, Nat.div_div_eq_div_mul, Nat.pow_succ]

-- after a shift by `k + 1` the round bit is the bit of weight `2^k`
lemma roundBit_shiftRight (em : ExtendedMantissa) (k : Nat) :
    (em >>> (k + 1)).roundBit = (em.mantissa / 2 ^ k % 2 != 0) := by
  rw [shiftRight_succ, ExtendedMantissa.shiftRightOne, mantissa_shiftRight]

lemma roundedMantissa_bounds (em : ExtendedMantissa) :
    em.mantissa ≤ em.roundedMantissa ∧ em.roundedMantissa ≤ em.mantissa + 1 := by
  rcases em with ⟨m, _ | _, _ | _⟩ <;>
    simp [ExtendedMantissa.roundedMantissa, ExtendedMantissa.accuracy,
      Accuracy.roundToNearestEven]
  omega

lemma roundedMantissa_of_roundBit (em : ExtendedMantissa) (h : em.roundBit = false) :
    em.roundedMantissa = em.mantissa := by
  rcases em with ⟨m, _ | _, _ | _⟩ <;>
    simp_all [ExtendedMantissa.roundedMantissa, ExtendedMantissa.accuracy,
      Accuracy.roundToNearestEven]

end ExtendedMantissa

/-! ### Rounding to 53 bits -/

lemma target_eq (m : Nat) (e : Int) :
    Format.binary64.targetExponent (totalExponent m e) = max (m.log2 + e - 52) (-1074) := by
  simp only [Format.targetExponent, totalExponent, Format.mantissaBits, Format.minExponent]
  norm_num
  omega

/-- The shift to the target exponent: by `k` places, to the exponent `e + k`, which is at least
the least exponent, and at least `log₂ m - 52` places. -/
lemma shiftToTarget_eq (m : Nat) (e : Int) (a : Accuracy) :
    ∃ k : Nat, shiftToTargetExponent .binary64 m e a =
      (ExtendedMantissa.ofMantissaAndAccuracy m a >>> k, e + k) ∧
      e + k = max e (max (m.log2 + e - 52) (-1074)) := by
  refine ⟨_, rfl, ?_⟩
  rw [target_eq]
  omega

@[simp] lemma mantissa_ofMantissaAndAccuracy (m : Nat) (a : Accuracy) :
    (ExtendedMantissa.ofMantissaAndAccuracy m a).mantissa = m := by
  unfold ExtendedMantissa.ofMantissaAndAccuracy
  split <;> rfl

lemma shiftToTarget_small {m : Nat} {e : Int} (hm : m < 2 ^ 53) (he : -1074 ≤ e) :
    shiftToTargetExponent .binary64 m e .exact = (⟨m, false, false⟩, e) := by
  have hlog : m.log2 ≤ 52 := by
    rcases Nat.eq_zero_or_pos m with rfl | hpos
    · simp
    · exact Nat.lt_succ_iff.1 ((Nat.log2_lt hpos.ne').2 hm)
  have hk : (Format.binary64.targetExponent (totalExponent m e) - e).toNat = 0 := by
    rw [target_eq]
    omega
  simp only [shiftToTargetExponent, shiftToExponent, hk, Int.natCast_zero, add_zero]
  rfl

-- the carry of a rounding to `2^53` is shifted once more, exactly
lemma shiftToTarget_carry {e : Int} (he : -1074 ≤ e) :
    shiftToTargetExponent .binary64 (2 ^ 53) e .exact = (⟨2 ^ 52, false, false⟩, e + 1) := by
  have hk : (Format.binary64.targetExponent (totalExponent (2 ^ 53) e) - e).toNat = 1 := by
    rw [target_eq, Nat.log2_two_pow]
    omega
  simp only [shiftToTargetExponent, shiftToExponent, hk]
  rfl

/-! ### Packing -/

lemma sign_packComponents (s : Sign) (e : BitVec 11) (m : BitVec 52) :
    Sign.ofBitVec (unpackSign (packComponents .binary64 s e m)) = s := by
  rw [unpackSign_packComponents, Sign.ofBitVec_toBitVec]

/-- A finite double of at most 53 bits, normal or at the least exponent, is packed into bits
that unpack to it again. -/
lemma unpack_pack_finite (s : Sign) {m : Nat} {e : Int} (hpos : 0 < m) (hm : m < 2 ^ 53)
    (he : -1074 ≤ e) (he' : e ≤ 971) (hc : 2 ^ 52 ≤ m ∨ e = -1074) :
    (Float.Model.pack (.finite s m e hpos)).unpack = .finite s m e hpos := by
  unfold Float.Model.unpack Float.Model.pack
  simp only [UnpackedFloat.pack, Format.exponentBias, Format.mantissaBits]
  norm_num
  rw [if_neg (by omega)]
  have hbias : ((e + 1023 + 52).toNat : Int) = e + 1075 := by omega
  split
  · -- normal: the exponent field is the biased exponent, and the hidden bit is restored
    rename_i hlog
    have hlow : 2 ^ 52 ≤ m := by
      have := Nat.log2_self_le hpos.ne'
      rw [show m.log2 = 52 by omega] at this
      exact this
    simp only [UnpackedFloat.unpack, unpackExponent_packComponents, unpackMantissa_packComponents,
      sign_packComponents]
    have h1 : BitVec.ofNat 11 (e + 1023 + 52).toNat ≠ -1#11 := by
      intro h
      have := congrArg BitVec.toNat h
      simp at this
      omega
    have h0 : BitVec.ofNat 11 (e + 1023 + 52).toNat ≠ 0#11 := by
      intro h
      have := congrArg BitVec.toNat h
      simp at this
      omega
    simp only [h1, h0, if_false]
    congr 1
    · rw [BitVec.toNat_append, BitVec.toNat_ofNat, BitVec.toNat_ofNat,
        ← Nat.shiftLeft_add_eq_or_of_lt (Nat.mod_lt _ (by norm_num)), Nat.shiftLeft_eq]
      omega
    · simp [Format.exponentBias]
      omega
  · -- at the least exponent: the exponent field is zero and the mantissa stands alone
    rename_i hlog
    have hsmall : m < 2 ^ 52 := by
      by_contra hge
      have := (Nat.le_log2 hpos.ne').2 (Nat.le_of_not_lt hge)
      have := (Nat.log2_lt hpos.ne').2 hm
      omega
    obtain rfl : e = -1074 := hc.resolve_left (by omega)
    have hm0 : BitVec.ofNat 52 m ≠ 0#52 := by
      intro h
      have := congrArg BitVec.toNat h
      simp at this
      omega
    simp only [UnpackedFloat.unpack, unpackExponent_packComponents, unpackMantissa_packComponents,
      sign_packComponents, hm0]
    simp [Format.exponentBias]
    omega

/-- Rounding a positive mantissa `q` at exponent `e`, of 53 bits or more or at the least exponent,
whose leading bit `2^(log₂ q + e)` is at least the least subnormal and below `2^1023`: the
result is a positive finite double that packs and unpacks as it is, and is no less than that
leading bit. -/
lemma unpack_round_pos {q : Nat} {e : Int} (a : Accuracy) (hq : 0 < q)
    (hc : 52 ≤ q.log2 ∨ e ≤ -1074) (hlo : -1074 ≤ q.log2 + e) (hhi : q.log2 + e ≤ 1022) :
    ∃ r e' h, (Float.Model.pack (roundWithAccuracy .binary64 .positive q e a)).unpack =
      .finite .positive r e' h ∧ (2 : ℝ) ^ (q.log2 + e) ≤ r * 2 ^ e' := by
  obtain ⟨k, hshift, hk⟩ := shiftToTarget_eq q e a
  have hkle : k ≤ q.log2 := by omega
  -- the leading bit survives the shift, and at most 53 bits are left
  have hlead : 2 ^ (q.log2 - k) ≤ q / 2 ^ k := by
    rw [Nat.le_div_iff_mul_le (by positivity), ← Nat.pow_add, Nat.sub_add_cancel hkle]
    exact Nat.log2_self_le hq.ne'
  have hbelow : q / 2 ^ k < 2 ^ 53 := by
    rw [Nat.div_lt_iff_lt_mul (by positivity), ← Nat.pow_add]
    calc q < 2 ^ (q.log2 + 1) := Nat.lt_log2_self
      _ ≤ 2 ^ (53 + k) := Nat.pow_le_pow_right (by norm_num) (by omega)
  have hcanon : 2 ^ 52 ≤ q / 2 ^ k ∨ e + k = -1074 := by
    rcases (by omega : e + k = -1074 ∨ q.log2 - k = 52) with h | h
    · exact .inr h
    · exact .inl (h ▸ hlead)
  set em := ExtendedMantissa.ofMantissaAndAccuracy q a >>> k with hem
  have hmant : em.mantissa = q / 2 ^ k := by simp [hem]
  obtain ⟨hr₁, hr₂⟩ := ExtendedMantissa.roundedMantissa_bounds em
  have hpos : 0 < em.roundedMantissa := by
    have : 0 < 2 ^ (q.log2 - k) := by positivity
    omega
  -- the value is at least the shifted mantissa's, whose leading bit is `q`'s
  have hvalue : (2 : ℝ) ^ (q.log2 + e) ≤ em.roundedMantissa * 2 ^ (e + k) := by
    have hle : 2 ^ (q.log2 - k) ≤ em.roundedMantissa := by omega
    calc (2 : ℝ) ^ (q.log2 + e) = 2 ^ (q.log2 - k) * 2 ^ (e + k) := by
          rw [← zpow_natCast, ← zpow_add₀ two_ne_zero]
          congr 1
          omega
      _ ≤ em.roundedMantissa * 2 ^ (e + k) := by
          gcongr
          exact_mod_cast hle
  have he₁ : -1074 ≤ e + k ∧ e + k ≤ 970 := by omega
  unfold roundWithAccuracy
  rw [hshift]
  simp only
  rcases Nat.lt_or_ge em.roundedMantissa (2 ^ 53) with hsmall | hcarry
  · -- no carry: the rounded mantissa stands at the target exponent
    rw [shiftToTarget_small hsmall he₁.1]
    simp only [dif_neg hpos.ne']
    refine ⟨_, _, hpos, unpack_pack_finite _ hpos hsmall he₁.1 (by omega) ?_, hvalue⟩
    rcases hcanon with h | h
    · exact .inl (by omega)
    · exact .inr h
  · -- a carry to `2^53` moves to the next exponent
    have hr : em.roundedMantissa = 2 ^ 53 := by omega
    rw [hr] at hvalue ⊢
    rw [shiftToTarget_carry he₁.1]
    refine ⟨2 ^ 52, e + k + 1, by norm_num,
      unpack_pack_finite _ _ (by norm_num) (by omega) (by omega) (.inl le_rfl), ?_⟩
    calc (2 : ℝ) ^ (q.log2 + e) ≤ (2 ^ 53 : Nat) * 2 ^ (e + k) := hvalue
      _ = (2 ^ 52 : Nat) * 2 ^ (e + k + 1) := by
          rw [zpow_add_one₀ two_ne_zero]
          push_cast
          ring

/-! ### Unpacked doubles -/

-- the exponent field of a finite double is below its all-ones value
lemma exponent_le_of_unpack {x : Float.Model} {s : Sign} {m : Nat} {e : Int} {hm : 0 < m}
    (hu : x.unpack = .finite s m e hm) : e ≤ 971 := by
  unfold Float.Model.unpack UnpackedFloat.unpack at hu
  simp only at hu
  split_ifs at hu with hinf hnan hsub hzero
  · cases hu
    have hfield := congrArg BitVec.toNat hsub
    simp [Format.exponentBias] at hfield ⊢
    omega
  · cases hu
    have hfield := fun h => hinf (BitVec.eq_of_toNat_eq h)
    have hlt := (@unpackExponent .binary64 x.toBits.toBitVec).isLt
    simp [Format.exponentBias] at hfield hlt ⊢
    omega

lemma le_log2_add {m : Nat} {e N : Int} (h : (2 : ℝ) ^ N ≤ m * 2 ^ e) :
    N ≤ m.log2 + e := by
  have hlt : (m : ℝ) < 2 ^ ((m.log2 : Int) + 1) := by
    rw [zpow_add_one₀ two_ne_zero, zpow_natCast]
    exact_mod_cast Nat.lt_log2_self
  have : (2 : ℝ) ^ N < 2 ^ ((m.log2 : Int) + 1 + e) := by
    rw [zpow_add₀ two_ne_zero]
    exact h.trans_lt (mul_lt_mul_of_pos_right hlt (by positivity))
  have := (zpow_lt_zpow_iff_right₀ (by norm_num : (1 : ℝ) < 2)).1 this
  omega

lemma unpack_of_one_le {x : Float} (h : 1 ≤ toReal x) :
    ∃ m e hm, x.toModel.unpack = .finite .positive m e hm ∧ Canonical m e ∧ e ≤ 971 ∧
      0 ≤ (m.log2 : Int) + e ∧ toReal x = m * 2 ^ e := by
  unfold toReal at h ⊢
  cases hu : x.toModel.unpack with
  | finite s m e hm =>
    rw [hu] at h
    cases s with
    | negative =>
      have : (0 : ℝ) ≤ m * 2 ^ e := by positivity
      simp [unpackedReal, Sign.apply] at h
      linarith
    | positive =>
      simp only [unpackedReal, Sign.apply, Int.cast_natCast] at h ⊢
      exact ⟨m, e, hm, rfl, canonical_of_unpack hu, exponent_le_of_unpack hu,
        le_log2_add (by simpa using h), rfl⟩
  | _ => rw [hu] at h; simp [unpackedReal] at h; linarith

/-! ### The exponents of the power rule -/

lemma unpack_one : (1 : Float).toModel.unpack = .finite .positive (2 ^ 52) (-52) (by decide) := rfl

lemma unpack_div (a b : Float) : (a / b).toModel.unpack =
    (Float.Model.pack (UnpackedFloat.div .binary64 a.toModel.unpack b.toModel.unpack)).unpack :=
  rfl

lemma toReal_of_unpack {x : Float} {m : Nat} {e : Int} {hm : 0 < m}
    (h : x.toModel.unpack = .finite .positive m e hm) : toReal x = m * 2 ^ e := by
  simp [toReal, h, unpackedReal, Sign.apply]

-- the quotient `2^(52 + n) / m` has its leading bit within one place of `2^(52 + n - log₂ m)`
lemma log2_quotient {m n : Nat} (hm : 0 < m) (h : m.log2 ≤ 51 + n) :
    0 < 2 ^ 52 <<< n / m ∧ 51 + n - m.log2 ≤ (2 ^ 52 <<< n / m).log2 ∧
      (2 ^ 52 <<< n / m).log2 ≤ 52 + n - m.log2 := by
  have hlow : 2 ^ m.log2 ≤ m := Nat.log2_self_le hm.ne'
  have hhigh : m < 2 ^ (m.log2 + 1) := Nat.lt_log2_self
  have hq : 2 ^ (51 + n - m.log2) ≤ 2 ^ 52 <<< n / m := by
    rw [Nat.le_div_iff_mul_le hm, Nat.shiftLeft_eq, ← Nat.pow_add]
    calc 2 ^ (51 + n - m.log2) * m ≤ 2 ^ (51 + n - m.log2) * 2 ^ (m.log2 + 1) :=
          Nat.mul_le_mul_left _ hhigh.le
      _ = 2 ^ (52 + n) := by rw [← Nat.pow_add]; congr 1; omega
  have hq' : 2 ^ 52 <<< n / m < 2 ^ (53 + n - m.log2) := by
    rw [Nat.div_lt_iff_lt_mul hm, Nat.shiftLeft_eq, ← Nat.pow_add]
    calc 2 ^ (52 + n) < 2 ^ (53 + n) := Nat.pow_lt_pow_right (by norm_num) (by omega)
      _ = 2 ^ (53 + n - m.log2) * 2 ^ m.log2 := by rw [← Nat.pow_add]; congr 1; omega
      _ ≤ 2 ^ (53 + n - m.log2) * m := Nat.mul_le_mul_left _ hlow
  have hpos : 0 < 2 ^ 52 <<< n / m := lt_of_lt_of_le (by positivity) hq
  refine ⟨hpos, (Nat.le_log2 hpos.ne').2 hq, ?_⟩
  have := (Nat.log2_lt hpos.ne').2 hq'
  omega

/-- **The double `1/d` of a double `d ≥ 1` is positive**: the quotient neither underflows to zero
nor overflows. -/
lemma toReal_one_div_pos {d : Float} (h1 : 1 ≤ toReal d) : 0 < toReal (1 / d) := by
  obtain ⟨m, e, hm, hu, ⟨hm53, hemin, hnorm⟩, hemax, hlog, -⟩ := unpack_of_one_le h1
  have hlog53 : m.log2 < 53 := (Nat.log2_lt hm.ne').2 hm53
  rw [toReal, unpack_div, hu, unpack_one]
  simp only [UnpackedFloat.div, divCore]
  -- `divCore` takes the exponent of the quotient's last bit, and shifts `2^52` to reach it
  have hte : min (-52 - e) (Format.binary64.targetExponent (totalExponent (2 ^ 52) (-52) -
      totalExponent m e)) = max (-(m.log2 : Int) - e - 53) (-1074) := by
    simp only [Format.targetExponent, totalExponent, Format.mantissaBits, Format.minExponent,
      Nat.log2_two_pow]
    norm_num
    omega
  rw [hte]
  obtain ⟨n, hn⟩ : ∃ n : Nat, (n : Int) = -52 - e - max (-(m.log2 : Int) - e - 53) (-1074) :=
    ⟨_, Int.toNat_of_nonneg (by omega)⟩
  rw [← hn, Int.toNat_natCast]
  obtain ⟨hq, hqlo, hqhi⟩ := log2_quotient (n := n) hm (by omega)
  obtain ⟨r, e', hr, hround, -⟩ :=
    unpack_round_pos (e := max (-(m.log2 : Int) - e - 53) (-1074))
      (accuracyOfFraction (2 ^ 52 <<< n % m) m) hq (by omega) (by omega) (by omega)
  rw [show Sign.positive / Sign.positive = Sign.positive from rfl, hround]
  simp only [unpackedReal, Sign.apply, Int.cast_natCast]
  positivity

lemma unpack_sub (a b : Float) : (a - b).toModel.unpack =
    (Float.Model.pack (UnpackedFloat.sub .binary64 a.toModel.unpack b.toModel.unpack)).unpack :=
  rfl

lemma unpack_of_neg {x : Float} (h : toReal x < 0) :
    ∃ m e hm, x.toModel.unpack = .finite .negative m e hm ∧ Canonical m e ∧ e ≤ 971 ∧
      toReal x = -(m * 2 ^ e) := by
  unfold toReal at h ⊢
  cases hu : x.toModel.unpack with
  | finite s m e hm =>
    rw [hu] at h
    cases s with
    | positive =>
      have : (0 : ℝ) ≤ m * 2 ^ e := by positivity
      simp [unpackedReal, Sign.apply] at h
      linarith
    | negative =>
      exact ⟨m, e, hm, rfl, canonical_of_unpack hu, exponent_le_of_unpack hu,
        by simp [unpackedReal, Sign.apply]⟩
  | _ => rw [hu] at h; simp [unpackedReal] at h

lemma log2_add_lt {m : Nat} {e N : Int} (hm : 0 < m) (h : (m : ℝ) * 2 ^ e < 2 ^ N) :
    m.log2 + e < N := by
  have hle : (2 : ℝ) ^ ((m.log2 : Int) + e) ≤ m * 2 ^ e := by
    rw [zpow_add₀ two_ne_zero, zpow_natCast]
    gcongr
    exact_mod_cast Nat.log2_self_le hm.ne'
  exact (zpow_lt_zpow_iff_right₀ (by norm_num : (1 : ℝ) < 2)).1 (hle.trans_lt h)

lemma log2_shiftLeft {M : Nat} (hM : 0 < M) (c : Nat) : (M <<< c).log2 = M.log2 + c := by
  have hlow : 2 ^ M.log2 ≤ M := Nat.log2_self_le hM.ne'
  have hhigh : M < 2 ^ (M.log2 + 1) := Nat.lt_log2_self
  rw [Nat.log2_eq_iff (by rw [Nat.shiftLeft_eq]; positivity), Nat.shiftLeft_eq, Nat.pow_add,
    show M.log2 + c + 1 = M.log2 + 1 + c by omega, Nat.pow_add]
  exact ⟨Nat.mul_le_mul_right _ hlow, Nat.mul_lt_mul_of_pos_right hhigh (by positivity)⟩

/-- **The double `1 - p` of a negative double `p` is at least `1`**: below the largest exponent the
sum's leading bit is at least `2^0`, and at the largest `1 - p` rounds to `-p`. -/
lemma one_le_toReal_one_sub {p : Float} (hp : toReal p < 0) : 1 ≤ toReal (1 - p) := by
  obtain ⟨m, e, hm, hu, ⟨hm53, hemin, hnorm⟩, hemax, hval⟩ := unpack_of_neg hp
  rw [toReal, unpack_sub, hu, unpack_one]
  simp only [UnpackedFloat.sub, UnpackedFloat.normalize, UnpackedFloat.round, decreaseExponent]
  -- both operands are aligned at the smaller exponent, where their magnitudes add
  have hsum : Sign.positive.apply ↑(2 ^ 52 <<< (-52 - min (-52) e).toNat) -
      Sign.negative.apply ↑(m <<< (e - min (-52) e).toNat) =
      ((2 ^ 52 <<< (-52 - min (-52) e).toNat + m <<< (e - min (-52) e).toNat : Nat) : Int) := by
    simp [Sign.apply]
  generalize hM : 2 ^ 52 <<< (-52 - min (-52) e).toNat + m <<< (e - min (-52) e).toNat = M at hsum
  have hMpos : 0 < M := by
    rw [← hM, Nat.shiftLeft_eq]
    positivity
  rw [hsum, show compare (M : Int) 0 = .gt from compare_gt_iff_gt.2 (by omega)]
  simp only [Int.toNat_natCast]
  -- the aligned sum stands for `1 + m · 2^e`
  have hvalue : (M : ℝ) * 2 ^ min (-52) e = 1 + m * 2 ^ e := by
    rw [← hM, Nat.shiftLeft_eq, Nat.shiftLeft_eq]
    push_cast
    rw [← zpow_natCast, ← zpow_natCast, Int.toNat_of_nonneg (by omega),
      Int.toNat_of_nonneg (by omega), add_mul, mul_assoc, mul_assoc, ← zpow_add₀ two_ne_zero,
      ← zpow_add₀ two_ne_zero, sub_add_cancel, sub_add_cancel]
    norm_num
  have hlo : 0 ≤ (M.log2 : Int) + min (-52) e :=
    le_log2_add (by rw [hvalue]; simp; positivity)
  rw [target_eq]
  rcases lt_or_ge e 971 with hsmall | hbig
  · -- below the largest exponent the sum stays below `2^1023`, and the rounding is bounded
    have hhi : (M.log2 : Int) + min (-52) e ≤ 1022 := by
      have hm' : (m : ℝ) + 1 ≤ 2 ^ 53 := by exact_mod_cast hm53
      have he' : (2 : ℝ) ^ e ≤ 2 ^ (970 : Int) := zpow_le_zpow_right₀ (by norm_num) (by omega)
      have hx : (1 : ℝ) < 2 ^ (970 : Int) := one_lt_zpow₀ (by norm_num) (by norm_num)
      have h1023 : (2 : ℝ) ^ (1023 : Int) = 2 ^ 53 * 2 ^ (970 : Int) := by
        rw [← zpow_natCast, ← zpow_add₀ two_ne_zero]
        norm_num
      have : (M : ℝ) * 2 ^ min (-52) e < 2 ^ (1023 : Int) := by
        rw [hvalue, h1023]
        generalize (2 : ℝ) ^ (970 : Int) = x at he' hx ⊢
        have hprod : (m : ℝ) * 2 ^ e ≤ (2 ^ 53 - 1) * x :=
          mul_le_mul (by linarith) he' (by positivity) (by norm_num)
        linarith
      have := log2_add_lt hMpos this
      omega
    generalize hc : (min (-52) e - max ((M.log2 : Int) + min (-52) e - 52) (-1074)).toNat = c
    have hlog := log2_shiftLeft hMpos c
    obtain ⟨r, e', hr, hround, hbound⟩ := unpack_round_pos (q := M <<< c)
      (e := min (-52) e - c) .exact (by rw [Nat.shiftLeft_eq]; positivity) (by omega) (by omega)
      (by omega)
    rw [hround]
    simp only [unpackedReal, Sign.apply, Int.cast_natCast]
    calc (1 : ℝ) = 2 ^ (0 : Int) := by norm_num
      _ ≤ 2 ^ (((M <<< c).log2 : Int) + (min (-52) e - c)) :=
          zpow_le_zpow_right₀ (by norm_num) (by omega)
      _ ≤ r * 2 ^ e' := hbound
  · -- at the largest exponent the `1` lies below the round bit, and the sum rounds to `-p`
    obtain rfl : e = 971 := by omega
    have hnormal : 2 ^ 52 ≤ m := hnorm.resolve_left (by norm_num)
    rw [show min (-52 : Int) 971 = -52 by norm_num] at hM hvalue hlo ⊢
    have hMeq : M = 2 ^ 52 + m * 2 ^ 1023 := by
      rw [← hM, Nat.shiftLeft_eq, Nat.shiftLeft_eq]
      norm_num
      exact .inl rfl
    -- the sum lies in `[2^1023, 2^1024)` once scaled by `2^-52`
    have hlogM : M.log2 = 1075 := by
      have hm' : (m : ℝ) + 1 ≤ 2 ^ 53 := by exact_mod_cast hm53
      have hn' : (2 : ℝ) ^ 52 ≤ m := by exact_mod_cast hnormal
      have hx : (1 : ℝ) < 2 ^ (971 : Int) := one_lt_zpow₀ (by norm_num) (by norm_num)
      have h1 : (2 : ℝ) ^ (1023 : Int) ≤ M * 2 ^ (-52 : Int) := by
        rw [hvalue, show (1023 : Int) = 52 + 971 by norm_num, zpow_add₀ two_ne_zero]
        generalize (2 : ℝ) ^ (971 : Int) = x at hx ⊢
        have := mul_le_mul_of_nonneg_right hn' (zero_le_one.trans hx.le)
        norm_num at this ⊢
        linarith only [this]
      have h2 : (M : ℝ) * 2 ^ (-52 : Int) < 2 ^ (1024 : Int) := by
        rw [hvalue, show (1024 : Int) = 53 + 971 by norm_num, zpow_add₀ two_ne_zero]
        generalize (2 : ℝ) ^ (971 : Int) = x at hx ⊢
        have := mul_le_mul_of_nonneg_right hm' (zero_le_one.trans hx.le)
        norm_num at this ⊢
        linarith only [this, hx]
      have := le_log2_add h1
      have := log2_add_lt hMpos h2
      omega
    have hc0 : (-52 - max ((M.log2 : Int) + -52 - 52) (-1074)).toNat = 0 := by
      rw [hlogM]
      norm_num
    rw [hc0, Nat.shiftLeft_zero, Int.natCast_zero, sub_zero]
    unfold roundWithAccuracy
    obtain ⟨k, hshift, hk⟩ := shiftToTarget_eq M (-52) .exact
    obtain rfl : k = 1023 := by omega
    rw [hshift, show (-52 : Int) + ((1023 : Nat) : Int) = 971 by norm_num]
    simp only
    -- the shift keeps `m` and drops the `1`, whose bits all lie below the round bit
    have hpow : 2 ^ 52 < 2 ^ 1022 := pow_lt_pow_right₀ one_lt_two (by norm_num)
    have hmant : (ExtendedMantissa.ofMantissaAndAccuracy M .exact >>> 1023).mantissa = m := by
      rw [ExtendedMantissa.mantissa_shiftRight, mantissa_ofMantissaAndAccuracy, hMeq,
        Nat.add_mul_div_right _ _ (by positivity),
        Nat.div_eq_of_lt (hpow.trans (pow_lt_pow_right₀ one_lt_two (by norm_num))), zero_add]
    have hbit : (ExtendedMantissa.ofMantissaAndAccuracy M .exact >>> 1023).roundBit = false := by
      have hMeq' : M = 2 ^ 52 + m * 2 * 2 ^ 1022 := by
        rw [hMeq, show 1023 = 1022 + 1 from rfl, pow_succ 2 1022, Nat.mul_comm (2 ^ 1022) 2,
          ← Nat.mul_assoc]
      rw [show 1023 = 1022 + 1 from rfl, ExtendedMantissa.roundBit_shiftRight,
        mantissa_ofMantissaAndAccuracy, hMeq', Nat.add_mul_div_right _ _ (by positivity),
        Nat.div_eq_of_lt hpow]
      simp
    rw [ExtendedMantissa.roundedMantissa_of_roundBit _ hbit, hmant,
      shiftToTarget_small hm53 (by norm_num)]
    simp only [dif_neg hm.ne']
    rw [unpack_pack_finite _ hm hm53 (by norm_num) (by norm_num) (.inl hnormal)]
    simp only [unpackedReal, Sign.apply, Int.cast_natCast]
    have hn' : (1 : ℝ) ≤ m := by exact_mod_cast hm
    have hx : (1 : ℝ) ≤ 2 ^ (971 : Int) := one_le_zpow₀ (by norm_num) (by norm_num)
    generalize (2 : ℝ) ^ (971 : Int) = x at hx ⊢
    nlinarith only [hn', hx]

end ConicForm.Binary64
