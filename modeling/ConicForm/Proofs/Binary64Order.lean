import Mathlib
import ConicForm.Binary64
/-!
The real number a double stands for, and the order of doubles.

A finite double unpacks to `±m · 2^e` with `m < 2^53` and `e ≥ -1074`, and `m ≥ 2^52` unless
`e = -1074` (`canonical_of_unpack`). A larger exponent therefore means a larger magnitude, so the
comparison of doubles, which orders by exponent and then by significand, is the order of the
reals they stand for (`lt_iff_toReal_lt`).
-/

namespace ConicForm.Binary64

open Float.Model UnpackedFloat

/-- The real number of an unpacked double: `±m · 2^e`, and zero for both zeros. Infinities and
NaN stand for no real number and read as zero. -/
noncomputable def unpackedReal : UnpackedFloat → ℝ
  | .finite s m e _ => (s.apply m : ℝ) * 2 ^ e
  | _ => 0

noncomputable def toReal (x : Float) : ℝ := unpackedReal x.toModel.unpack

/-- The significand and exponent of a finite double: 53 bits at most, the exponent at least the
subnormal one, and the leading bit set unless the exponent is the subnormal one. -/
def Canonical (m : Nat) (e : Int) : Prop := m < 2 ^ 53 ∧ -1074 ≤ e ∧ (e = -1074 ∨ 2 ^ 52 ≤ m)

lemma canonical_of_unpack {x : Float.Model} {s : Sign} {m : Nat} {e : Int} {hm : 0 < m}
    (hu : x.unpack = .finite s m e hm) : Canonical m e := by
  unfold Float.Model.unpack UnpackedFloat.unpack at hu
  simp only at hu
  split_ifs at hu with hinf hnan hsub hzero
  · -- subnormal: the exponent field is zero
    cases hu
    have hfield := congrArg BitVec.toNat hsub
    simp [Canonical, unpackMantissa, unpackExponent, Format.exponentBias,
      Nat.shiftRight_eq_div_pow] at hfield ⊢
    omega
  · -- normal: the hidden bit stands above the 52 stored ones
    cases hu
    have hfield := fun h => hsub (BitVec.eq_of_toNat_eq h)
    rw [Canonical, BitVec.toNat_append,
      ← Nat.shiftLeft_add_eq_or_of_lt (by simp [unpackMantissa]; omega)]
    simp [unpackMantissa, unpackExponent, Format.exponentBias, Nat.shiftRight_eq_div_pow]
      at hfield ⊢
    omega

lemma scaled_lt_of_exponent_lt {m₁ m₂ : Nat} {e₁ e₂ : Int} (h₁ : Canonical m₁ e₁)
    (h₂ : Canonical m₂ e₂) (he : e₁ < e₂) : (m₁ : ℝ) * 2 ^ e₁ < m₂ * 2 ^ e₂ := by
  obtain ⟨hm₁, he₁, -⟩ := h₁
  have hm₂ : 2 ^ 52 ≤ m₂ := h₂.2.2.resolve_left (by omega)
  calc (m₁ : ℝ) * 2 ^ e₁ < 2 ^ 53 * 2 ^ e₁ := by gcongr; exact_mod_cast hm₁
    _ = 2 ^ 52 * 2 ^ (e₁ + 1) := by rw [zpow_add_one₀ two_ne_zero]; ring
    _ ≤ 2 ^ 52 * 2 ^ e₂ := by gcongr; norm_num; omega
    _ ≤ m₂ * 2 ^ e₂ := by gcongr; exact_mod_cast hm₂

lemma lex_lt_iff {m₁ m₂ : Nat} {e₁ e₂ : Int} (h₁ : Canonical m₁ e₁) (h₂ : Canonical m₂ e₂) :
    (compare e₁ e₂).then (compare m₁ m₂) = .lt ↔ (m₁ : ℝ) * 2 ^ e₁ < m₂ * 2 ^ e₂ := by
  rcases lt_trichotomy e₁ e₂ with he | rfl | he
  · simp [compare_lt_iff_lt.2 he, scaled_lt_of_exponent_lt h₁ h₂ he]
  · have : (0 : ℝ) < 2 ^ e₁ := by positivity
    simp [compare_lt_iff_lt, this]
  · simp [compare_gt_iff_gt.2 he, (scaled_lt_of_exponent_lt h₂ h₁ he).le]

lemma lex_gt_iff {m₁ m₂ : Nat} {e₁ e₂ : Int} (h₁ : Canonical m₁ e₁) (h₂ : Canonical m₂ e₂) :
    (compare e₁ e₂).then (compare m₁ m₂) = .gt ↔ (m₂ : ℝ) * 2 ^ e₂ < m₁ * 2 ^ e₁ := by
  rcases lt_trichotomy e₁ e₂ with he | rfl | he
  · simp [compare_lt_iff_lt.2 he, (scaled_lt_of_exponent_lt h₁ h₂ he).le]
  · have : (0 : ℝ) < 2 ^ e₁ := by positivity
    simp [compare_gt_iff_gt, this]
  · simp [compare_gt_iff_gt.2 he, scaled_lt_of_exponent_lt h₂ h₁ he]

lemma lt_iff_compare {a b : Float} :
    a < b ↔ a.toModel.unpack.compare b.toModel.unpack = some .lt := by
  show a.lt b = true ↔ _
  simp [Float.lt, Float.Model.lt, UnpackedFloat.lt, LT.lt, Float.Model.unpack]

/-- The comparison of finite doubles is the order of the reals they stand for. -/
theorem lt_iff_toReal_lt {a b : Float} (ha : a.isFinite = true) (hb : b.isFinite = true) :
    a < b ↔ toReal a < toReal b := by
  rw [lt_iff_compare, toReal, toReal]
  simp only [Float.isFinite, Float.Model.isFinite] at ha hb
  -- signed zeros are equal; a finite double has the sign of its real number
  cases hua : a.toModel.unpack with
  | infinity => simp [hua, UnpackedFloat.isFinite] at ha
  | notANumber => simp [hua, UnpackedFloat.isFinite] at ha
  | zero s₁ =>
    cases hub : b.toModel.unpack with
    | infinity => simp [hub, UnpackedFloat.isFinite] at hb
    | notANumber => simp [hub, UnpackedFloat.isFinite] at hb
    | zero s₂ => cases s₁ <;> cases s₂ <;> simp [UnpackedFloat.compare, unpackedReal]
    | finite s₂ m₂ e₂ h₂ =>
      have : (0 : ℝ) < m₂ * 2 ^ e₂ := by positivity
      cases s₁ <;> cases s₂ <;> simp [UnpackedFloat.compare, unpackedReal, Sign.apply, this, this.le]
  | finite s₁ m₁ e₁ h₁ =>
    cases hub : b.toModel.unpack with
    | infinity => simp [hub, UnpackedFloat.isFinite] at hb
    | notANumber => simp [hub, UnpackedFloat.isFinite] at hb
    | zero s₂ =>
      have : (0 : ℝ) < m₁ * 2 ^ e₁ := by positivity
      cases s₁ <;> cases s₂ <;> simp [UnpackedFloat.compare, unpackedReal, Sign.apply, this, this.le]
    | finite s₂ m₂ e₂ h₂ =>
      have c₁ := canonical_of_unpack hua
      have c₂ := canonical_of_unpack hub
      have p₁ : (0 : ℝ) < m₁ * 2 ^ e₁ := by positivity
      have p₂ : (0 : ℝ) < m₂ * 2 ^ e₂ := by positivity
      cases s₁ <;> cases s₂ <;> simp [UnpackedFloat.compare, unpackedReal, Sign.apply]
      · exact lex_gt_iff c₁ c₂
      · linarith
      · linarith
      · exact lex_lt_iff c₁ c₂

lemma isFinite_of_toReal_ne_zero {x : Float} (h : toReal x ≠ 0) : x.isFinite = true := by
  simp only [Float.isFinite, Float.Model.isFinite]
  unfold toReal at h
  cases hu : x.toModel.unpack <;> simp_all [unpackedReal, UnpackedFloat.isFinite]

@[simp] lemma toReal_zero : toReal 0 = 0 := by
  rw [toReal, show (0 : Float).toModel.unpack = .zero .positive from rfl]
  rfl

@[simp] lemma toReal_one : toReal 1 = 1 := by
  rw [toReal, show (1 : Float).toModel.unpack = .finite .positive (2 ^ 52) (-52) (by decide)
    from rfl, unpackedReal]
  norm_num [Sign.apply]

@[simp] lemma toReal_two : toReal 2 = 2 := by
  rw [toReal, show (2 : Float).toModel.unpack = .finite .positive (2 ^ 52) (-51) (by decide)
    from rfl, unpackedReal]
  norm_num [Sign.apply]

lemma isFinite_zero : (0 : Float).isFinite = true := rfl

lemma isFinite_one : (1 : Float).isFinite = true := rfl

end ConicForm.Binary64
