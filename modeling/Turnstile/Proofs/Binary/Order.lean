import Turnstile.Proofs.Binary.Rounding

/-!
# The order of binary numbers

All numbers but the undefined one are in line: whatever is not below a number is at least as large.
A product with a factor of one or more is at least as large as the other factor, if that is
positive.  Rounding does not spoil this, since the other factor is a number that needs no rounding,
and neither does a product that is out of range, since that is infinite.

Counts and their square roots are never negative, and never undefined.  A count below `2 ^ 1000` is
never infinite.

## Main statements

* `le_of_not_lt` and `lt_of_not_le` - defined numbers are in line.
* `le_mul_of_one_le` - a factor of one or more makes no number smaller.
* `isNaN_sqrt_ofNat` - every count has a square root.
* `isInf_ofNat` - counts that are in range.
-/

namespace Turnstile
namespace Binary

open Float.Model Float.Model.UnpackedFloat Float.Model.Format

/-!
## Comparing
-/

theorem le_iff {x y : Float} : x ≤ y ↔ x.toModel.unpack.le y.toModel.unpack = true := by
  show decide (_ = true) = true ↔ _
  exact decide_eq_true_iff

theorem lt_iff {x y : Float} : x < y ↔ x.toModel.unpack.lt y.toModel.unpack = true := by
  show decide (_ = true) = true ↔ _
  exact decide_eq_true_iff

theorem compare_swap (a b : UnpackedFloat) : b.compare a = (a.compare b).map Ordering.swap := by
  cases a with
  | notANumber => cases b <;> rfl
  | infinity s =>
      cases s <;> cases b with
      | infinity s' => cases s' <;> rfl
      | _ => rfl
  | zero s =>
      cases b with
      | infinity s' => cases s' <;> rfl
      | finite s' m' e' h' => cases s' <;> rfl
      | _ => rfl
  | finite s m e h =>
      cases b with
      | finite s' m' e' h' =>
          have hswap : (compare e' e).then (compare m' m) =
              ((compare e e').then (compare m m')).swap := by
            rw [Ordering.swap_then, ← Std.OrientedCmp.eq_swap, ← Std.OrientedCmp.eq_swap]
          cases s <;> cases s'
          · exact congrArg (fun order => some order.swap) hswap
          · rfl
          · rfl
          · exact congrArg some hswap
      | infinity s' => cases s' <;> cases s <;> rfl
      | _ => cases s <;> rfl

theorem compare_ne_none {a b : UnpackedFloat} (ha : a.isNaN = false) (hb : b.isNaN = false) :
    a.compare b ≠ none := by
  cases a with
  | notANumber => cases ha
  | infinity s =>
      cases s <;> cases b with
      | notANumber => cases hb
      | _ => nofun
  | zero s =>
      cases b with
      | notANumber => cases hb
      | infinity s' => cases s' <;> nofun
      | finite s' m' e' h' => cases s' <;> nofun
      | zero s' => nofun
  | finite s m e h =>
      cases b with
      | notANumber => cases hb
      | infinity s' => cases s <;> cases s' <;> nofun
      | finite s' m' e' h' => cases s <;> cases s' <;> nofun
      | zero s' => cases s <;> nofun

theorem exists_compare {x y : Float} (hx : x.isNaN = false) (hy : y.isNaN = false) :
    ∃ order, x.toModel.unpack.compare y.toModel.unpack = some order ∧
      y.toModel.unpack.compare x.toModel.unpack = some order.swap := by
  rcases Option.ne_none_iff_exists'.mp (compare_ne_none hx hy) with ⟨order, horder⟩
  refine ⟨order, horder, ?_⟩
  rw [compare_swap x.toModel.unpack, horder]
  rfl

theorem le_of_not_lt {x y : Float} (hx : x.isNaN = false) (hy : y.isNaN = false) (h : ¬ x < y) :
    y ≤ x := by
  rcases exists_compare hx hy with ⟨order, horder, hswap⟩
  rw [lt_iff, UnpackedFloat.lt, horder] at h
  rw [le_iff, UnpackedFloat.le, hswap]
  cases order with
  | lt => exact absurd rfl h
  | eq => rfl
  | gt => rfl

theorem lt_of_not_le {x y : Float} (hx : x.isNaN = false) (hy : y.isNaN = false) (h : ¬ x ≤ y) :
    y < x := by
  rcases exists_compare hx hy with ⟨order, horder, hswap⟩
  rw [le_iff, UnpackedFloat.le, horder] at h
  rw [lt_iff, UnpackedFloat.lt, hswap]
  cases order with
  | lt => exact absurd rfl h
  | eq => exact absurd rfl h
  | gt => rfl

theorem isNaN_of_lt {x y : Float} (h : x < y) : x.isNaN = false ∧ y.isNaN = false := by
  rw [lt_iff] at h
  constructor
  · show x.toModel.unpack.isNaN = false
    cases hx : x.toModel.unpack with
    | notANumber =>
        rw [hx] at h
        generalize y.toModel.unpack = b at h
        cases b <;> cases h
    | _ => rfl
  · show y.toModel.unpack.isNaN = false
    cases hy : y.toModel.unpack with
    | notANumber =>
        rw [hy] at h
        generalize x.toModel.unpack = a at h
        cases a <;> cases h
    | _ => rfl

theorem finite_le_finite {m m' : Nat} {e e' : Int} {h : 0 < m} {h' : 0 < m'} :
    (UnpackedFloat.finite .positive m e h).le (.finite .positive m' e' h') = true ↔
      e < e' ∨ e = e' ∧ m ≤ m' := by
  show ((compare e e').then (compare m m')).isLE = true ↔ _
  rw [Ordering.isLE_then_iff_or, compare_lt_iff_lt, compare_eq_iff_eq, Nat.isLE_compare]

/-!
## Numbers of known size
-/

theorem toModel_zero : (0 : Float).toModel.unpack = .zero .positive := by rfl

theorem toModel_one : (1 : Float).toModel.unpack = .finite .positive (2 ^ 52) (-52) (by decide) := by
  rfl

theorem pos_cases {x : Float} (hx : 0 < x) :
    x.toModel.unpack = .infinity .positive ∨
      ∃ m e h, x.toModel.unpack = .finite .positive m e h := by
  rw [lt_iff, toModel_zero] at hx
  cases hunpack : x.toModel.unpack with
  | notANumber =>
      rw [hunpack] at hx
      cases hx
  | infinity s =>
      rw [hunpack] at hx
      cases s with
      | negative => cases hx
      | positive => exact Or.inl rfl
  | zero s =>
      rw [hunpack] at hx
      cases hx
  | finite s m e h =>
      rw [hunpack] at hx
      cases s with
      | negative => cases hx
      | positive => exact Or.inr ⟨m, e, h, rfl⟩

theorem pos_of_le {x y : Float} (hx : 0 < x) (h : x ≤ y) : 0 < y := by
  rw [le_iff] at h
  rw [lt_iff, toModel_zero]
  generalize y.toModel.unpack = b at h ⊢
  rcases pos_cases hx with hx | ⟨m, e, hm, hx⟩
  · rw [hx] at h
    cases b with
    | infinity s =>
        cases s with
        | positive => rfl
        | negative => cases h
    | finite s m e hm => cases s <;> cases h
    | _ => cases h
  · rw [hx] at h
    cases b with
    | infinity s =>
        cases s with
        | positive => rfl
        | negative => cases h
    | finite s m' e' hm' =>
        cases s with
        | positive => rfl
        | negative => cases h
    | _ => cases h

theorem ge_one_cases {x : Float} (hx : 1 ≤ x) :
    x.toModel.unpack = .infinity .positive ∨
      ∃ m e h, x.toModel.unpack = .finite .positive m e h ∧ 2 ^ 52 ≤ m ∧ -52 ≤ e := by
  rw [le_iff, toModel_one] at hx
  cases hunpack : x.toModel.unpack with
  | notANumber =>
      rw [hunpack] at hx
      cases hx
  | infinity s =>
      rw [hunpack] at hx
      cases s with
      | negative => cases hx
      | positive => exact Or.inl rfl
  | zero s =>
      rw [hunpack] at hx
      cases hx
  | finite s m e h =>
      rw [hunpack] at hx
      cases s with
      | negative => cases hx
      | positive =>
          have hfull := (canonical_unpack hunpack).1.full
          rw [finite_le_finite] at hx
          exact Or.inr ⟨m, e, h, rfl, by omega, by omega⟩

/-!
## Products
-/

theorem unpack_mul (x y : Float) : (x * y).toModel.unpack =
    (Float.Model.pack (UnpackedFloat.mul binary64 x.toModel.unpack y.toModel.unpack)).unpack :=
  rfl

theorem isNaN_mul {x y : Float} (h : x.isNaN = true) : (x * y).isNaN = true := by
  have hx : x.toModel.unpack.isNaN = true := h
  have hproduct : ∀ b, UnpackedFloat.mul binary64 .notANumber b = .notANumber := by
    intro b
    cases b <;> rfl
  show (x * y).toModel.unpack.isNaN = true
  rw [unpack_mul]
  cases hunpack : x.toModel.unpack with
  | notANumber =>
      rw [hproduct]
      rfl
  | _ =>
      rw [hunpack] at hx
      cases hx

/-- The exponent to which a product is rounded, and the quotient if it is that of the first
factor. -/
theorem product_target {m₁ m₂ : Nat} {e₁ e₂ t : Int} (h₁ : Canonical m₁ e₁) (hm₁ : 0 < m₁)
    (hm₂ : 2 ^ 52 ≤ m₂) (he₂ : -52 ≤ e₂)
    (ht : binary64.targetExponent (totalExponent (m₁ * m₂) (e₁ + e₂)) = t) :
    e₁ + e₂ ≤ t ∧ e₁ ≤ t ∧ (t = e₁ → m₁ ≤ m₁ * m₂ / 2 ^ (t - (e₁ + e₂)).toNat) := by
  have hpos : m₁ * m₂ ≠ 0 := Nat.mul_ne_zero hm₁.ne' (by omega)
  have hlog : m₁.log2 + 52 ≤ (m₁ * m₂).log2 := by
    rw [Nat.le_log2 hpos, Nat.pow_add]
    exact Nat.mul_le_mul (Nat.log2_self_le hm₁.ne') hm₂
  have hfull : e₁ = -1074 ∨ 52 ≤ m₁.log2 := h₁.full.imp_right (Nat.le_log2 hm₁.ne').mpr
  have hleast := h₁.least
  rw [targetExponent_eq] at ht
  refine ⟨by omega, by omega, ?_⟩
  intro hsame
  rw [Nat.le_div_iff_mul_le (Nat.two_pow_pos _)]
  apply Nat.mul_le_mul_left
  exact le_trans (Nat.pow_le_pow_right (by decide) (by omega)) hm₂

/-- A number is at most what comes of rounding something to its own exponent or a larger one, if it
is at most the quotient there. -/
theorem le_of_rounds {m least : Nat} {e t : Int} {f : UnpackedFloat} {hm : 0 < m}
    (h : Rounds .positive least t f) (hcanonical : Canonical m e) (ht : e ≤ t)
    (hleast : t = e → m ≤ least) :
    (UnpackedFloat.finite .positive m e hm).le (Float.Model.pack f).unpack = true := by
  have he := hcanonical.least
  cases h with
  | vanishes none lowest =>
      have hzero := hleast (by omega)
      omega
  | @here m' pos above canonical =>
      by_cases hlarge : t ≤ 971
      · rw [unpack_pack_of_canonical canonical hlarge, finite_le_finite]
        by_cases hsame : t = e
        · have hquotient := hleast hsame
          omega
        · omega
      · rw [unpack_pack_of_large (by omega)]
        rfl
  | next =>
      by_cases hlarge : t + 1 ≤ 971
      · rw [unpack_pack_of_canonical (canonical_next (by omega)) hlarge, finite_le_finite]
        omega
      · rw [unpack_pack_of_large (by omega)]
        rfl

theorem le_mul_of_one_le {x y : Float} (hx : 0 < x) (hy : 1 ≤ y) : x ≤ x * y := by
  have hinfinite : ∀ a : UnpackedFloat, a.le (.infinity .positive) = true →
      a.le (Float.Model.pack (.infinity .positive)).unpack = true := by
    intro a ha
    rw [show (Float.Model.pack (.infinity .positive)).unpack = .infinity .positive from
      unpack_infinity .positive]
    exact ha
  rw [le_iff, unpack_mul]
  rcases pos_cases hx with hx | ⟨m₁, e₁, hm₁, hx⟩
  · rw [hx]
    rcases ge_one_cases hy with hy | ⟨m₂, e₂, hm₂, hy, _, _⟩
    · rw [hy]
      exact hinfinite _ rfl
    · rw [hy]
      exact hinfinite _ rfl
  · rw [hx]
    rcases ge_one_cases hy with hy | ⟨m₂, e₂, hm₂, hy, hfull, hone⟩
    · rw [hy]
      exact hinfinite _ rfl
    · rw [hy]
      -- The product is rounded to the exponent of the first factor, or to a larger one.
      have hcanonical := (canonical_unpack hx).1
      rcases product_target hcanonical hm₁ hfull hone rfl with ⟨hshift, habove, hleast⟩
      exact le_of_rounds (rounds (Nat.mul_pos hm₁ hm₂) rfl hshift) hcanonical habove hleast

/-!
## Numbers that are not negative
-/

/-- A number that is defined and bears no sign. -/
def Unsigned : UnpackedFloat → Prop
  | .notANumber => False
  | .infinity s | .zero s | .finite s _ _ _ => s = .positive

theorem Unsigned.isNaN {a : UnpackedFloat} (ha : Unsigned a) : a.isNaN = false := by
  cases a with
  | notANumber => exact ha.elim
  | infinity s => rfl
  | zero s => rfl
  | finite s m e h => rfl

theorem unsigned_roundWithAccuracy (m : Nat) (e : Int) (accuracy : Accuracy) :
    Unsigned (roundWithAccuracy binary64 .positive m e accuracy) := by
  unfold roundWithAccuracy
  dsimp only
  split
  · rfl
  · rfl

theorem Unsigned.mul_finite {a : UnpackedFloat} (ha : Unsigned a) {m : Nat} {e : Int}
    (hm : 0 < m) : Unsigned (UnpackedFloat.mul binary64 a (.finite .positive m e hm)) := by
  cases a with
  | notANumber => exact ha
  | infinity s =>
      cases ha
      rfl
  | zero s =>
      cases ha
      rfl
  | finite s m' e' h' =>
      cases ha
      exact unsigned_roundWithAccuracy _ _ _

theorem Unsigned.sqrt {a : UnpackedFloat} (ha : Unsigned a) :
    Unsigned (UnpackedFloat.sqrt binary64 a) := by
  cases a with
  | notANumber => exact ha
  | infinity s =>
      cases ha
      rfl
  | zero s => exact ha
  | finite s m e h =>
      cases ha
      exact unsigned_roundWithAccuracy _ _ _

theorem unsigned_unpack_packComponents {exponent : BitVec 11} (mantissa : BitVec 52)
    (h : exponent ≠ -1#_) :
    Unsigned (UnpackedFloat.unpack binary64
      (packComponents binary64 .positive exponent mantissa)) := by
  unfold UnpackedFloat.unpack
  simp only [unpackMantissa_packComponents, unpackExponent_packComponents,
    unpackSign_packComponents, Sign.ofBitVec_toBitVec]
  rw [if_neg h]
  split
  · split
    · rfl
    · rfl
  · rfl

theorem Unsigned.unpack_pack {a : UnpackedFloat} (ha : Unsigned a) :
    Unsigned (Float.Model.pack a).unpack := by
  show Unsigned (UnpackedFloat.unpack binary64 (UnpackedFloat.pack binary64 a))
  cases a with
  | notANumber => exact ha.elim
  | infinity s =>
      cases ha
      exact (congrArg Unsigned (unpack_infinity .positive)).mpr rfl
  | zero s =>
      cases ha
      exact (congrArg Unsigned unpack_packedZero).mpr rfl
  | finite s m e h =>
      cases ha
      unfold UnpackedFloat.pack
      dsimp only
      rw [biased_exponent]
      split
      · exact (congrArg Unsigned (unpack_infinity .positive)).mpr rfl
      · rename_i hexponent
        split
        · apply unsigned_unpack_packComponents
          intro heq
          have hall : (-1#11).toNat = 2047 := by decide
          have hnat := congrArg BitVec.toNat heq
          rw [hall, BitVec.toNat_ofNat, Nat.mod_eq_of_lt (by omega)] at hnat
          omega
        · exact unsigned_unpack_packComponents _ (by decide)

/-!
## Counts
-/

theorem ofNat_of_pos {n : Nat} (hn : 0 < n) :
    UnpackedFloat.ofNat binary64 n = UnpackedFloat.round binary64 .positive n 0 := by
  unfold UnpackedFloat.ofNat UnpackedFloat.ofInt UnpackedFloat.normalize
  rw [compare_gt_iff_gt.mpr (by omega)]
  rfl

theorem unsigned_ofNat (n : Nat) : Unsigned (UnpackedFloat.ofNat binary64 n) := by
  rcases Nat.eq_zero_or_pos n with rfl | hn
  · rfl
  · rw [ofNat_of_pos hn]
    exact unsigned_roundWithAccuracy _ _ _

theorem toModel_ofNat_of_lt {n : Nat} (h : n < 2 ^ 53) :
    (Float.ofNat n).toModel.unpack = (Float.Model.pack (UnpackedFloat.mul binary64
      (Float.Model.pack (UnpackedFloat.ofNat binary64 n)).unpack
      (.finite .positive (2 ^ 52) (-52) (by decide)))).unpack := by
  have htoNat : n.toUInt64.toNat = n := by
    simp only [UInt64.toNat_ofNat']
    omega
  show (Float.ofScientific n false 0).toModel.unpack = _
  unfold Float.ofScientific
  rw [dif_pos ⟨h, by decide⟩]
  show (n.toUInt64.toFloat * Float.ofBits 0x3FF0000000000000).toModel.unpack = _
  rw [unpack_mul]
  show (Float.Model.pack (UnpackedFloat.mul binary64
    (Float.Model.pack (UnpackedFloat.ofNat binary64 n.toUInt64.toNat)).unpack _)).unpack = _
  rw [htoNat]
  rfl

theorem toModel_ofNat_of_le {n : Nat} (h : 2 ^ 53 ≤ n) :
    (Float.ofNat n).toModel.unpack = (Float.Model.pack
      (roundWithAccuracy binary64 .positive (n * 2 ^ 53) (-53) .exact)).unpack := by
  have hexact : roundWithAccuracy binary64 .positive (n <<< 53 * 10 ^ 0) (-53 + 0) .exact =
      roundWithAccuracy binary64 .positive (n * 2 ^ 53) (-53) .exact := by
    rw [Nat.shiftLeft_eq, Nat.pow_zero, Nat.mul_one, Int.add_zero]
  show (Float.ofScientific n false 0).toModel.unpack = _
  unfold Float.ofScientific
  rw [dif_neg fun h' => h.not_gt h'.1, ← hexact]
  show (Float.Model.pack (UnpackedFloat.ofScientific binary64 n 0)).unpack = _
  unfold UnpackedFloat.ofScientific
  rw [dif_neg (by omega), if_neg (by decide), if_neg (by simp only; omega), if_pos le_rfl]
  rfl

theorem unsigned_toModel_ofNat (n : Nat) : Unsigned (Float.ofNat n).toModel.unpack := by
  rcases Nat.lt_or_ge n (2 ^ 53) with h | h
  · rw [toModel_ofNat_of_lt h]
    exact ((unsigned_ofNat n).unpack_pack.mul_finite _).unpack_pack
  · rw [toModel_ofNat_of_le h]
    exact (unsigned_roundWithAccuracy _ _ _).unpack_pack

theorem isNaN_sqrt_ofNat (n : Nat) : (Float.ofNat n).sqrt.isNaN = false := by
  show (Float.Model.pack (UnpackedFloat.sqrt binary64 (Float.ofNat n).toModel.unpack)).unpack.isNaN =
    false
  exact (unsigned_toModel_ofNat n).sqrt.unpack_pack.isNaN

theorem log2_lt_of_lt {m k : Nat} (hk : 0 < k) (h : m < 2 ^ k) : m.log2 < k := by
  rcases Nat.eq_zero_or_pos m with rfl | hm
  · exact hk
  · exact (Nat.log2_lt hm.ne').mpr h

theorem rounds_ofNat {n : Nat} (hn : 0 < n) (h : n < 2 ^ 53) :
    ∃ t least, -1074 ≤ t ∧ t ≤ 0 ∧ Rounds .positive least t (UnpackedFloat.ofNat binary64 n) := by
  have hlog : n.log2 < 53 := log2_lt_of_lt (by decide) h
  have htarget := targetExponent_eq n 0
  rw [ofNat_of_pos hn]
  unfold UnpackedFloat.round decreaseExponent
  dsimp only
  generalize binary64.targetExponent (totalExponent n 0) = t at *
  have hshift : (0 : Int) - ((0 - t).toNat : Int) = t := by omega
  rw [hshift, Nat.shiftLeft_eq]
  generalize hk : (0 - t).toNat = k
  have hpos : 0 < n * 2 ^ k := Nat.mul_pos hn (Nat.two_pow_pos k)
  have hlow : n.log2 + k ≤ (n * 2 ^ k).log2 := by
    rw [Nat.le_log2 hpos.ne', Nat.pow_add]
    exact Nat.mul_le_mul_right _ (Nat.log2_self_le hn.ne')
  have hhigh : (n * 2 ^ k).log2 < 53 + k := by
    apply log2_lt_of_lt (by omega)
    rw [Nat.pow_add]
    exact Nat.mul_lt_mul_of_pos_right h (Nat.two_pow_pos k)
  have hagain := targetExponent_eq (n * 2 ^ k) t
  exact ⟨_, _, by omega, by omega, rounds hpos rfl (by omega)⟩

theorem isInf_mul_one {m : Nat} {e : Int} (h : Canonical m e) (hm : 0 < m) (he : e ≤ 970) :
    (Float.Model.pack (UnpackedFloat.mul binary64 (.finite .positive m e hm)
      (.finite .positive (2 ^ 52) (-52) (by decide)))).unpack.isInf = false := by
  have hproduct : e + -52 ≤ binary64.targetExponent (totalExponent (m * 2 ^ 52) (e + -52)) ∧ _ :=
    product_target h hm le_rfl le_rfl rfl
  have hlog : (m * 2 ^ 52).log2 < 53 + 52 := by
    apply log2_lt_of_lt (by decide)
    rw [Nat.pow_add]
    exact Nat.mul_lt_mul_of_pos_right h.bits (by decide)
  have htarget := targetExponent_eq (m * 2 ^ 52) (e + -52)
  exact isInf_round (Nat.mul_pos hm (by decide)) hproduct.1 (by omega)

theorem isInf_ofNat {n k : Nat} (hk : k ≤ 1000) (h : n < 2 ^ k) : (Float.ofNat n).isInf = false := by
  show (Float.ofNat n).toModel.unpack.isInf = false
  rcases Nat.lt_or_ge n (2 ^ 53) with hsmall | hlarge
  · rw [toModel_ofNat_of_lt hsmall]
    rcases Nat.eq_zero_or_pos n with rfl | hn
    · rfl
    · rcases rounds_ofNat hn hsmall with ⟨t, least, hleast, ht, hrounds⟩
      rw [unpack_pack_of_rounds hrounds hleast (by omega)]
      generalize UnpackedFloat.ofNat binary64 n = f at hrounds
      cases hrounds with
      | vanishes none lowest => exact congrArg _ unpack_packedZero
      | here pos above canonical => exact isInf_mul_one canonical pos (by omega)
      | next => exact isInf_mul_one (canonical_next (by omega)) (by decide) (by omega)
  · have hhigh : (n * 2 ^ 53).log2 < k + 53 := by
      apply log2_lt_of_lt (by omega)
      rw [Nat.pow_add]
      exact Nat.mul_lt_mul_of_pos_right h (by decide)
    have hlow : 53 ≤ (n * 2 ^ 53).log2 := by
      rw [Nat.le_log2 (by omega)]
      omega
    have htarget := targetExponent_eq (n * 2 ^ 53) (-53)
    rw [toModel_ofNat_of_le hlarge]
    exact isInf_round (by omega) (by omega) (by omega)

end Binary
end Turnstile
