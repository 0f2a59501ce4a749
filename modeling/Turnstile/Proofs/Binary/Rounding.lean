import Mathlib
import Turnstile.Number.Binary

/-!
# Packing and rounding of binary numbers

A binary number is stored as a sign, eleven bits of exponent and fifty-two bits of mantissa.  An
operation unpacks its arguments, computes an exact result, rounds that, and packs what comes of it.
To reason about the numbers that a program computes, one has to know that packing loses nothing that
rounding leaves.

Rounding shifts a mantissa until it has at most fifty-three bits, and then rounds the bits that were
shifted out.  That can make the mantissa one bit longer, but only by making it a power of two, so
that a second shift is exact.

## Main definitions

* `Canonical` - a mantissa and an exponent that can be stored, if the exponent is not too large.
* `Rounds` - what can come of rounding.

## Main statements

* `canonical_unpack` and `unpack_pack_of_canonical` - the finite numbers that are stored.
* `rounds` - rounding gives a number between a quotient and the next one.
* `unpack_pack_of_rounds` - what was rounded is not changed by packing, if it is in range.
-/

namespace Turnstile
namespace Binary

open Float.Model Float.Model.UnpackedFloat Float.Model.Format

/-!
## Packing
-/

theorem toNat_append_one (mantissa : BitVec 52) :
    (1#1 ++ mantissa).toNat = 2 ^ 52 + mantissa.toNat := by
  rw [BitVec.toNat_append, ← Nat.shiftLeft_add_eq_or_of_lt mantissa.isLt]
  simp [Nat.shiftLeft_eq]

theorem finite_congr {s : Sign} {m m' : Nat} {e e' : Int} {h : 0 < m} {h' : 0 < m'}
    (hm : m = m') (he : e = e') : UnpackedFloat.finite s m e h = .finite s m' e' h' := by
  subst hm he
  rfl

theorem unpack_infinity (s : Sign) :
    UnpackedFloat.unpack binary64 (packedInfinity binary64 s) = .infinity s := by
  unfold UnpackedFloat.unpack packedInfinity
  simp only [unpackMantissa_packComponents, unpackExponent_packComponents,
    unpackSign_packComponents, Sign.ofBitVec_toBitVec]
  rfl

theorem unpack_subnormal (s : Sign) {m : Nat} (hm : 0 < m) (hbits : m < 2 ^ 52) :
    UnpackedFloat.unpack binary64 (packComponents binary64 s 0#_ (BitVec.ofNat _ m)) =
      .finite s m (-1074) hm := by
  have htoNat : (BitVec.ofNat 52 m).toNat = m := by
    rw [BitVec.toNat_ofNat, Nat.mod_eq_of_lt hbits]
  have hne : BitVec.ofNat 52 m ≠ 0#_ := by
    intro heq
    rw [heq, BitVec.toNat_ofNat, Nat.zero_mod] at htoNat
    omega
  unfold UnpackedFloat.unpack
  simp only [unpackMantissa_packComponents, unpackExponent_packComponents,
    unpackSign_packComponents, Sign.ofBitVec_toBitVec]
  rw [if_neg (by decide), if_pos trivial, dif_neg hne]
  exact finite_congr htoNat rfl

theorem unpack_normal (s : Sign) {m k : Nat} (hm : 0 < m) (hfull : 2 ^ 52 ≤ m) (hbits : m < 2 ^ 53)
    (hk : 1 ≤ k) (hk' : k ≤ 2046) :
    UnpackedFloat.unpack binary64 (packComponents binary64 s (BitVec.ofNat _ k) (BitVec.ofNat _ m)) =
      .finite s m (k - 1075) hm := by
  have hexponent : (BitVec.ofNat 11 k).toNat = k := by
    rw [BitVec.toNat_ofNat, Nat.mod_eq_of_lt (by omega)]
  have hmantissa : (BitVec.ofNat 52 m).toNat = m - 2 ^ 52 := by
    rw [BitVec.toNat_ofNat]
    omega
  have hnormal : BitVec.ofNat 11 k ≠ 0#_ := by
    intro heq
    rw [heq, BitVec.toNat_ofNat, Nat.zero_mod] at hexponent
    omega
  have hfinite : BitVec.ofNat 11 k ≠ -1#_ := by
    intro heq
    have hall : (-1#11).toNat = 2047 := by decide
    rw [heq, hall] at hexponent
    omega
  unfold UnpackedFloat.unpack
  simp only [unpackMantissa_packComponents, unpackExponent_packComponents,
    unpackSign_packComponents, Sign.ofBitVec_toBitVec]
  rw [if_neg hfinite, if_neg hnormal]
  apply finite_congr
  · rw [toNat_append_one, hmantissa]
    omega
  · rw [hexponent]
    rfl

/-- A mantissa and an exponent that can be stored, if the exponent is not too large.  Only at the
least exponent can the mantissa be short. -/
structure Canonical (m : Nat) (e : Int) : Prop where
  bits : m < 2 ^ 53
  least : -1074 ≤ e
  full : e = -1074 ∨ 2 ^ 52 ≤ m

theorem canonical_unpack {x : Float.Model} {s : Sign} {m : Nat} {e : Int} {h : 0 < m}
    (hx : x.unpack = .finite s m e h) : Canonical m e ∧ e ≤ 971 := by
  unfold Float.Model.unpack UnpackedFloat.unpack at hx
  dsimp only at hx
  have hmantissa := (@unpackMantissa binary64 x.toBits.toBitVec).isLt
  have hexponent := (@unpackExponent binary64 x.toBits.toBitVec).isLt
  simp only at hmantissa hexponent
  split at hx
  · split at hx <;> cases hx
  · rename_i hfinite
    split at hx
    · rename_i hzero
      split at hx
      · cases hx
      · cases hx
        rw [hzero]
        exact ⟨⟨by omega, by decide, Or.inl (by decide)⟩, by decide⟩
    · rename_i hnormal
      cases hx
      generalize @unpackExponent binary64 x.toBits.toBitVec = exponent at *
      generalize @unpackMantissa binary64 x.toBits.toBitVec = mantissa at *
      have hpos : exponent.toNat ≠ 0 := fun h => hnormal (BitVec.eq_of_toNat_eq (by simpa using h))
      have hlarge : exponent.toNat ≠ 2047 := fun h =>
        hfinite (BitVec.eq_of_toNat_eq (by simpa using h))
      have hbias : (binary64.exponentBias : Int) = 1023 := by rfl
      rw [toNat_append_one, hbias]
      exact ⟨⟨by omega, by omega, by omega⟩, by omega⟩

theorem log2_add_one_eq {m : Nat} : m.log2 + 1 = 53 ↔ 2 ^ 52 ≤ m ∧ m < 2 ^ 53 := by
  constructor
  · intro h
    have hlog : m.log2 = 52 := by omega
    have hm : m ≠ 0 := by
      rintro rfl
      rw [Nat.log2_zero] at hlog
      omega
    exact (Nat.log2_eq_iff hm).mp hlog
  · rintro ⟨hlow, hhigh⟩
    have hm : m ≠ 0 := by omega
    rw [(Nat.log2_eq_iff hm).mpr ⟨hlow, hhigh⟩]

theorem biased_exponent (e : Int) :
    (e + binary64.exponentBias + binary64.mantissaBitsWithoutImplicit).toNat = (e + 1075).toNat := by
  rw [show (binary64.exponentBias : Int) = 1023 from rfl]
  simp only
  omega

theorem unpack_pack_of_canonical {m : Nat} {e : Int} (h : Canonical m e) (he : e ≤ 971) (s : Sign)
    (hm : 0 < m) : (Float.Model.pack (.finite s m e hm)).unpack = .finite s m e hm := by
  show UnpackedFloat.unpack binary64 (UnpackedFloat.pack binary64 (.finite s m e hm)) = _
  unfold UnpackedFloat.pack
  dsimp only
  have hleast := h.least
  have hfull := h.full
  rw [biased_exponent, if_neg (by omega)]
  split
  · rename_i hlog
    rcases log2_add_one_eq.mp hlog with ⟨hlow, hhigh⟩
    rw [unpack_normal s hm hlow hhigh (by omega) (by omega)]
    exact finite_congr rfl (by omega)
  · rename_i hlog
    have hlow : m < 2 ^ 52 := by
      by_contra hlow
      exact hlog (log2_add_one_eq.mpr ⟨not_lt.mp hlow, h.bits⟩)
    rw [unpack_subnormal s hm hlow]
    exact finite_congr rfl (by omega)

theorem unpack_pack_of_large {m : Nat} {e : Int} (he : 971 < e) (s : Sign) (hm : 0 < m) :
    (Float.Model.pack (.finite s m e hm)).unpack = .infinity s := by
  show UnpackedFloat.unpack binary64 (UnpackedFloat.pack binary64 (.finite s m e hm)) = _
  unfold UnpackedFloat.pack
  dsimp only
  rw [biased_exponent, if_pos (by omega)]
  exact unpack_infinity s

/-!
## Rounding
-/

theorem mantissa_shiftRight (em : ExtendedMantissa) (n : Nat) :
    (em >>> n).mantissa = em.mantissa / 2 ^ n := by
  show (n.repeat ExtendedMantissa.shiftRightOne em).mantissa = _
  induction n with
  | zero => exact (Nat.div_one _).symm
  | succ n ih =>
      show (n.repeat ExtendedMantissa.shiftRightOne em).mantissa / 2 = _
      rw [ih, Nat.div_div_eq_div_mul, ← Nat.pow_succ]

theorem mantissa_ofMantissaAndAccuracy (m : Nat) (accuracy : Accuracy) :
    (ExtendedMantissa.ofMantissaAndAccuracy m accuracy).mantissa = m := by
  rcases accuracy with _ | (_ | _ | _) <;> rfl

theorem roundedMantissa_bounds (em : ExtendedMantissa) :
    em.mantissa ≤ em.roundedMantissa ∧ em.roundedMantissa ≤ em.mantissa + 1 := by
  rcases em with ⟨m, _ | _, _ | _⟩ <;>
    simp only [ExtendedMantissa.roundedMantissa, ExtendedMantissa.accuracy,
      Accuracy.roundToNearestEven] <;> omega

theorem targetExponent_eq (m : Nat) (e : Int) :
    binary64.targetExponent (totalExponent m e) = max (m.log2 + 1 + e - 53) (-1074) :=
  rfl

theorem shiftToExponent_eq {m : Nat} {e t : Int} (accuracy : Accuracy) (he : e ≤ t) :
    (shiftToExponent m e accuracy t).1.mantissa = m / 2 ^ (t - e).toNat ∧
      (shiftToExponent m e accuracy t).2 = t := by
  unfold shiftToExponent
  dsimp only
  rw [mantissa_shiftRight, mantissa_ofMantissaAndAccuracy]
  exact ⟨rfl, by omega⟩

theorem shiftToTargetExponent_of_fits {m : Nat} {e : Int} (hm : m < 2 ^ 53) (he : -1074 ≤ e) :
    shiftToTargetExponent binary64 m e .exact = (⟨m, false, false⟩, e) := by
  have hlog : m.log2 ≤ 52 := by
    by_cases hzero : m = 0
    · rw [hzero]
      decide
    · exact Nat.le_of_lt_succ ((Nat.log2_lt hzero).mpr hm)
  have htarget := targetExponent_eq m e
  have hshift : (binary64.targetExponent (totalExponent m e) - e).toNat = 0 := by omega
  unfold shiftToTargetExponent shiftToExponent
  dsimp only
  rw [hshift]
  exact Prod.ext rfl (Int.add_zero e)

theorem shiftToTargetExponent_of_carry {e : Int} (he : -1074 ≤ e) :
    shiftToTargetExponent binary64 (2 ^ 53) e .exact = (⟨2 ^ 52, false, false⟩, e + 1) := by
  have htarget := targetExponent_eq (2 ^ 53) e
  rw [Nat.log2_two_pow] at htarget
  have hshift : (binary64.targetExponent (totalExponent (2 ^ 53) e) - e).toNat = 1 := by omega
  unfold shiftToTargetExponent shiftToExponent
  dsimp only
  rw [hshift]
  rfl

/-- What can come of rounding to the exponent `e` a number whose quotient there is `least`. -/
inductive Rounds (s : Sign) (least : Nat) (e : Int) : UnpackedFloat → Prop where
  | vanishes (none : least = 0) (lowest : e = -1074) : Rounds s least e (.zero s)
  | here {m : Nat} (pos : 0 < m) (above : least ≤ m) (canonical : Canonical m e) :
      Rounds s least e (.finite s m e pos)
  /-- The quotient is rounded up to the next power of two. -/
  | next : Rounds s least e (.finite s (2 ^ 52) (e + 1) (by decide))

theorem canonical_next {e : Int} (he : -1075 ≤ e) : Canonical (2 ^ 52) (e + 1) :=
  ⟨by decide, by omega, Or.inr le_rfl⟩

theorem quotient_bounds {m : Nat} {e t : Int} (hm : 0 < m)
    (ht : max (m.log2 + 1 + e - 53) (-1074) = t) (he : e ≤ t) :
    m / 2 ^ (t - e).toNat < 2 ^ 53 ∧ (t = -1074 ∨ 2 ^ 52 ≤ m / 2 ^ (t - e).toNat) := by
  have hlow : 2 ^ m.log2 ≤ m := Nat.log2_self_le hm.ne'
  have hhigh : m < 2 ^ (m.log2 + 1) := Nat.lt_log2_self
  constructor
  · rw [Nat.div_lt_iff_lt_mul (Nat.two_pow_pos _), ← Nat.pow_add]
    exact hhigh.trans_le (Nat.pow_le_pow_right (by decide) (by omega))
  · by_cases hleast : t = -1074
    · exact Or.inl hleast
    · right
      rw [Nat.le_div_iff_mul_le (Nat.two_pow_pos _), ← Nat.pow_add]
      exact le_trans (Nat.pow_le_pow_right (by decide) (by omega)) hlow

theorem rounds {s : Sign} {m : Nat} {e t : Int} {accuracy : Accuracy} (hm : 0 < m)
    (ht : binary64.targetExponent (totalExponent m e) = t) (he : e ≤ t) :
    Rounds s (m / 2 ^ (t - e).toNat) t (roundWithAccuracy binary64 s m e accuracy) := by
  have htarget := targetExponent_eq m e
  rw [ht] at htarget
  have hquotient := quotient_bounds hm htarget.symm he
  have hfirst := shiftToExponent_eq (m := m) accuracy he
  have hround := roundedMantissa_bounds (shiftToExponent m e accuracy t).1
  rw [hfirst.1] at hround
  generalize m / 2 ^ (t - e).toNat = q at *
  have hshift : shiftToTargetExponent binary64 m e accuracy = shiftToExponent m e accuracy t :=
    congrArg (shiftToExponent m e accuracy) ht
  unfold roundWithAccuracy
  rw [hshift]
  generalize shiftToExponent m e accuracy t = first at *
  rcases first with ⟨em, e'⟩
  rcases hfirst.2
  dsimp only at hround ⊢
  -- The second shift does something only if the first mantissa was rounded up to one more bit.
  by_cases hfits : em.roundedMantissa < 2 ^ 53
  · rw [shiftToTargetExponent_of_fits hfits (by omega)]
    dsimp only
    split
    · rename_i hzero
      exact .vanishes (by omega) (by omega)
    · exact .here _ hround.1 ⟨hfits, by omega, by omega⟩
  · have hcarry : em.roundedMantissa = 2 ^ 53 := by omega
    rw [hcarry, shiftToTargetExponent_of_carry (by omega)]
    exact .next

theorem unpack_pack_of_rounds {s : Sign} {least : Nat} {t : Int} {f : UnpackedFloat}
    (h : Rounds s least t f) (hleast : -1074 ≤ t) (ht : t ≤ 970) :
    (Float.Model.pack f).unpack = f := by
  cases h with
  | vanishes none lowest => exact unpack_packedZero
  | here pos above canonical => exact unpack_pack_of_canonical canonical (by omega) s pos
  | next => exact unpack_pack_of_canonical (canonical_next (by omega)) (by omega) s _

theorem Rounds.isInf {s : Sign} {least : Nat} {t : Int} {f : UnpackedFloat}
    (h : Rounds s least t f) : f.isInf = false := by
  cases h with
  | vanishes none lowest => rfl
  | here pos above canonical => rfl
  | next => rfl

theorem isInf_round {s : Sign} {m : Nat} {e : Int} {accuracy : Accuracy} (hm : 0 < m)
    (he : e ≤ binary64.targetExponent (totalExponent m e))
    (ht : binary64.targetExponent (totalExponent m e) ≤ 970) :
    (Float.Model.pack (roundWithAccuracy binary64 s m e accuracy)).unpack.isInf = false := by
  have hrounds : Rounds s _ _ (roundWithAccuracy binary64 s m e accuracy) := rounds hm rfl he
  have hleast : -1074 ≤ binary64.targetExponent (totalExponent m e) := le_max_right _ _
  rw [unpack_pack_of_rounds hrounds hleast ht]
  exact hrounds.isInf

end Binary
end Turnstile
