import Mathlib
import Reckon.Number.Arithmetic
import Reckon.Number.Reading
import Reckon.Proofs.Result

/-!
# Proofs/Number/Finite — operations that give neither an infinity nor a NaN

A double is finite iff its exponent field is not all ones (`Binary64.isFinite_unpack_iff`), and **the
sign does not matter**: turning or dropping it leaves a finite double finite.  Every other operation on
doubles is followed by a check, so nothing need be known of what it computes.
-/

namespace Reckon

namespace Binary64

open Float.Model (Format UnpackedFloat)
open Float.Model.UnpackedFloat

theorem isFinite_unpack_iff {spec : Format} {b : BitVec spec.numBits} :
    (unpack spec b).isFinite = true ↔ unpackExponent b ≠ -1#_ := by
  rw [unpack]
  split_ifs <;> simp_all [isFinite]

variable {s : Sign} {m : Nat} {e : Int} {hm : 0 < m}

/-- The exponent of a finite double is below that of the infinities. -/
theorem exponent_lt {b : BitVec Format.binary64.numBits}
    (h : unpack Format.binary64 b = .finite s m e hm) : e + 1075 < 2047 := by
  have hlt : (unpackExponent b).toNat < 2048 := (unpackExponent b).isLt
  rw [unpack] at h
  split_ifs at h with hones hinfinite hzero hmantissa
  · obtain ⟨-, -, rfl⟩ := UnpackedFloat.finite.inj h
    rw [hzero]
    decide
  · obtain ⟨-, -, rfl⟩ := UnpackedFloat.finite.inj h
    have hne : (unpackExponent b).toNat ≠ 2047 := fun heq => hones (BitVec.eq_of_toNat_eq heq)
    change ((unpackExponent b).toNat : Int) - (1023 + 52) + 1075 < 2047
    omega

/-- Packed with either sign, a double of such an exponent is finite. -/
theorem isFinite_pack_finite (he : e + 1075 < 2047) :
    (Float.Model.pack (.finite s m e hm)).isFinite = true := by
  refine isFinite_unpack_iff.2 ?_
  change unpackExponent (pack .binary64 (.finite s m e hm)) ≠ _
  have hfits : ¬ 2 ^ Format.binary64.exponentBits ≤ (e + Format.binary64.exponentBias +
      Format.binary64.mantissaBitsWithoutImplicit).toNat + 1 := by
    change ¬ 2 ^ 11 ≤ (e + 1023 + 52).toNat + 1
    omega
  rw [pack, if_neg hfits]
  split
  · rw [unpackExponent_packComponents]
    intro heq
    have := congrArg BitVec.toNat heq
    change (e + 1023 + 52).toNat % 2048 = 2047 at this
    omega
  · rw [unpackExponent_packComponents]
    decide

theorem isFinite_pack_zero (s : Sign) : (Float.Model.pack (.zero s)).isFinite = true := by
  refine isFinite_unpack_iff.2 ?_
  change unpackExponent (packedZero .binary64 s) ≠ _
  rw [packedZero, unpackExponent_packComponents]
  decide

variable {x : Float}

theorem isFinite_neg (h : x.isFinite = true) : (-x).isFinite = true := by
  change (Float.Model.pack x.toModel.unpack.neg).isFinite = true
  have h : x.toModel.unpack.isFinite = true := h
  cases hx : x.toModel.unpack with
  | finite s m e hm => exact isFinite_pack_finite (exponent_lt hx)
  | zero s => exact isFinite_pack_zero (-s)
  | infinity s => simp [hx, UnpackedFloat.isFinite] at h
  | notANumber => simp [hx, UnpackedFloat.isFinite] at h

theorem isFinite_abs (h : x.isFinite = true) : x.abs.isFinite = true := by
  change (Float.Model.pack x.toModel.unpack.abs).isFinite = true
  have h : x.toModel.unpack.isFinite = true := h
  cases hx : x.toModel.unpack with
  | finite s m e hm => exact isFinite_pack_finite (exponent_lt hx)
  | zero s => exact isFinite_pack_zero .positive
  | infinity s => simp [hx, UnpackedFloat.isFinite] at h
  | notANumber => simp [hx, UnpackedFloat.isFinite] at h

end Binary64

namespace Number

/-- The number is an integer or a finite double. -/
def IsFinite : Number → Prop
  | integer _ => True
  | float x => x.isFinite = true

instance : DecidablePred IsFinite
  | integer _ => .isTrue trivial
  | float x => inferInstanceAs (Decidable (x.isFinite = true))

@[simp] theorem isFinite_float {x : Float} : (float x).IsFinite ↔ x.isFinite = true := .rfl

variable {a : Number} (operation : String)

/-! ## Without a check -/

theorem IsFinite.neg (h : a.IsFinite) : (-a).IsFinite := by
  cases a with
  | integer n => trivial
  | float x => exact Binary64.isFinite_neg h

theorem IsFinite.abs (h : a.IsFinite) : a.abs.IsFinite := by
  cases a with
  | integer n => trivial
  | float x => exact Binary64.isFinite_abs h

/-! ## With a check -/

@[simp] theorem ofFloat?_ensures (x : Float) : Ensures IsFinite (ofFloat? operation x) := by
  rw [ofFloat?]
  split
  · next h => exact .ok h
  · exact .error trivial

@[simp] theorem finite?_ensures (a : Number) : Ensures IsFinite (a.finite? operation) := by
  cases a with
  | integer n => exact .ok trivial
  | float x => exact ofFloat?_ensures operation x

@[simp] theorem divide_ensures (a b : Number) : Ensures IsFinite (divide a b) := by
  rw [divide]
  split
  · exact .error trivial
  · cases pair a b with
    | integers m n => exact ofFloat?_ensures _ _
    | floats x y => exact ofFloat?_ensures _ _

@[simp] theorem floorDivide_ensures (a b : Number) : Ensures IsFinite (floorDivide a b) := by
  rw [floorDivide]
  split
  · exact .error trivial
  · cases pair a b with
    | integers m n => exact .ok trivial
    | floats x y => exact ofFloat?_ensures _ _

@[simp] theorem floorModulo_ensures (a b : Number) : Ensures IsFinite (floorModulo a b) := by
  rw [floorModulo]
  split
  · exact .error trivial
  · cases pair a b with
    | integers m n => exact .ok trivial
    | floats x y => exact ofFloat?_ensures _ _

theorem integerPower_ensures (base exponent : Int) :
    Ensures IsFinite (integerPower base exponent) := by
  rw [integerPower]
  split_ifs
  · exact .ok trivial
  · exact .error trivial
  · exact .error trivial
  · exact ofFloat?_ensures _ _

theorem floatPower_ensures (base exponent : Float) : Ensures IsFinite (floatPower base exponent) := by
  rw [floatPower]
  split_ifs
  · exact .error trivial
  · exact .error trivial
  · exact ofFloat?_ensures _ _

@[simp] theorem power_ensures (a b : Number) : Ensures IsFinite (power a b) := by
  rw [power]
  cases pair a b with
  | integers base exponent => exact integerPower_ensures base exponent
  | floats base exponent => exact floatPower_ensures base exponent

@[simp] theorem round_ensures (a : Number) : Ensures IsFinite a.round := by
  cases a with
  | integer n => exact .ok trivial
  | float x =>
    rw [round]
    cases Binary64.value? x with
    | some f => exact .ok trivial
    | none => exact .error trivial

@[simp] theorem factorial_ensures (a : Number) : Ensures IsFinite a.factorial := by
  cases a with
  | integer n =>
    rw [factorial]
    split
    · exact .error trivial
    · exact .ok trivial
  | float x => exact .error trivial

/-! ## Reading -/

theorem read_ensures (text : String) : Ensures IsFinite (read text) := by
  have hread : ∀ cs a, read? cs = some a → a.IsFinite := by
    intro cs a h
    rw [read?] at h
    split at h
    · obtain ⟨x, -, h⟩ := Option.bind_eq_some_iff.1 h
      split at h
      · next hx => exact Option.some.inj h ▸ hx
      · cases h
    · obtain ⟨n, -, rfl⟩ := Option.map_eq_some_iff.1 h
      trivial
  rw [read]
  cases h : read? text.toList with
  | some a => exact .ok (hread _ a h)
  | none => exact .error trivial

end Number

end Reckon
