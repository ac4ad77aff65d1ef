import EditorLisp.Number.Nearest
import Mathlib.Order.Compare
import Mathlib.Tactic.Linarith

/-!
# The doubles nearest to integers

A double has fifty-three bits, so integers of up to fifty-three bits are doubles, and longer ones
share the double that is nearest to them.  Rounding never turns the order of two integers around:
the place of the nearest double, on the line of all doubles, does not decrease.  It may stay where
it is, and then a comparison of doubles finds no difference.
-/

/-!
## The line of all doubles

Without their sign the bits of a finite double are a number, and one double after the other has
the next number: the exponent is stored above the fraction, and the least exponent, where no
leading bit is implied, goes over into the next one without a gap.  With its sign that number is
the place of the double on the line of all doubles.

The main statement is that finite doubles are compared like their places.
-/

namespace EditorLisp.Number

open Float.Model (UnpackedFloat Format)
open Float.Model.UnpackedFloat (Sign pack packComponents packedInfinity unpack unpackSign
  unpackExponent unpackMantissa unpackExponent_packComponents unpackMantissa_packComponents)

/-! ### Doubles taken apart -/

/-- An integer with a sign of its own. -/
def withSign : Sign → Int → Int
  | .positive, x => x
  | .negative, x => -x

/-- The place of a double that is taken apart, zero if it is infinite or not a number. -/
def place : UnpackedFloat → Int
  | .finite s m e _ => withSign s ((e + 1074) * 2 ^ 52 + m)
  | _ => 0

/-- A significand at its exponent: it has fifty-three bits, or fewer at the least exponent. -/
structure Scaled (m : Nat) (e : Int) : Prop where
  least : -1074 ≤ e
  small : m < 2 ^ 53
  leading : 2 ^ 52 ≤ m ∨ e = -1074

/-- A finite double, as it is found where one is stored. -/
def Canonical : UnpackedFloat → Prop
  | .zero _ => True
  | .finite _ m e _ => Scaled m e
  | _ => False

theorem Canonical.isNaN_eq {x : UnpackedFloat} (canonical : Canonical x) : x.isNaN = false := by
  cases x with
  | notANumber => exact canonical.elim
  | infinity => rfl
  | zero => rfl
  | finite => rfl

section Scaled

variable {m n : Nat} {e f : Int}

theorem Scaled.place_pos (scaled : Scaled m e) (pos : 0 < m) :
    0 < (e + 1074) * 2 ^ 52 + m := by
  have least := scaled.least
  omega

/-- The greater exponent decides, and the significand where the exponents are the same. -/
theorem Scaled.compare_eq (first : Scaled m e) (second : Scaled n f) :
    (compare e f).then (compare m n) =
      compare ((e + 1074) * 2 ^ 52 + m : Int) ((f + 1074) * 2 ^ 52 + n) := by
  obtain ⟨least, small, leading⟩ := first
  obtain ⟨least', small', leading'⟩ := second
  symm
  obtain less | rfl | greater := lt_trichotomy e f
  · rw [compare_lt_iff_lt.mpr less]
    show _ = Ordering.lt
    rw [compare_lt_iff_lt]
    omega
  · rw [compare_eq_iff_eq.mpr rfl]
    show _ = compare m n
    obtain less | rfl | greater := lt_trichotomy m n
    · rw [compare_lt_iff_lt.mpr less, compare_lt_iff_lt]
      omega
    · rw [compare_eq_iff_eq.mpr rfl, compare_eq_iff_eq.mpr rfl]
    · rw [compare_gt_iff_gt.mpr greater, compare_gt_iff_gt]
      omega
  · rw [compare_gt_iff_gt.mpr greater]
    show _ = Ordering.gt
    rw [compare_gt_iff_gt]
    omega

end Scaled

/-- The order of two integers is turned around by a change of both signs. -/
theorem swap_compare (a b : Int) : (compare a b).swap = compare (-a) (-b) := by
  symm
  obtain less | rfl | greater := lt_trichotomy a b
  · rw [compare_lt_iff_lt.mpr less]
    exact compare_gt_iff_gt.mpr (neg_lt_neg less)
  · rw [compare_eq_iff_eq.mpr rfl, compare_eq_iff_eq.mpr rfl]
    rfl
  · rw [compare_gt_iff_gt.mpr greater]
    exact compare_lt_iff_lt.mpr (neg_lt_neg greater)

/-- Finite doubles are compared like their places. -/
theorem Canonical.compare_eq {x y : UnpackedFloat} (first : Canonical x) (second : Canonical y) :
    x.compare y = some (compare (place x) (place y)) := by
  cases x with
  | notANumber => exact first.elim
  | infinity => exact first.elim
  | zero s =>
      cases y with
      | notANumber => exact second.elim
      | infinity => exact second.elim
      | zero t => rfl
      | finite t n f pos =>
          have above := Scaled.place_pos second pos
          cases t with
          | positive => exact congrArg some (compare_lt_iff_lt.mpr above).symm
          | negative => exact congrArg some (compare_gt_iff_gt.mpr (neg_neg_of_pos above)).symm
  | finite s m e pos =>
      have above := Scaled.place_pos first pos
      cases y with
      | notANumber => exact second.elim
      | infinity => exact second.elim
      | zero t =>
          cases s with
          | positive => exact congrArg some (compare_gt_iff_gt.mpr above).symm
          | negative => exact congrArg some (compare_lt_iff_lt.mpr (neg_neg_of_pos above)).symm
      | finite t n f pos' =>
          have above' := Scaled.place_pos second pos'
          have magnitudes := Scaled.compare_eq first second
          cases s with
          | positive =>
              cases t with
              | positive => exact congrArg some magnitudes
              | negative =>
                  have less := (neg_neg_of_pos above').trans above
                  exact congrArg some (compare_gt_iff_gt.mpr less).symm
          | negative =>
              cases t with
              | positive =>
                  have less := (neg_neg_of_pos above).trans above'
                  exact congrArg some (compare_lt_iff_lt.mpr less).symm
              | negative =>
                  show some (((compare e f).then (compare m n)).swap) = _
                  rw [magnitudes, swap_compare]
                  rfl

/-! ### Stored doubles -/

theorem unpackSign_packComponents (s : Sign) (e : BitVec 11) (m : BitVec 52) :
    unpackSign (packComponents Format.binary64 s e m) = s.toBitVec := by
  have leading (sign : BitVec 1) : (sign ++ e ++ m).getLsbD 63 = sign.getLsbD 0 := by
    rw [BitVec.getLsbD_append, BitVec.getLsbD_append]
    rfl
  apply BitVec.eq_of_getLsbD_eq
  intro i inside
  obtain rfl := Nat.lt_one_iff.mp inside
  unfold unpackSign
  rw [BitVec.getLsbD_cast, BitVec.getLsbD_extractLsb]
  exact leading s.toBitVec

theorem toNat_packComponents (s : Sign) (e : BitVec 11) (m : BitVec 52) :
    (packComponents Format.binary64 s e m).toNat =
      s.toBitVec.toNat * 2 ^ 63 + (e.toNat * 2 ^ 52 + m.toNat) := by
  show (s.toBitVec ++ e ++ m : BitVec (1 + 11 + 52)).toNat = _
  rw [BitVec.toNat_append, ← Nat.shiftLeft_add_eq_or_of_lt m.isLt, BitVec.toNat_append,
    ← Nat.shiftLeft_add_eq_or_of_lt e.isLt, Nat.shiftLeft_eq, Nat.shiftLeft_eq]
  omega

/-- The double stored in three fields, taken apart. -/
def stored (s : Sign) (e : BitVec 11) (m : BitVec 52) : UnpackedFloat :=
  unpack Format.binary64 (packComponents Format.binary64 s e m)

theorem pack_finite (s : Sign) {m : Nat} (e : Int) (pos : 0 < m) :
    pack Format.binary64 (.finite s m e pos) =
      if 2 ^ 11 ≤ (e + 1075).toNat + 1 then packedInfinity Format.binary64 s
      else if m.log2 + 1 = 53 then
        packComponents Format.binary64 s (BitVec.ofNat 11 (e + 1075).toNat) (BitVec.ofNat 52 m)
      else packComponents Format.binary64 s 0#11 (BitVec.ofNat 52 m) := by
  have bias : e + 1075 = e + (Format.binary64.exponentBias : Nat) + (52 : Nat) := by
    rw [add_assoc]
    rfl
  rw [bias]
  rfl

section Fields

variable (s : Sign) {e : BitVec 11} (m : BitVec 52) (finite : e ≠ -1#11)
include finite

/-- Three kinds of finite doubles are stored: zero, those without an implied leading bit, and those
with one. -/
theorem stored_cases :
    e = 0#11 ∧ m = 0#52 ∧ stored s e m = .zero s ∨
      e = 0#11 ∧ (∃ n f pos, stored s e m = .finite s n f pos ∧ n = m.toNat ∧ f = -1074) ∨
      e ≠ 0#11 ∧ ∃ n f pos, stored s e m = .finite s n f pos ∧
        n = 2 ^ 52 + m.toNat ∧ f = e.toNat - 1075 := by
  have sign : Sign.ofBitVec (unpackSign (packComponents Format.binary64 s e m)) = s := by
    rw [unpackSign_packComponents]
    cases s <;> rfl
  have exponent : unpackExponent (packComponents Format.binary64 s e m) = e :=
    unpackExponent_packComponents
  have mantissa : unpackMantissa (packComponents Format.binary64 s e m) = m :=
    unpackMantissa_packComponents
  unfold stored
  generalize packComponents Format.binary64 s e m = b at sign exponent mantissa ⊢
  subst sign exponent mantissa
  unfold unpack
  dsimp only
  rw [if_neg finite]
  by_cases least : unpackExponent b = 0#11
  · rw [if_pos least]
    by_cases zero : unpackMantissa b = 0#52
    · rw [dif_pos zero]
      exact .inl ⟨least, zero, rfl⟩
    · have pos : 0 < (unpackMantissa b).toNat := by
        rw [Nat.pos_iff_ne_zero]
        exact fun eq => zero (BitVec.eq_of_toNat_eq eq)
      rw [dif_neg zero]
      refine .inr (.inl ⟨least, _, _, pos, rfl, rfl, ?_⟩)
      rw [least]
      rfl
  · have implied : (1#1 ++ unpackMantissa b).toNat = 2 ^ 52 + (unpackMantissa b).toNat := by
      rw [BitVec.toNat_append, ← Nat.shiftLeft_add_eq_or_of_lt (unpackMantissa b).isLt]
      rfl
    have pos : 0 < (1#1 ++ unpackMantissa b).toNat := by
      rw [implied]
      omega
    rw [if_neg least]
    exact .inr (.inr ⟨least, _, _, pos, rfl, implied, rfl⟩)

theorem canonical_stored : Canonical (stored s e m) := by
  obtain ⟨-, -, zero⟩ | ⟨-, n, f, pos, least, rfl, rfl⟩ | ⟨nonzero, n, f, pos, implied, rfl, rfl⟩ :=
    stored_cases s m finite
  · rw [zero]
    trivial
  · rw [least]
    exact ⟨le_rfl, by omega, .inr rfl⟩
  · have positive : e.toNat ≠ 0 := fun eq => nonzero (BitVec.eq_of_toNat_eq eq)
    rw [implied]
    exact ⟨by omega, by omega, .inl (by omega)⟩

theorem place_stored :
    place (stored s e m) = withSign s (e.toNat * 2 ^ 52 + m.toNat : Nat) := by
  obtain ⟨rfl, rfl, zero⟩ | ⟨rfl, n, f, pos, least, rfl, rfl⟩ | ⟨-, n, f, pos, implied, rfl, rfl⟩ :=
    stored_cases s m finite
  · rw [zero, BitVec.toNat_zero, BitVec.toNat_zero, Nat.zero_mul]
    cases s <;> rfl
  · rw [least, BitVec.toNat_zero, Nat.zero_mul, Nat.zero_add]
    show withSign s _ = _
    rw [Int.add_left_neg, Int.zero_mul, Int.zero_add]
  · rw [implied]
    show withSign s _ = _
    congr 1
    omega

/-- A stored double is put back as it was. -/
theorem pack_stored :
    pack Format.binary64 (stored s e m) = packComponents Format.binary64 s e m := by
  obtain ⟨rfl, rfl, zero⟩ | ⟨rfl, n, f, pos, least, rfl, rfl⟩ | ⟨-, n, f, pos, implied, rfl, rfl⟩ :=
    stored_cases s m finite
  · rw [zero]
    rfl
  · have short : ¬m.toNat.log2 + 1 = 53 := by
      have below := (Nat.log2_lt pos.ne').mpr m.isLt
      omega
    rw [least, pack_finite, if_neg (by decide), if_neg short, BitVec.ofNat_toNat,
      BitVec.setWidth_eq]
  · have length : (2 ^ 52 + m.toNat).log2 + 1 = 53 := by
      have upper := (Nat.log2_lt pos.ne').mpr (by omega : 2 ^ 52 + m.toNat < 2 ^ 53)
      have lower := (Nat.le_log2 pos.ne').mpr (by omega : 2 ^ 52 ≤ 2 ^ 52 + m.toNat)
      omega
    have top : e.toNat ≠ 2047 := fun eq => finite (BitVec.eq_of_toNat_eq eq)
    have fraction : BitVec.ofNat 52 (2 ^ 52 + m.toNat) = m := by
      apply BitVec.eq_of_toNat_eq
      rw [BitVec.toNat_ofNat, Nat.add_mod_left, Nat.mod_eq_of_lt m.isLt]
    rw [implied, pack_finite, Int.sub_add_cancel, Int.toNat_natCast, if_neg (by omega),
      if_pos length, BitVec.ofNat_toNat, BitVec.setWidth_eq, fraction]

theorem unpack_ofBits {u : UInt64} (bits : u.toBitVec = packComponents Format.binary64 s e m) :
    (Float.ofBits u).toModel.unpack = stored s e m := by
  have unpacked : (Float.ofBits u).toModel.unpack =
      unpack Format.binary64 (pack Format.binary64 (unpack Format.binary64 u.toBitVec)) := rfl
  rw [unpacked, bits]
  exact congrArg (unpack Format.binary64) (pack_stored s m finite)

end Fields

/-! ### Doubles by their place -/

variable {p q : Int}

/-- The sign of an integer, positive for zero. -/
def sign (p : Int) : Sign := if p < 0 then .negative else .positive

@[simp]
theorem withSign_sign (p : Int) : withSign (sign p) p.natAbs = p := by
  unfold sign
  split <;> simp only [withSign] <;> omega

/-- The bits of the double at a place. -/
def bitsAt (p : Int) : UInt64 := UInt64.ofNat ((if p < 0 then 2 ^ 63 else 0) + p.natAbs)

/-- The double at a place. -/
def doubleAt (p : Int) : Float := Float.ofBits (bitsAt p)

theorem bitsAt_eq (inside : p.natAbs < 2047 * 2 ^ 52) :
    (bitsAt p).toBitVec =
      packComponents Format.binary64 (sign p) (BitVec.ofNat 11 (p.natAbs / 2 ^ 52))
        (BitVec.ofNat 52 p.natAbs) := by
  have signBit : (sign p).toBitVec.toNat * 2 ^ 63 = if p < 0 then 2 ^ 63 else 0 := by
    unfold sign
    split <;> rfl
  have sum := Nat.div_add_mod' p.natAbs (2 ^ 52)
  have top : p.natAbs / 2 ^ 52 < 2 ^ 11 := by omega
  apply BitVec.eq_of_toNat_eq
  unfold bitsAt
  rw [toNat_packComponents, signBit, BitVec.toNat_ofNat, BitVec.toNat_ofNat,
    Nat.mod_eq_of_lt top, sum, UInt64.toNat_toBitVec, UInt64.toNat_ofNat']
  apply Nat.mod_eq_of_lt
  split <;> omega

/-- Below the greatest exponent there is a finite double at every place. -/
theorem place_doubleAt (inside : p.natAbs < 2047 * 2 ^ 52) :
    Canonical (doubleAt p).toModel.unpack ∧ place (doubleAt p).toModel.unpack = p := by
  have top : p.natAbs / 2 ^ 52 < 2047 := by omega
  have exponent : (BitVec.ofNat 11 (p.natAbs / 2 ^ 52)).toNat = p.natAbs / 2 ^ 52 := by
    rw [BitVec.toNat_ofNat, Nat.mod_eq_of_lt]
    omega
  have finite : BitVec.ofNat 11 (p.natAbs / 2 ^ 52) ≠ -1#11 := by
    intro eq
    rw [eq] at exponent
    exact top.ne exponent.symm
  unfold doubleAt
  rw [unpack_ofBits (sign p) _ finite (bitsAt_eq inside)]
  refine ⟨canonical_stored _ _ finite, ?_⟩
  rw [place_stored _ _ finite, exponent, BitVec.toNat_ofNat, Nat.div_add_mod', withSign_sign]

/-- Finite doubles are ordered like their places. -/
theorem doubleAt_lt_iff (first : p.natAbs < 2047 * 2 ^ 52) (second : q.natAbs < 2047 * 2 ^ 52) :
    doubleAt p < doubleAt q ↔ p < q := by
  obtain ⟨canonical, placed⟩ := place_doubleAt first
  obtain ⟨canonical', placed'⟩ := place_doubleAt second
  have compared := canonical.compare_eq canonical'
  rw [placed, placed'] at compared
  show decide (((doubleAt p).toModel.unpack.compare (doubleAt q).toModel.unpack ==
    some Ordering.lt) = true) = true ↔ _
  rw [compared, decide_eq_true_iff, beq_iff_eq, Option.some_inj, compare_lt_iff_lt]

theorem isNaN_doubleAt (inside : p.natAbs < 2047 * 2 ^ 52) : (doubleAt p).isNaN = false :=
  (place_doubleAt inside).1.isNaN_eq

variable {m n : Nat} {k l : Int}

/-! ## Rounding to a natural number -/

theorem le_roundHalfEven (m d : Nat) : m / d ≤ roundHalfEven m d := by
  unfold roundHalfEven
  dsimp only
  split_ifs <;> omega

theorem roundHalfEven_le (m d : Nat) : roundHalfEven m d ≤ m / d + 1 := by
  unfold roundHalfEven
  dsimp only
  split_ifs <;> omega

@[simp]
theorem roundHalfEven_one (m : Nat) : roundHalfEven m 1 = m := by
  unfold roundHalfEven
  rw [Nat.mod_one, Nat.div_one]
  rfl

/-- Of two quotients with the same integer part the remainders decide. -/
theorem roundHalfEven_mono (d : Nat) (le : m ≤ n) : roundHalfEven m d ≤ roundHalfEven n d := by
  obtain apart | same := (Nat.div_le_div_right le : m / d ≤ n / d).lt_or_eq
  · exact (roundHalfEven_le m d).trans (Nat.le_trans apart (le_roundHalfEven n d))
  · have rest : m % d ≤ n % d := by
      have sum := Nat.div_add_mod m d
      have sum' := Nat.div_add_mod n d
      rw [same] at sum
      omega
    unfold roundHalfEven
    rw [same]
    dsimp only
    split_ifs <;> omega

/-! ## Fifty-three bits -/

theorem log2_le_log2 (positive : m ≠ 0) (le : m ≤ n) : m.log2 ≤ n.log2 :=
  (Nat.le_log2 (by omega)).mpr ((Nat.log2_self_le positive).trans le)

/-- Scaled by a power of two, a number has as many bits as are asked for. -/
theorem scaled_bounds (positive : n ≠ 0) (bits : Nat) :
    2 ^ bits ≤ n * 2 ^ (bits - n.log2) / 2 ^ (n.log2 - bits) ∧
      n * 2 ^ (bits - n.log2) / 2 ^ (n.log2 - bits) < 2 ^ (bits + 1) := by
  have lower := Nat.mul_le_mul_right (2 ^ (bits - n.log2)) (Nat.log2_self_le positive)
  have upper := Nat.mul_lt_mul_of_pos_right (Nat.lt_log2_self : n < 2 ^ (n.log2 + 1))
    (Nat.two_pow_pos (bits - n.log2))
  have shift : n.log2 + (bits - n.log2) = bits + (n.log2 - bits) := by omega
  have shift' : n.log2 + 1 + (bits - n.log2) = bits + 1 + (n.log2 - bits) := by omega
  rw [← pow_add, shift] at lower
  rw [← pow_add, shift'] at upper
  rw [Nat.le_div_iff_mul_le (Nat.two_pow_pos _), Nat.div_lt_iff_lt_mul (Nat.two_pow_pos _),
    ← pow_add, ← pow_add]
  exact ⟨lower, upper⟩

/-- The significand of the double nearest to a positive number. -/
def significand (n : Nat) : Nat := roundHalfEven (n * 2 ^ (52 - n.log2)) (2 ^ (n.log2 - 52))

theorem significand_bounds (positive : n ≠ 0) :
    2 ^ 52 ≤ significand n ∧ significand n ≤ 2 ^ 53 := by
  obtain ⟨lower, upper⟩ := scaled_bounds positive 52
  exact ⟨lower.trans (le_roundHalfEven _ _), (roundHalfEven_le _ _).trans upper⟩

/-- Nothing is rounded in numbers of up to fifty-three bits. -/
theorem significand_eq (short : n < 2 ^ 53) : significand n = n * 2 ^ (52 - n.log2) := by
  have whole : n.log2 - 52 = 0 := by
    by_cases zero : n = 0
    · rw [zero]
      decide
    · have below := (Nat.log2_lt zero).mpr short
      omega
  unfold significand
  rw [whole, pow_zero, roundHalfEven_one]

theorem twoTo_eq (n : Nat) : twoTo n = 2 ^ n := rfl

theorem significandExponent_one (positive : n ≠ 0) : significandExponent n 1 = n.log2 - 52 := by
  have guess : max ((n.log2 : Int) - ((1 : Nat).log2 : Int) - 53) (-1074) = n.log2 - 53 := by
    have unit : (1 : Nat).log2 = 0 := by decide
    omega
  -- with one bit more than there is room for, the guess is one too low
  have low : ¬scaledFloor n 1 (n.log2 - 53) < twoTo 53 := by
    have down : (-(n.log2 - 53 : Int)).toNat = 53 - n.log2 := by omega
    have up : (n.log2 - 53 : Int).toNat = n.log2 - 53 := by omega
    unfold scaledFloor
    rw [down, up, one_mul]
    exact not_lt_of_ge (scaled_bounds positive 53).1
  unfold significandExponent
  dsimp only
  rw [guess, if_neg low]
  omega

/-! ## The place of the nearest double -/

/-- The place of the double nearest to a natural number. -/
def magnitudePlace (n : Nat) : Nat :=
  if n = 0 then 0 else (n.log2 + 1022) * 2 ^ 52 + significand n

theorem magnitudePlace_pos (positive : n ≠ 0) : 0 < magnitudePlace n := by
  have bounds := significand_bounds positive
  unfold magnitudePlace
  rw [if_neg positive]
  omega

theorem magnitudePlace_lt (inside : n < 2 ^ 64) : magnitudePlace n < 2047 * 2 ^ 52 := by
  unfold magnitudePlace
  split
  next => decide
  next positive =>
    have top := (Nat.log2_lt positive).mpr inside
    have bounds := significand_bounds positive
    omega

theorem magnitudePlace_mono (le : m ≤ n) : magnitudePlace m ≤ magnitudePlace n := by
  by_cases zero : m = 0
  · rw [zero]
    exact Nat.zero_le _
  have positive : n ≠ 0 := by omega
  unfold magnitudePlace
  rw [if_neg zero, if_neg positive]
  obtain longer | same := (log2_le_log2 zero le).lt_or_eq
  · have upper := (significand_bounds zero).2
    have lower := (significand_bounds positive).1
    omega
  · have rounded : significand m ≤ significand n := by
      unfold significand
      rw [same]
      exact roundHalfEven_mono _ (Nat.mul_le_mul_right _ le)
    rw [same]
    exact Nat.add_le_add_left rounded _

/-- Numbers of up to fifty-three bits have places of their own. -/
theorem magnitudePlace_lt_magnitudePlace (less : m < n) (short : m < 2 ^ 53) :
    magnitudePlace m < magnitudePlace n := by
  by_cases zero : m = 0
  · rw [zero]
    exact magnitudePlace_pos less.ne_bot
  have positive : n ≠ 0 := by omega
  have exact := significand_eq short
  unfold magnitudePlace
  rw [if_neg zero, if_neg positive]
  obtain longer | same := (log2_le_log2 zero less.le).lt_or_eq
  · have upper : significand m < 2 ^ 53 := by
      have below := (Nat.log2_lt zero).mpr short
      have top := (scaled_bounds zero 52).2
      have whole : m.log2 - 52 = 0 := by omega
      rwa [whole, pow_zero, Nat.div_one, ← exact] at top
    have lower := (significand_bounds positive).1
    omega
  · have short' : n < 2 ^ 53 := by
      rw [← Nat.log2_lt positive, ← same, Nat.log2_lt zero]
      exact short
    rw [exact, significand_eq short', same]
    exact Nat.add_lt_add_left (Nat.mul_lt_mul_of_pos_right less (Nat.two_pow_pos _)) _

/-- The place of the double nearest to an integer. -/
def nearestPlace (k : Int) : Int := withSign (sign k) (magnitudePlace k.natAbs)

theorem nearestPlace_of_nonneg (nonneg : 0 ≤ k) : nearestPlace k = magnitudePlace k.natAbs := by
  unfold nearestPlace sign
  rw [if_neg (not_lt_of_ge nonneg)]
  rfl

theorem nearestPlace_of_neg (negative : k < 0) : nearestPlace k = -magnitudePlace k.natAbs := by
  unfold nearestPlace sign
  rw [if_pos negative]
  rfl

theorem natAbs_nearestPlace (k : Int) : (nearestPlace k).natAbs = magnitudePlace k.natAbs := by
  obtain negative | nonneg := lt_or_ge k 0
  · rw [nearestPlace_of_neg negative, Int.natAbs_neg, Int.natAbs_natCast]
  · rw [nearestPlace_of_nonneg nonneg, Int.natAbs_natCast]

theorem nearestPlace_neg_iff (k : Int) : nearestPlace k < 0 ↔ k < 0 := by
  obtain negative | nonneg := lt_or_ge k 0
  · have positive := magnitudePlace_pos (Int.natAbs_ne_zero.mpr negative.ne)
    rw [nearestPlace_of_neg negative]
    omega
  · rw [nearestPlace_of_nonneg nonneg]
    omega

/-- Rounding does not turn the order of two integers around. -/
theorem nearestPlace_mono (le : k ≤ l) : nearestPlace k ≤ nearestPlace l := by
  obtain negative | nonneg := lt_or_ge k 0
  · rw [nearestPlace_of_neg negative]
    obtain negative' | nonneg' := lt_or_ge l 0
    · rw [nearestPlace_of_neg negative', neg_le_neg_iff, Nat.cast_le]
      apply magnitudePlace_mono
      omega
    · rw [nearestPlace_of_nonneg nonneg']
      omega
  · rw [nearestPlace_of_nonneg nonneg, nearestPlace_of_nonneg (nonneg.trans le), Nat.cast_le]
    apply magnitudePlace_mono
    omega

/-- Integers of up to fifty-three bits keep their order. -/
theorem nearestPlace_lt_nearestPlace (less : k < l) (short : k.natAbs ≤ 2 ^ 53)
    (short' : l.natAbs ≤ 2 ^ 53) : nearestPlace k < nearestPlace l := by
  obtain negative | nonneg := lt_or_ge k 0
  · obtain negative' | nonneg' := lt_or_ge l 0
    · rw [nearestPlace_of_neg negative, nearestPlace_of_neg negative', neg_lt_neg_iff, Nat.cast_lt]
      apply magnitudePlace_lt_magnitudePlace <;> omega
    · rw [nearestPlace_of_nonneg nonneg']
      have below := (nearestPlace_neg_iff k).mpr negative
      omega
  · rw [nearestPlace_of_nonneg nonneg, nearestPlace_of_nonneg (nonneg.trans less.le), Nat.cast_lt]
    apply magnitudePlace_lt_magnitudePlace <;> omega

/-! ## The nearest double -/

theorem nearestBits_one (negative : Bool) (inside : n < 2 ^ 64) :
    nearestBits negative n 1 =
      UInt64.ofNat ((if negative then 2 ^ 63 else 0) + magnitudePlace n) := by
  have below := magnitudePlace_lt inside
  unfold nearestBits
  dsimp only
  simp only [twoTo_eq, one_mul]
  rw [if_neg one_ne_zero]
  unfold magnitudePlace at below ⊢
  by_cases zero : n = 0
  · rw [if_pos zero, if_pos zero]
  · have bounds := significand_bounds zero
    have down : (-(n.log2 - 52 : Int)).toNat = 52 - n.log2 := by omega
    have up : (n.log2 - 52 : Int).toNat = n.log2 - 52 := by omega
    have rounded : roundHalfEven (n * 2 ^ (52 - n.log2)) (2 ^ (n.log2 - 52)) = significand n := rfl
    have word : (n.log2 - 52 + 1075 : Int).toNat * 2 ^ 52 + (significand n - 2 ^ 52) =
        (n.log2 + 1022) * 2 ^ 52 + significand n := by omega
    rw [if_neg zero] at below
    rw [if_neg zero, if_neg zero, significandExponent_one zero, down, up, rounded,
      if_neg (not_lt_of_ge bounds.1), word, Nat.min_eq_left]
    exact below.le

/-- The nearest double is the one at its place. -/
theorem ofInt_eq (inside : k.natAbs < 2 ^ 64) : ofInt k = doubleAt (nearestPlace k) := by
  unfold ofInt nearest doubleAt bitsAt
  rw [nearestBits_one _ inside, natAbs_nearestPlace]
  simp only [nearestPlace_neg_iff, decide_eq_true_eq]

theorem natAbs_nearestPlace_lt (inside : k.natAbs < 2 ^ 64) :
    (nearestPlace k).natAbs < 2047 * 2 ^ 52 := by
  rw [natAbs_nearestPlace]
  exact magnitudePlace_lt inside

theorem ofInt_lt_iff (inside : k.natAbs < 2 ^ 64) (inside' : l.natAbs < 2 ^ 64) :
    ofInt k < ofInt l ↔ nearestPlace k < nearestPlace l := by
  rw [ofInt_eq inside, ofInt_eq inside']
  exact doubleAt_lt_iff (natAbs_nearestPlace_lt inside) (natAbs_nearestPlace_lt inside')

/-- Two integers share their nearest double if it is at the same place. -/
theorem ofInt_eq_iff (inside : k.natAbs < 2 ^ 64) (inside' : l.natAbs < 2 ^ 64) :
    ofInt k = ofInt l ↔ nearestPlace k = nearestPlace l := by
  constructor
  · intro same
    have less : nearestPlace k < nearestPlace l ↔ nearestPlace l < nearestPlace l := by
      rw [← ofInt_lt_iff inside inside', same, ofInt_lt_iff inside' inside']
    have greater : nearestPlace l < nearestPlace k ↔ nearestPlace l < nearestPlace l := by
      rw [← ofInt_lt_iff inside' inside, same, ofInt_lt_iff inside' inside']
    omega
  · intro same
    rw [ofInt_eq inside, ofInt_eq inside', same]

/-- Integers of up to fifty-three bits do not share their nearest doubles. -/
theorem eq_of_ofInt_eq (short : k.natAbs ≤ 2 ^ 53) (short' : l.natAbs ≤ 2 ^ 53)
    (same : ofInt k = ofInt l) : k = l := by
  rw [ofInt_eq_iff (by omega) (by omega)] at same
  obtain less | equal | greater := lt_trichotomy k l
  · exact absurd same (nearestPlace_lt_nearestPlace less short short').ne
  · exact equal
  · exact absurd same (nearestPlace_lt_nearestPlace greater short' short).ne'

theorem isNaN_ofInt (inside : k.natAbs < 2 ^ 64) : (ofInt k).isNaN = false := by
  rw [ofInt_eq inside]
  exact isNaN_doubleAt (natAbs_nearestPlace_lt inside)

end EditorLisp.Number
