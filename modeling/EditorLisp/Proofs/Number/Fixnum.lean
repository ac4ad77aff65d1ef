import EditorLisp.Number.Fixnum
import EditorLisp.Proofs.Number.Numeral
import Mathlib.Data.Rat.Floor
import Mathlib.Tactic.Linarith

/-!
# Machine integers

What quotients, remainders and shifts of machine integers are as mathematical integers.  Everything
is computed in machine words, and where an intermediate result leaves them it does so modulo
`2 ^ 64`, which the result does not show.
-/

/-!
## Quotients of machine integers

A quotient of two machine integers is found by dividing toward zero and correcting the result by
one where the remainder is on the wrong side.  Unless the divisor is zero, or the least integer is
divided by minus one, that is the quotient of the two as rational numbers, rounded down, up, toward
zero or to the nearest integer.

Everything is computed in machine words, and one intermediate result may leave them: the product
of a quotient that was rounded down and its divisor can lie beyond their limits.  It is taken from
the dividend again, so modulo `2 ^ 64` the remainder is right all the same.
-/

namespace EditorLisp.Number

variable {a b : Int64} {x y q r : Int}

/-! ### Rounded rational numbers -/

/-- An integer is a rational number rounded in some way. -/
def Rounding.Rounds (how : Rounding) (x : ℚ) (n : ℤ) : Prop :=
  match how with
  | .floor => n = ⌊x⌋
  | .ceiling => n = ⌈x⌉
  | .truncate => n = if 0 ≤ x then ⌊x⌋ else ⌈x⌉
  | .nearest => |x - n| ≤ 1 / 2 ∧ (|x - n| = 1 / 2 → Even n)

/-- There is one way to round a rational number. -/
theorem Rounding.Rounds.unique {how : Rounding} {x : ℚ} {m n : ℤ} (first : how.Rounds x m)
    (second : how.Rounds x n) : m = n := by
  cases how with
  | floor => exact first.trans second.symm
  | ceiling => exact first.trans second.symm
  | truncate => exact first.trans second.symm
  | nearest =>
      obtain ⟨near, tie⟩ := first
      obtain ⟨near', tie'⟩ := second
      by_contra different
      -- both are at a distance of one half, so both are even and two apart
      have apart : (1 : ℚ) ≤ |(m : ℚ) - n| := by
        exact_mod_cast Int.one_le_abs (sub_ne_zero.mpr different)
      have between := abs_sub_le (m : ℚ) x n
      rw [abs_sub_comm (m : ℚ) x] at between
      have even := tie (by linarith)
      have even' := tie' (by linarith)
      have within : |(m : ℚ) - n| ≤ 1 := by linarith
      have within' : |m - n| ≤ 1 := by exact_mod_cast within
      rw [abs_le] at within'
      obtain ⟨i, rfl⟩ := even
      obtain ⟨j, rfl⟩ := even'
      omega

/-! ### Quotients of integers -/

/-- A remainder is on the side of the divisor and closer to zero. -/
def Sided (y r : Int) : Prop := 0 ≤ r ∧ r < y ∨ y < r ∧ r ≤ 0

theorem Sided.divisor_ne (sided : Sided y r) : y ≠ 0 := by
  rintro rfl
  unfold Sided at sided
  omega

/-- What a quotient leaves over is a fraction. -/
theorem Sided.fraction (sided : Sided y r) : 0 ≤ (r / y : ℚ) ∧ (r / y : ℚ) < 1 := by
  obtain ⟨nonneg, below⟩ | ⟨above, nonpos⟩ := sided
  · have positive : (0 : ℚ) < y := by exact_mod_cast nonneg.trans_lt below
    rw [div_lt_one positive]
    exact ⟨div_nonneg (by exact_mod_cast nonneg) positive.le, by exact_mod_cast below⟩
  · have negative : (y : ℚ) < 0 := by exact_mod_cast above.trans_le nonpos
    rw [div_lt_one_of_neg negative]
    exact ⟨div_nonneg_of_nonpos (by exact_mod_cast nonpos) negative.le, by exact_mod_cast above⟩

/-- A dividend is the quotient and the fraction that is left over. -/
theorem div_eq_add_fraction (divisor : y ≠ 0) (sum : x = y * q + r) :
    (x / y : ℚ) = q + r / y := by
  have nonzero : (y : ℚ) ≠ 0 := by exact_mod_cast divisor
  rw [sum]
  push_cast
  field_simp

theorem floor_div_eq (sum : x = y * q + r) (sided : Sided y r) : ⌊(x / y : ℚ)⌋ = q := by
  have fraction := sided.fraction
  rw [div_eq_add_fraction sided.divisor_ne sum, Int.floor_eq_iff]
  constructor <;> linarith

theorem ceil_div_eq (sum : x = y * q + r) (sided : Sided (-y) r) : ⌈(x / y : ℚ)⌉ = q := by
  have mirrored : x = -y * -q + r := by rw [neg_mul_neg, sum]
  have floor := floor_div_eq mirrored sided
  rw [Int.cast_neg, div_neg, Int.floor_neg] at floor
  exact neg_injective floor

/-- A remainder of division toward zero is on the side of the dividend. -/
theorem tmod_sided (x : Int) (divisor : y ≠ 0) :
    (x.tmod y).natAbs < y.natAbs ∧ (0 ≤ x → 0 ≤ x.tmod y) ∧ (x ≤ 0 → x.tmod y ≤ 0) := by
  refine ⟨?_, Int.tmod_nonneg y, fun nonpos => ?_⟩
  · rw [Int.natAbs_tmod]
    exact Nat.mod_lt _ (Int.natAbs_pos.mpr divisor)
  · have mirrored := Int.tmod_nonneg y (Int.neg_nonneg_of_nonpos nonpos)
    rw [Int.neg_tmod] at mirrored
    exact Int.neg_nonneg.mp mirrored

/-- Leaving out the fraction rounds toward zero. -/
theorem rounds_tdiv (x : Int) (divisor : y ≠ 0) :
    Rounding.truncate.Rounds (x / y : ℚ) (x.tdiv y) := by
  have sum := (Int.mul_tdiv_add_tmod x y).symm
  obtain ⟨small, nonneg, nonpos⟩ := tmod_sided x divisor
  show _ = if _ then _ else _
  simp only [div_nonneg_iff, Int.cast_nonneg_iff, Int.cast_nonpos]
  symm
  split
  next sameSide =>
    apply floor_div_eq sum
    unfold Sided
    omega
  next opposite =>
    apply ceil_div_eq sum
    unfold Sided
    omega

/-! ### Machine words -/

/-- The quotient of two machine integers is a machine integer: there is one, and the least integer
is not divided by minus one. -/
structure QuotientFits (a b : Int64) : Prop where
  divisor_ne : b ≠ 0
  not_least : ¬(a = Int64.minValue ∧ b = -1)

theorem toInt_eq_of_bmod {c : Int64} (wrapped : c.toInt = x.bmod (2 ^ 64)) (lower : -2 ^ 63 ≤ x)
    (upper : x < 2 ^ 63) : c.toInt = x := by
  rw [wrapped, Int.bmod_eq_of_le] <;> omega

theorem toInt_ne_zero (divisor : b ≠ 0) : b.toInt ≠ 0 := by
  intro zero
  exact divisor (Int64.toInt_inj.mp zero)

theorem toInt_bounds (a : Int64) : -2 ^ 63 ≤ a.toInt ∧ a.toInt < 2 ^ 63 :=
  ⟨a.minValue_le_toInt, Int.lt_add_one_of_le a.toInt_le⟩

theorem natAbs_toInt_lt (a : Int64) : a.toInt.natAbs < 2 ^ 64 := by
  have bounds := toInt_bounds a
  omega

theorem QuotientFits.toInt_div (fits : QuotientFits a b) :
    (a / b).toInt = a.toInt.tdiv b.toInt := by
  by_cases least : a = Int64.minValue
  · exact Int64.toInt_div_of_ne_right a b fun minusOne => fits.not_least ⟨least, minusOne⟩
  · exact Int64.toInt_div_of_ne_left a b least

theorem QuotientFits.div?_eq (fits : QuotientFits a b) : div? a b = some (a / b) := by
  unfold div?
  rw [← fits.toInt_div, fixed?_toInt]

/-- A quotient that leaves something over is far from the limits of a machine word. -/
theorem natAbs_tdiv_le (divisor : b ≠ 0) (rest : a.toInt.tmod b.toInt ≠ 0) :
    (a.toInt.tdiv b.toInt).natAbs ≤ 2 ^ 62 := by
  have small := (tmod_sided a.toInt (toInt_ne_zero divisor)).1
  have bounds := toInt_bounds a
  have large : 2 ≤ b.toInt.natAbs := by omega
  rw [Int.natAbs_tdiv]
  exact (Nat.div_le_div (by omega : a.toInt.natAbs ≤ 2 ^ 63) large (by decide)).trans (by decide)

/-- What is left over is left over in machine words. -/
theorem mod_eq_zero_iff : a % b = 0 ↔ a.toInt.tmod b.toInt = 0 := by
  rw [← Int64.toInt_mod, ← Int64.toInt_zero, Int64.toInt_inj]

theorem lt_zero_iff : a < 0 ↔ a.toInt < 0 := Int64.lt_iff_toInt_lt

/-- What the quotient rounded down leaves over is found modulo `2 ^ 64`, also where the product that
is taken from the dividend does not fit. -/
theorem toInt_sub_floorDiv_mul (sided : Sided b.toInt r)
    (sum : a.toInt = b.toInt * (floorDiv a b).toInt + r) :
    (a - floorDiv a b * b).toInt = r := by
  have bounds := toInt_bounds b
  unfold Sided at sided
  apply toInt_eq_of_bmod
  · rw [Int64.toInt_sub, Int64.toInt_mul, Int.sub_bmod_bmod, mul_comm, sum, add_sub_cancel_left]
  · omega
  · omega

section Quotient

variable (fits : QuotientFits a b)
include fits

theorem QuotientFits.toInt_div_sub_one (rest : a.toInt.tmod b.toInt ≠ 0) :
    (a / b - 1).toInt = a.toInt.tdiv b.toInt - 1 := by
  have far := natAbs_tdiv_le fits.divisor_ne rest
  apply toInt_eq_of_bmod
  · rw [Int64.toInt_sub, fits.toInt_div, Int64.toInt_one]
  · omega
  · omega

theorem QuotientFits.toInt_div_add_one (rest : a.toInt.tmod b.toInt ≠ 0) :
    (a / b + 1).toInt = a.toInt.tdiv b.toInt + 1 := by
  have far := natAbs_tdiv_le fits.divisor_ne rest
  apply toInt_eq_of_bmod
  · rw [Int64.toInt_add, fits.toInt_div, Int64.toInt_one]
  · omega
  · omega

/-- Where the remainder is on the wrong side, the quotient is moved down by one; what is left over
then is on the side of the divisor. -/
theorem QuotientFits.exists_sided_floorDiv :
    ∃ r, Sided b.toInt r ∧ a.toInt = b.toInt * (floorDiv a b).toInt + r ∧
      (r ≠ 0 → (floorDiv a b).toInt < 2 ^ 62 + 1) := by
  have sum := Int.mul_tdiv_add_tmod a.toInt b.toInt
  obtain ⟨small, nonneg, nonpos⟩ := tmod_sided a.toInt (toInt_ne_zero fits.divisor_ne)
  have far := natAbs_tdiv_le (a := a) fits.divisor_ne
  unfold Sided floorDiv
  simp only [ne_eq, decide_eq_decide, mod_eq_zero_iff, lt_zero_iff]
  split
  next corrected =>
    rw [fits.toInt_div_sub_one corrected.1, mul_sub]
    exact ⟨a.toInt.tmod b.toInt + b.toInt, by omega, by omega, by omega⟩
  next kept =>
    rw [fits.toInt_div]
    exact ⟨a.toInt.tmod b.toInt, by omega, by omega, by omega⟩

theorem QuotientFits.toInt_floorDiv :
    (floorDiv a b).toInt = ⌊(a.toInt / b.toInt : ℚ)⌋ := by
  obtain ⟨r, sided, sum, -⟩ := fits.exists_sided_floorDiv
  exact (floor_div_eq sum sided).symm

/-- Where the remainder is on the wrong side, the quotient is moved up by one. -/
theorem QuotientFits.toInt_ceilDiv :
    (ceilDiv a b).toInt = ⌈(a.toInt / b.toInt : ℚ)⌉ := by
  have sum := (Int.mul_tdiv_add_tmod a.toInt b.toInt).symm
  obtain ⟨small, nonneg, nonpos⟩ := tmod_sided a.toInt (toInt_ne_zero fits.divisor_ne)
  unfold ceilDiv
  simp only [ne_eq, decide_eq_decide, mod_eq_zero_iff, lt_zero_iff]
  split
  next corrected =>
    rw [fits.toInt_div_add_one corrected.1]
    symm
    apply ceil_div_eq (r := a.toInt.tmod b.toInt - b.toInt)
    · linarith
    · unfold Sided
      omega
  next kept =>
    rw [fits.toInt_div]
    symm
    apply ceil_div_eq sum
    unfold Sided
    omega

end Quotient

/-- The remainder on the side of the divisor. -/
def floorMod (a b : Int64) : Int64 :=
  let r := a % b
  if r ≠ 0 ∧ decide (r < 0) ≠ decide (b < 0) then r + b else r

/-- Where the remainder of division toward zero is on the other side, the divisor is added to it.
This does not ask for the quotient to fit. -/
theorem sided_floorMod (divisor : b ≠ 0) :
    Sided b.toInt (floorMod a b).toInt ∧ ∃ q, a.toInt = b.toInt * q + (floorMod a b).toInt := by
  have sum := Int.mul_tdiv_add_tmod a.toInt b.toInt
  obtain ⟨small, nonneg, nonpos⟩ := tmod_sided a.toInt (toInt_ne_zero divisor)
  have bounds := toInt_bounds b
  unfold Sided floorMod
  simp only [ne_eq, decide_eq_decide, mod_eq_zero_iff, lt_zero_iff, Int64.toInt_mod]
  split
  next corrected =>
    have moved : (a % b + b).toInt = a.toInt.tmod b.toInt + b.toInt := by
      apply toInt_eq_of_bmod
      · rw [Int64.toInt_add, Int64.toInt_mod]
      · omega
      · omega
    rw [moved]
    refine ⟨by omega, a.toInt.tdiv b.toInt - 1, ?_⟩
    rw [mul_sub]
    omega
  next kept =>
    rw [Int64.toInt_mod]
    exact ⟨by omega, a.toInt.tdiv b.toInt, sum.symm⟩

/-! ### Rounding to the nearest integer -/

/-- A number between two integers is rounded to the nearer of them. -/
theorem rounds_nearest {up : Prop} [Decidable up] {f : ℚ} (fraction : 0 ≤ f ∧ f < 1)
    (rule : up ↔ 1 / 2 < f ∨ f = 1 / 2 ∧ ¬Even q) :
    Rounding.nearest.Rounds (q + f) (if up then q + 1 else q) := by
  obtain ⟨nonneg, below⟩ := fraction
  show |_ - _| ≤ _ ∧ (|_ - _| = _ → Even _)
  split
  next isUp =>
    have half : 1 / 2 ≤ f := by
      obtain above | ⟨tie, -⟩ := rule.mp isUp
      · exact above.le
      · exact tie.ge
    have distance : |(q + f : ℚ) - ((q + 1 : ℤ) : ℚ)| = 1 - f := by
      rw [abs_of_nonpos] <;> push_cast <;> linarith
    rw [distance]
    refine ⟨by linarith, fun tie => ?_⟩
    obtain above | ⟨-, odd⟩ := rule.mp isUp
    · linarith
    · exact Int.even_add_one.mpr odd
  next isDown =>
    rw [rule, not_or, not_and, not_not, not_lt] at isDown
    have distance : |(q + f : ℚ) - q| = f := by
      rw [add_sub_cancel_left, abs_of_nonneg nonneg]
    rw [distance]
    exact isDown

/-- Twice the remainder is compared with the divisor on the side where both are. -/
theorem upward_iff (sided : Sided y r) (odd : Prop) :
    (if 0 < y then y < r * 2 ∨ (r * 2 = y ∧ odd) else r * 2 < y ∨ (r * 2 = y ∧ odd)) ↔
      1 / 2 < (r / y : ℚ) ∨ (r / y : ℚ) = 1 / 2 ∧ odd := by
  have nonzero : (y : ℚ) ≠ 0 := by exact_mod_cast sided.divisor_ne
  have tie : (r / y : ℚ) = 1 / 2 ↔ r * 2 = y := by
    rw [div_eq_div_iff nonzero two_ne_zero, one_mul]
    exact_mod_cast Iff.rfl
  rw [tie]
  split
  next positive =>
    rw [div_lt_div_iff₀ two_pos (by exact_mod_cast positive), one_mul]
    exact_mod_cast Iff.rfl
  next negative =>
    have below : (y : ℚ) < 0 := by
      exact_mod_cast lt_of_le_of_ne (not_lt.mp negative) sided.divisor_ne
    have twice : (r : ℚ) < 1 / 2 * y ↔ r * 2 < y := by
      rw [one_div_mul_eq_div, lt_div_iff₀ two_pos]
      exact_mod_cast Iff.rfl
    rw [lt_div_iff_of_neg below, twice]

/-- The remainder of the quotient rounded down decides between it and the next integer.  Where the
next integer is taken something is left over, so there is one. -/
theorem toInt_roundDiv (sided : Sided b.toInt r)
    (sum : a.toInt = b.toInt * (floorDiv a b).toInt + r)
    (far : r ≠ 0 → (floorDiv a b).toInt < 2 ^ 62 + 1) :
    (roundDiv a b).toInt =
      if 1 / 2 < (r / b.toInt : ℚ) ∨ (r / b.toInt : ℚ) = 1 / 2 ∧ (floorDiv a b).toInt % 2 ≠ 0
      then (floorDiv a b).toInt + 1 else (floorDiv a b).toInt := by
  unfold roundDiv
  simp only [toInt_sub_floorDiv_mul sided sum, upward_iff sided]
  split
  next up =>
    have rest : r ≠ 0 := by
      rintro rfl
      norm_num at up
    have lower := (toInt_bounds (floorDiv a b)).1
    have upper := far rest
    apply toInt_eq_of_bmod
    · rw [Int64.toInt_add, Int64.toInt_one]
    · omega
    · omega
  next => rfl

theorem QuotientFits.rounds_roundDiv (fits : QuotientFits a b) :
    Rounding.nearest.Rounds (a.toInt / b.toInt : ℚ) (roundDiv a b).toInt := by
  obtain ⟨r, sided, sum, far⟩ := fits.exists_sided_floorDiv
  have odd : (floorDiv a b).toInt % 2 ≠ 0 ↔ ¬Even (floorDiv a b).toInt := by
    rw [ne_eq, ← Int.even_iff]
  rw [toInt_roundDiv sided sum far, div_eq_add_fraction sided.divisor_ne sum]
  exact rounds_nearest sided.fraction (by rw [odd])

/-! ### All ways of rounding -/

/-- The quotient of machine words, rounded in some way. -/
def Rounding.quotient : Rounding → Int64 → Int64 → Int64
  | .floor => floorDiv
  | .ceiling => ceilDiv
  | .truncate => (· / ·)
  | .nearest => roundDiv

theorem QuotientFits.rounds_quotient (fits : QuotientFits a b) (how : Rounding) :
    how.Rounds (a.toInt / b.toInt : ℚ) (how.quotient a b).toInt := by
  cases how with
  | floor => exact fits.toInt_floorDiv
  | ceiling => exact fits.toInt_ceilDiv
  | truncate =>
      show Rounding.truncate.Rounds _ (a / b).toInt
      rw [fits.toInt_div]
      exact rounds_tdiv _ (toInt_ne_zero fits.divisor_ne)
  | nearest => exact fits.rounds_roundDiv

/-- A remainder is what a rounded quotient leaves over. -/
def Rounding.LeavesOver (how : Rounding) (a b r : Int64) : Prop :=
  ∃ q, how.Rounds (a.toInt / b.toInt : ℚ) q ∧ a.toInt = b.toInt * q + r.toInt

/-- There are remainders wherever there is a divisor, also where the quotient does not fit. -/
theorem leavesOver_floorMod (a : Int64) (divisor : b ≠ 0) :
    Rounding.floor.LeavesOver a b (floorMod a b) := by
  obtain ⟨sided, q, sum⟩ := sided_floorMod (a := a) divisor
  exact ⟨q, (floor_div_eq sum sided).symm, sum⟩

theorem leavesOver_mod (a : Int64) (divisor : b ≠ 0) :
    Rounding.truncate.LeavesOver a b (a % b) := by
  refine ⟨_, rounds_tdiv a.toInt (toInt_ne_zero divisor), ?_⟩
  rw [Int64.toInt_mod, Int.mul_tdiv_add_tmod]

/-!
## Shifts of machine integers

A shift to the right by any number of places divides by a power of two and rounds down: once all
bits but the sign are out, that is what remains.

A shift to the left multiplies by a power of two, if the product fits.  Whether it does is seen by
shifting back: as long as the distance is below the word size, the bits that were pushed out do not
come back.  Beyond the word size no product fits, except that of zero, which is refused like the
others.
-/

variable {d : Nat}

/-! ### Distances below the word size -/

theorem toNat_distance : ∀ d < 64, ((Int64.ofNat d).toBitVec.smod 64).toNat = d := by
  decide +kernel

theorem toInt_shiftRight (a : Int64) (inside : d < 64) :
    (a >>> Int64.ofNat d).toInt = a.toInt / 2 ^ d := by
  rw [← Int64.toInt_toBitVec, Int64.toBitVec_shiftRight, BitVec.toInt_sshiftRight',
    Int64.toInt_toBitVec, Int.shiftRight_eq_div_pow, toNat_distance d inside, Nat.cast_pow]
  rfl

theorem toInt_shiftLeft (a : Int64) (inside : d < 64) :
    (a <<< Int64.ofNat d).toInt = (a.toInt * 2 ^ d).bmod (2 ^ 64) := by
  rw [← Int64.toInt_toBitVec, Int64.toBitVec_shiftLeft, BitVec.shiftLeft_eq',
    toNat_distance d inside, BitVec.toInt_shiftLeft, Nat.shiftLeft_eq, ← Int64.toInt_toBitVec a,
    BitVec.toInt_eq_toNat_bmod a.toBitVec, Int.bmod_mul_bmod]
  push_cast
  rfl

/-- The low bits of a shifted integer are zero, also where high ones are lost. -/
theorem dvd_toInt_shiftLeft (a : Int64) (inside : d < 64) :
    (2 ^ d : Int) ∣ (a <<< Int64.ofNat d).toInt := by
  have wrapped := Int.bmod_add_bdiv (a.toInt * 2 ^ d) (2 ^ 64)
  rw [← toInt_shiftLeft a inside] at wrapped
  rw [eq_sub_of_add_eq wrapped]
  have word : ((2 ^ d : Nat) : Int) ∣ ((2 ^ 64 : Nat) : Int) :=
    Int.natCast_dvd_natCast.mpr (Nat.pow_dvd_pow 2 inside.le)
  rw [Nat.cast_pow] at word
  exact Int.dvd_sub (Int.dvd_mul_left _ _) (Int.dvd_mul_of_dvd_left word)

/-- Shifting to the left and back is the identity if the product fits, and only then. -/
theorem shiftLeft_shiftRight_eq_iff (a : Int64) (inside : d < 64) :
    (a <<< Int64.ofNat d) >>> Int64.ofNat d = a ↔
      (a <<< Int64.ofNat d).toInt = a.toInt * 2 ^ d := by
  have positive : (0 : Int) < 2 ^ d := Int.pow_pos (by decide)
  rw [← Int64.toInt_inj, toInt_shiftRight _ inside,
    Int.ediv_eq_iff_eq_mul_left positive.ne' (dvd_toInt_shiftLeft a inside)]

/-! ### Any distance -/

theorem shiftLeft?_eq_of_lt (a : Int64) (inside : d < 64) :
    shiftLeft? a d = fixed? (a.toInt * 2 ^ d) := by
  unfold shiftLeft?
  rw [if_neg (Nat.not_le_of_lt inside)]
  simp only [shiftLeft_shiftRight_eq_iff a inside]
  split
  next fits => exact (fixed?_eq_some_iff.mpr fits.symm).symm
  next lost =>
    symm
    rw [fixed?_eq_none_iff]
    by_contra within
    rw [not_or, not_lt, not_lt] at within
    refine lost ((toInt_shiftLeft a inside).trans (Int.bmod_eq_of_le ?_ ?_))
    · exact within.1
    · exact Int.lt_add_one_of_le within.2

/-- Any integer but zero is lost beyond the word size. -/
theorem fixed?_mul_eq_none (nonzero : a ≠ 0) (beyond : 64 ≤ d) :
    fixed? (a.toInt * 2 ^ d) = none := by
  have magnitude : 1 ≤ a.toInt.natAbs := by
    rw [Nat.one_le_iff_ne_zero, Int.natAbs_ne_zero]
    exact toInt_ne_zero nonzero
  have large : 2 ^ 64 ≤ (a.toInt * 2 ^ d).natAbs := by
    rw [Int.natAbs_mul, Int.natAbs_pow]
    exact (Nat.pow_le_pow_right (by decide) beyond).trans (Nat.le_mul_of_pos_left _ magnitude)
  rw [fixed?_eq_none_iff, Int64.toInt_minValue, Int64.toInt_maxValue]
  omega

theorem shiftLeft?_eq (counted : a ≠ 0 ∨ d < 64) : shiftLeft? a d = fixed? (a.toInt * 2 ^ d) := by
  obtain inside | beyond := Nat.lt_or_ge d 64
  · exact shiftLeft?_eq_of_lt a inside
  · rw [fixed?_mul_eq_none (counted.resolve_right (Nat.not_lt_of_le beyond)) beyond]
    exact if_pos beyond

/-- From the word size on only the sign is left. -/
theorem ediv_two_pow_of_le (a : Int64) (large : 63 ≤ d) :
    a.toInt / 2 ^ d = if a.toInt < 0 then -1 else 0 := by
  have bounds := toInt_bounds a
  have power : (2 ^ 63 : Int) ≤ 2 ^ d := by
    exact_mod_cast Nat.pow_le_pow_right (by decide : 0 < 2) large
  split
  next negative => exact Int.ediv_eq_neg_one_of_neg_of_le negative (by omega)
  next positive => exact Int.ediv_eq_zero_of_lt (by omega) (by omega)

theorem toInt_shiftRight_eq (a : Int64) (d : Nat) :
    (shiftRight a d).toInt = ⌊(a.toInt / 2 ^ d : ℚ)⌋ := by
  have floor := Rat.floor_intCast_div_natCast a.toInt (2 ^ d)
  push_cast at floor
  rw [floor]
  unfold shiftRight
  obtain inside | beyond := Nat.lt_or_ge d 63
  · rw [min_eq_left inside.le]
    exact toInt_shiftRight a (Nat.lt_succ_of_lt inside)
  · rw [min_eq_right beyond, toInt_shiftRight a (by decide), ediv_two_pow_of_le a le_rfl,
      ediv_two_pow_of_le a beyond]

end EditorLisp.Number
