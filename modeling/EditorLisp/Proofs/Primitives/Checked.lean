import EditorLisp.Proofs.Primitives.Arithmetic

/-!
# Rounded quotients in checked arithmetic

Quotients of integers are rounded in machine words.  Here they are found with every quotient,
difference, sum and product on the way checked for whether it fits.

Rounded down and rounded up, nothing leaves the machine words: a quotient that is corrected by one
is far from their limits.  To round to the nearest integer, the quotient rounded down is multiplied
by the divisor again, and the product is the next multiple of the divisor from the dividend: below
it for a positive divisor, above it for a negative one.  Close to the limits of the machine words
there may be no such multiple among them, and only then an intermediate result is lost.  What is
left over is smaller than the divisor and fits again.
-/

namespace EditorLisp.Number

variable {a b : Int64} {x y q r : Int}

/-- The quotient rounded down, if every intermediate result fits. -/
def floorDiv? (a b : Int64) : Option Int64 := do
  let q ← div? a b
  let r ← rem? a b
  if r ≠ 0 ∧ decide (a < 0) ≠ decide (b < 0) then sub? q 1 else some q

/-- The quotient rounded up, if every intermediate result fits. -/
def ceilDiv? (a b : Int64) : Option Int64 := do
  let q ← div? a b
  let r ← rem? a b
  if r ≠ 0 ∧ decide (a < 0) = decide (b < 0) then add? q 1 else some q

/-- The quotient rounded to the nearest integer, if every intermediate result fits.  Twice the
remainder is compared with the divisor in wider words, and there the result is found, too. -/
def nearestDiv? (a b : Int64) : Option Int64 := do
  let q ← floorDiv? a b
  let product ← mul? q b
  let r ← sub? a product
  let twice := r.toInt * 2
  let odd := q.toInt % 2 ≠ 0
  let up :=
    if 0 < b.toInt then b.toInt < twice ∨ (twice = b.toInt ∧ odd)
    else twice < b.toInt ∨ (twice = b.toInt ∧ odd)
  fixed? (if up then q.toInt + 1 else q.toInt)

/-- The quotient of machine words, rounded in some way, if every intermediate result fits. -/
def Rounding.quotient? : Rounding → Int64 → Int64 → Option Int64
  | .floor => floorDiv?
  | .ceiling => ceilDiv?
  | .truncate => div?
  | .nearest => nearestDiv?

/-- The dividend without its remainder, which has the sign of the divisor, is a machine integer. -/
def MultipleFits (a b : Int64) : Prop :=
  Int64.minValue.toInt ≤ a.toInt - a.toInt.fmod b.toInt ∧
    a.toInt - a.toInt.fmod b.toInt ≤ Int64.maxValue.toInt

instance : Decidable (MultipleFits a b) := inferInstanceAs (Decidable (_ ∧ _))

/-- The remainder on the side of the divisor is unique. -/
theorem Sided.fmod_eq (sided : Sided y r) (sum : x = y * q + r) : x.fmod y = r := by
  rw [sum, Int.mul_add_fmod_self_left]
  obtain ⟨nonneg, below⟩ | ⟨above, nonpos⟩ := sided
  · exact Int.fmod_eq_of_lt nonneg below
  · have mirrored := Int.fmod_eq_of_lt (Int.neg_nonneg_of_nonpos nonpos) (Int.neg_lt_neg above)
    rw [Int.neg_fmod_neg] at mirrored
    exact Int.neg_inj.mp mirrored

section Quotient

variable (fits : QuotientFits a b)
include fits

/-! ### Rounding down and up -/

theorem QuotientFits.floorDiv?_eq : floorDiv? a b = some (floorDiv a b) := by
  unfold floorDiv? floorDiv
  rw [fits.div?_eq, Primitives.rem?_eq fits]
  show (if _ then sub? (a / b) 1 else some (a / b)) = some (if _ then _ else _)
  split
  next corrected =>
    have moved := fits.toInt_div_sub_one (mt mod_eq_zero_iff.mpr corrected.1)
    unfold sub?
    rw [fits.toInt_div, Int64.toInt_one, ← moved, fixed?_toInt]
  next => rfl

theorem QuotientFits.ceilDiv?_eq : ceilDiv? a b = some (ceilDiv a b) := by
  unfold ceilDiv? ceilDiv
  rw [fits.div?_eq, Primitives.rem?_eq fits]
  show (if _ then add? (a / b) 1 else some (a / b)) = some (if _ then _ else _)
  split
  next corrected =>
    have moved := fits.toInt_div_add_one (mt mod_eq_zero_iff.mpr corrected.1)
    unfold add?
    rw [fits.toInt_div, Int64.toInt_one, ← moved, fixed?_toInt]
  next => rfl

/-! ### Rounding to the nearest integer -/

theorem QuotientFits.toInt_floorDiv_mul :
    (floorDiv a b).toInt * b.toInt = a.toInt - a.toInt.fmod b.toInt := by
  obtain ⟨r, sided, sum, -⟩ := fits.exists_sided_floorDiv
  rw [sided.fmod_eq sum, mul_comm]
  exact eq_sub_of_add_eq sum.symm

theorem QuotientFits.mul?_floorDiv_eq_none_iff :
    mul? (floorDiv a b) b = none ↔ ¬MultipleFits a b := by
  unfold mul? MultipleFits
  rw [fits.toInt_floorDiv_mul, fixed?_eq_none_iff, not_and_or, not_le, not_le]

/-- The difference fits, whether the product does or not. -/
theorem QuotientFits.exists_remainder :
    ∃ r : Int64, r.toInt = a.toInt - (floorDiv a b).toInt * b.toInt := by
  obtain ⟨r, sided, sum, -⟩ := fits.exists_sided_floorDiv
  refine ⟨a - floorDiv a b * b, ?_⟩
  rw [toInt_sub_floorDiv_mul sided sum, mul_comm]
  exact eq_sub_of_add_eq' sum.symm

/-- Beyond the product nothing is lost. -/
theorem QuotientFits.nearestDiv?_eq_roundDiv? : nearestDiv? a b = roundDiv? a b := by
  obtain ⟨r, sided, sum, far⟩ := fits.exists_sided_floorDiv
  unfold nearestDiv? roundDiv?
  rw [fits.floorDiv?_eq]
  show (mul? (floorDiv a b) b >>= _) = _
  cases product : mul? (floorDiv a b) b with
  | none => rfl
  | some p =>
      -- where the product is exact, so is the remainder, and that decides on the next integer
      have exact : p.toInt = b.toInt * (floorDiv a b).toInt := by
        rw [← fixed?_eq_some_iff.mp product, mul_comm]
      have left : sub? a p = some (a - floorDiv a b * b) := by
        unfold sub?
        rw [exact, sum, add_sub_cancel_left, ← toInt_sub_floorDiv_mul sided sum, fixed?_toInt]
      show (sub? a p >>= _) = some (roundDiv a b)
      rw [left]
      show fixed? (if _ then _ else _) = _
      simp only [toInt_sub_floorDiv_mul sided sum, upward_iff sided]
      rw [← toInt_roundDiv sided sum far, fixed?_toInt]

theorem QuotientFits.nearestDiv?_eq :
    nearestDiv? a b = if MultipleFits a b then some (roundDiv a b) else none := by
  rw [fits.nearestDiv?_eq_roundDiv?]
  unfold roundDiv?
  split
  next inside =>
    obtain ⟨p, product⟩ :=
      Option.ne_none_iff_exists'.mp (mt fits.mul?_floorDiv_eq_none_iff.mp (not_not_intro inside))
    rw [product]
    rfl
  next outside =>
    rw [fits.mul?_floorDiv_eq_none_iff.mpr outside]
    rfl

end Quotient

end EditorLisp.Number

namespace EditorLisp.Primitives

open Eval Number

variable {a b : Int64}

/-- What a rounding function does with integers that have a quotient. -/
theorem rounding_of_fits (fits : QuotientFits a b) (name : String) (how : Rounding)
    (onInts? : Int64 → Int64 → Option Int64) (I : Interp) (s : Session) :
    rounding name how onInts? I [.int a, .int b] s =
      match onInts? a b with
      | some q => .ok (.int q) s
      | none => .crashed s := by
  have called := rounding_ints name how onInts? I a b s
  rw [if_neg fits.divisor_ne, if_neg fits.not_least] at called
  exact called

/-- The rounding functions are the ones in checked arithmetic. -/
theorem callPrimitive_checked (fits : QuotientFits a b) (I : Interp) (how : Rounding)
    (s : Session) :
    callPrimitive I (roundingName how) [.int a, .int b] s =
      match how.quotient? a b with
      | some q => .ok (.int q) s
      | none => .crashed s := by
  obtain ⟨onInts?, called, same⟩ : ∃ onInts?,
      callPrimitive I (roundingName how) = rounding (roundingName how) how onInts? I ∧
        onInts? a b = how.quotient? a b := by
    cases how with
    | floor => exact ⟨_, callPrimitive_of_arithmetic I rfl, fits.floorDiv?_eq.symm⟩
    | ceiling => exact ⟨_, callPrimitive_of_arithmetic I rfl, fits.ceilDiv?_eq.symm⟩
    | truncate => exact ⟨_, callPrimitive_of_arithmetic I rfl, fits.div?_eq.symm⟩
    | nearest => exact ⟨_, callPrimitive_of_arithmetic I rfl, fits.nearestDiv?_eq_roundDiv?.symm⟩
  rw [called, rounding_of_fits fits, same]

/-- For integers that have a quotient, rounding it down or up loses no intermediate result.
Rounding to the nearest integer loses none but the product of the quotient rounded down and the
divisor, and that one where the dividend without its remainder does not fit.  The functions of
programs return the quotient or crash accordingly. -/
theorem quotients_checked (fits : QuotientFits a b) :
    floorDiv? a b = some (floorDiv a b) ∧ ceilDiv? a b = some (ceilDiv a b) ∧
      (mul? (floorDiv a b) b = none ↔ ¬MultipleFits a b) ∧
      (∃ r : Int64, r.toInt = a.toInt - (floorDiv a b).toInt * b.toInt) ∧
      nearestDiv? a b = (if MultipleFits a b then some (roundDiv a b) else none) ∧
      ∀ (I : Interp) (how : Rounding) (s : Session),
        callPrimitive I (roundingName how) [.int a, .int b] s =
          match how.quotient? a b with
          | some q => .ok (.int q) s
          | none => .crashed s :=
  ⟨fits.floorDiv?_eq, fits.ceilDiv?_eq, fits.mul?_floorDiv_eq_none_iff, fits.exists_remainder,
    fits.nearestDiv?_eq, callPrimitive_checked fits⟩

/-- The greatest integer and two: the half between the quotient rounded down and the one rounded up
goes to the even neighbour. -/
theorem quotients_checked_half :
    let s : Session := {}
    QuotientFits Int64.maxValue 2 ∧ MultipleFits Int64.maxValue 2 ∧
      floorDiv? Int64.maxValue 2 = some 4611686018427387903 ∧
      ceilDiv? Int64.maxValue 2 = some 4611686018427387904 ∧
      callPrimitive .top "round" [.int Int64.maxValue, .int 2] s =
        .ok (.int 4611686018427387904) s := by
  intro s
  have fits : QuotientFits Int64.maxValue 2 := ⟨by decide, by decide⟩
  have inside : MultipleFits Int64.maxValue 2 := by decide
  obtain ⟨floor, ceiling, -, -, nearest, called⟩ := quotients_checked fits
  rw [if_pos inside] at nearest
  refine ⟨fits, inside, floor, ceiling, ?_⟩
  exact (called .top .nearest s).trans (by rw [Rounding.quotient?, nearest]; rfl)

/-- The next multiple of three below the least integer does not fit, and neither does the next
multiple of two above the greatest. -/
theorem not_quotients_checked_limits :
    let s : Session := {}
    QuotientFits Int64.minValue 3 ∧ QuotientFits Int64.maxValue (-2) ∧
      mul? (floorDiv Int64.minValue 3) 3 = none ∧ mul? (floorDiv Int64.maxValue (-2)) (-2) = none ∧
      callPrimitive .top "round" [.int Int64.minValue, .int 3] s = .crashed s ∧
      callPrimitive .top "round" [.int Int64.maxValue, .int (-2)] s = .crashed s := by
  intro s
  refine ⟨⟨by decide, by decide⟩, ⟨by decide, by decide⟩, by decide, by decide, ?_, ?_⟩
  · rw [callPrimitive_of_arithmetic .top rfl]
    rfl
  · rw [callPrimitive_of_arithmetic .top rfl]
    rfl

end EditorLisp.Primitives
