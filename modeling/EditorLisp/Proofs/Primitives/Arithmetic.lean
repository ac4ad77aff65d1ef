import EditorLisp.Proofs.Evaluation.Call
import EditorLisp.Proofs.Number.Fixnum
import EditorLisp.Proofs.Number.Nearest

/-!
# Arithmetic of integers

The functions of programs that divide, take remainders and shift are exact on integers: they return
the mathematical result, rounded in their way, or signal that there is none.

Two results are refused although they fit.  A remainder is taken together with its quotient, so
there is none where the quotient does not fit; and zero, shifted to the left by the word size or
more, counts as lost like any other number.
-/

namespace EditorLisp.Primitives

open Eval Number

variable {s : Session} {a b v n : Int64}

/-! ## Rounded quotients -/

/-- The name of the function that rounds in some way. -/
def roundingName : Rounding → String
  | .floor => "floor"
  | .ceiling => "ceiling"
  | .truncate => "truncate"
  | .nearest => "round"

/-- What a rounding function does with two integers. -/
theorem rounding_ints (name : String) (how : Rounding)
    (onInts? : Int64 → Int64 → Option Int64) (I : Interp) (a b : Int64) (s : Session) :
    rounding name how onInts? I [.int a, .int b] s =
      if b = 0 then .exit (.signal "arith-error" .nil) s
      else if a = Int64.minValue ∧ b = -1 then .exit (.signal "overflow-error" .nil) s
      else
        match onInts? a b with
        | some q => .ok (.int q) s
        | none => .crashed s := by
  have counted : between name [.int a, .int b] 1 2 s = .ok () s := rfl
  unfold rounding
  rw [bind_of_ok _ counted]
  show (if b == 0 then divisionByZero
    else if a == Int64.minValue && b == -1 then fits none
    else granted (onInts? a b) >>= fun q => pure (Value.int q)) s = _
  simp only [beq_iff_eq, Bool.and_eq_true]
  split
  · rfl
  split
  · rfl
  cases onInts? a b <;> rfl

/-- What a rounding function answers for two integers. -/
structure RoundsQuotient (how : Rounding) (a b : Int64) (s : Session) (outcome : Outcome Value) :
    Prop where
  arithError : outcome = .exit (.signal "arith-error" .nil) s ↔ b = 0
  overflowError : outcome = .exit (.signal "overflow-error" .nil) s ↔ a = Int64.minValue ∧ b = -1
  exact : b ≠ 0 → ¬(a = Int64.minValue ∧ b = -1) →
    ∃ q : Int64, outcome = .ok (.int q) s ∧
      ∀ n, how.Rounds (a.toInt / b.toInt : ℚ) n ↔ n = q.toInt

/-- A rounding function with all of its arithmetic modulo `2 ^ 64`. -/
def roundingModulo (how : Rounding) : Primitive :=
  rounding (roundingName how) how fun a b => some (how.quotient a b)

theorem roundsQuotient_roundingModulo (I : Interp) (how : Rounding) (a b : Int64) (s : Session) :
    RoundsQuotient how a b s (roundingModulo how I [.int a, .int b] s) := by
  unfold roundingModulo
  rw [rounding_ints]
  by_cases zero : b = 0
  · rw [if_pos zero]
    have nonzero : b ≠ -1 := by
      rw [zero]
      decide
    exact ⟨iff_of_true rfl zero, by simp [nonzero], fun divisor => (divisor zero).elim⟩
  rw [if_neg zero]
  by_cases least : a = Int64.minValue ∧ b = -1
  · rw [if_pos least]
    exact ⟨by simp [zero], iff_of_true rfl least, fun _ fits => (fits least).elim⟩
  rw [if_neg least]
  refine ⟨by simp [zero], by simp [least], fun _ _ => ⟨how.quotient a b, rfl, fun n => ?_⟩⟩
  have rounds := (QuotientFits.mk zero least).rounds_quotient how
  exact ⟨fun rounded => rounded.unique rounds, fun eq => eq ▸ rounds⟩

theorem callPrimitive_rounding (I : Interp) {how : Rounding} (direct : how ≠ .nearest) :
    callPrimitive I (roundingName how) = roundingModulo how I := by
  cases how with
  | floor => exact callPrimitive_of_arithmetic I rfl
  | ceiling => exact callPrimitive_of_arithmetic I rfl
  | truncate => exact callPrimitive_of_arithmetic I rfl
  | nearest => exact (direct rfl).elim

/-- Rounding to the nearest integer takes a product for granted, and nothing else. -/
theorem callPrimitive_round (I : Interp) (a b : Int64) (s : Session) :
    callPrimitive I "round" [.int a, .int b] s = roundingModulo .nearest I [.int a, .int b] s ∨
      mul? (floorDiv a b) b = none ∧ callPrimitive I "round" [.int a, .int b] s = .crashed s := by
  have called : callPrimitive I "round" = rounding "round" .nearest roundDiv? I :=
    callPrimitive_of_arithmetic I rfl
  unfold roundingModulo
  rw [called, rounding_ints, rounding_ints]
  split
  · exact .inl rfl
  split
  · exact .inl rfl
  unfold roundDiv?
  cases product : mul? (floorDiv a b) b with
  | none => exact .inr ⟨rfl, rfl⟩
  | some p => exact .inl rfl

/-- With arithmetic modulo `2 ^ 64` the rounding functions signal an error for a divisor of zero and
where the quotient does not fit, and for no other integers; otherwise they return the quotient of
the two as rational numbers, rounded in their way.  The primitives are these functions, except that
the product by which the nearest integer is found has to fit. -/
theorem rounds_quotient_modulo (I : Interp) (how : Rounding) (a b : Int64) (s : Session) :
    RoundsQuotient how a b s (roundingModulo how I [.int a, .int b] s) ∧
      (callPrimitive I (roundingName how) [.int a, .int b] s =
          roundingModulo how I [.int a, .int b] s ∨
        how = .nearest ∧ mul? (floorDiv a b) b = none ∧
          callPrimitive I (roundingName how) [.int a, .int b] s = .crashed s) := by
  refine ⟨roundsQuotient_roundingModulo I how a b s, ?_⟩
  by_cases nearest : how = .nearest
  · subst nearest
    exact (callPrimitive_round I a b s).imp_right fun crashed => ⟨rfl, crashed⟩
  · exact .inl (congrFun (congrFun (callPrimitive_rounding I nearest) _) s)

/-! ## Remainders -/

theorem rem?_eq (fits : QuotientFits a b) : rem? a b = some (a % b) := by
  unfold rem?
  rw [fits.div?_eq]
  rfl

theorem rem?_least : rem? Int64.minValue (-1) = none := rfl

theorem percent_eq (I : Interp) (divisor : b ≠ 0) (s : Session) :
    callPrimitive I "%" [.int a, .int b] s = (fits (rem? a b) >>= fun r => pure (.int r)) s := by
  have checked : percent I [.int a, .int b] s =
      (if b == 0 then divisionByZero else fits (rem? a b) >>= fun r => pure (.int r)) s := rfl
  rw [callPrimitive_of_arithmetic I rfl, checked, beq_false_of_ne divisor]
  rfl

theorem modulo_eq (I : Interp) (divisor : b ≠ 0) (s : Session) :
    callPrimitive I "mod" [.int a, .int b] s =
      (fits (rem? a b) >>= fun r =>
        pure (.int (if r ≠ 0 ∧ decide (r < 0) ≠ decide (b < 0) then r + b else r))) s := by
  have checked : modulo I [.int a, .int b] s =
      (if b == 0 then divisionByZero
      else fits (rem? a b) >>= fun r =>
        pure (.int (if r ≠ 0 ∧ decide (r < 0) ≠ decide (b < 0) then r + b else r))) s := rfl
  rw [callPrimitive_of_arithmetic I rfl, checked, beq_false_of_ne divisor]
  rfl

/-- Where there is a divisor, there are the remainders that the quotients rounded down and toward
zero leave over.  They are returned where the quotient fits, and refused where it does not. -/
theorem remainders_eq (I : Interp) (s : Session) (a : Int64) (divisor : b ≠ 0) :
    ∃ m r, Rounding.floor.LeavesOver a b m ∧ Rounding.truncate.LeavesOver a b r ∧
      (¬(a = Int64.minValue ∧ b = -1) →
        callPrimitive I "mod" [.int a, .int b] s = .ok (.int m) s ∧
        callPrimitive I "%" [.int a, .int b] s = .ok (.int r) s) ∧
      (a = Int64.minValue ∧ b = -1 →
        callPrimitive I "mod" [.int a, .int b] s = .exit (.signal "overflow-error" .nil) s ∧
        callPrimitive I "%" [.int a, .int b] s = .exit (.signal "overflow-error" .nil) s) := by
  refine ⟨floorMod a b, a % b, leavesOver_floorMod a divisor, leavesOver_mod a divisor, ?_, ?_⟩
  · intro notLeast
    rw [modulo_eq I divisor, percent_eq I divisor, rem?_eq ⟨divisor, notLeast⟩]
    exact ⟨rfl, rfl⟩
  · rintro ⟨rfl, rfl⟩
    rw [modulo_eq I divisor, percent_eq I divisor, rem?_least]
    exact ⟨rfl, rfl⟩

/-- Seven and minus three, whose quotient is rounded in two ways. -/
theorem remainders_eq_seven :
    let s : Session := {}
    (-3 : Int64) ≠ 0 ∧ ¬((7 : Int64) = Int64.minValue ∧ (-3 : Int64) = -1) ∧
      Rounding.floor.LeavesOver 7 (-3) (-2) ∧ Rounding.truncate.LeavesOver 7 (-3) 1 ∧
      callPrimitive .top "mod" [.int 7, .int (-3)] s = .ok (.int (-2)) s ∧
      callPrimitive .top "%" [.int 7, .int (-3)] s = .ok (.int 1) s := by
  intro s
  have divisor : (-3 : Int64) ≠ 0 := by decide
  have notLeast : ¬((7 : Int64) = Int64.minValue ∧ (-3 : Int64) = -1) := by decide
  obtain ⟨m, r, floor, truncate, answers, -⟩ := remainders_eq .top s 7 divisor
  obtain ⟨modulo, percent⟩ := answers notLeast
  have calledModulo : callPrimitive .top "mod" [.int 7, .int (-3)] s = .ok (.int (-2)) s := by
    rw [callPrimitive_of_arithmetic .top rfl]
    rfl
  have calledPercent : callPrimitive .top "%" [.int 7, .int (-3)] s = .ok (.int 1) s := by
    rw [callPrimitive_of_arithmetic .top rfl]
    rfl
  cases modulo.symm.trans calledModulo
  cases percent.symm.trans calledPercent
  exact ⟨divisor, notLeast, floor, truncate, modulo, percent⟩

/-- Minus one leaves nothing over, also of the least integer, and yet there is no remainder. -/
theorem not_remainders_eq_least :
    let s : Session := {}
    Rounding.floor.LeavesOver Int64.minValue (-1) 0 ∧
      Rounding.truncate.LeavesOver Int64.minValue (-1) 0 ∧
      callPrimitive .top "mod" [.int Int64.minValue, .int (-1)] s =
        .exit (.signal "overflow-error" .nil) s ∧
      callPrimitive .top "%" [.int Int64.minValue, .int (-1)] s =
        .exit (.signal "overflow-error" .nil) s := by
  intro s
  have divisor : (-1 : Int64) ≠ 0 := by decide
  refine ⟨leavesOver_floorMod _ divisor, leavesOver_mod _ divisor, ?_, ?_⟩
  · rw [callPrimitive_of_arithmetic .top rfl]
    rfl
  · rw [callPrimitive_of_arithmetic .top rfl]
    rfl

/-! ## Shifts -/

theorem ash_eq (I : Interp) (v n : Int64) (s : Session) :
    callPrimitive I "ash" [.int v, .int n] s =
      (if 0 ≤ n.toInt then fits (shiftLeft? v n.toInt.toNat) >>= fun w => pure (.int w)
      else pure (.int (shiftRight v n.toInt.natAbs))) s := by
  rw [callPrimitive_of_arithmetic I rfl]
  rfl

/-- What a shift answers: the product with a power of two if that fits, and the quotient by one,
rounded down. -/
structure Shifted (v n : Int64) (s : Session) (outcome : Outcome Value) : Prop where
  product : 0 ≤ n.toInt → ∀ w : Int64, w.toInt = v.toInt * 2 ^ n.toInt.toNat →
    outcome = .ok (.int w) s
  overflowError : 0 ≤ n.toInt → (∀ w : Int64, w.toInt ≠ v.toInt * 2 ^ n.toInt.toNat) →
    outcome = .exit (.signal "overflow-error" .nil) s
  quotient : n.toInt < 0 → ∃ w : Int64, outcome = .ok (.int w) s ∧
    w.toInt = ⌊(v.toInt / 2 ^ n.toInt.natAbs : ℚ)⌋

/-- Shifts by any distance are exact, except that zero is not shifted to the left beyond the word
size. -/
theorem shifted_ash (I : Interp) (s : Session) (counted : v ≠ 0 ∨ n.toInt < 64) :
    Shifted v n s (callPrimitive I "ash" [.int v, .int n] s) := by
  rw [ash_eq]
  by_cases left : 0 ≤ n.toInt
  · have shift : shiftLeft? v n.toInt.toNat = fixed? (v.toInt * 2 ^ n.toInt.toNat) := by
      apply shiftLeft?_eq
      exact counted.imp_right fun small => by omega
    rw [if_pos left, shift]
    refine ⟨fun _ w product => ?_, fun _ beyond => ?_, fun right => (right.not_ge left).elim⟩
    · rw [← product, fixed?_toInt]
      rfl
    · have none : fixed? (v.toInt * 2 ^ n.toInt.toNat) = none := by
        rw [Option.eq_none_iff_forall_ne_some]
        exact fun w fits => beyond w (fixed?_eq_some_iff.mp fits).symm
      rw [none]
      rfl
  · rw [if_neg left]
    exact ⟨fun left' => (left left').elim, fun left' => (left left').elim,
      fun _ => ⟨_, rfl, toInt_shiftRight_eq v _⟩⟩

/-- Minus five by three places to the left, and by more than the word size, where it is lost. -/
theorem shifted_ash_five :
    let s : Session := {}
    ((-5 : Int64) ≠ 0 ∨ (3 : Int64).toInt < 64) ∧ ((-5 : Int64) ≠ 0 ∨ (70 : Int64).toInt < 64) ∧
      callPrimitive .top "ash" [.int (-5), .int 3] s = .ok (.int (-40)) s ∧
      callPrimitive .top "ash" [.int (-5), .int 70] s =
        .exit (.signal "overflow-error" .nil) s := by
  intro s
  have counted : (-5 : Int64) ≠ 0 ∨ (3 : Int64).toInt < 64 := by decide
  have counted' : (-5 : Int64) ≠ 0 ∨ (70 : Int64).toInt < 64 := by decide
  refine ⟨counted, counted', ?_, ?_⟩
  · exact (shifted_ash .top s counted).product (by decide) (-40) (by decide)
  · apply (shifted_ash .top s counted').overflowError (by decide)
    intro w product
    have large : (-5 : Int64).toInt * 2 ^ (70 : Int64).toInt.toNat = -5 * 2 ^ 70 := by decide
    have bounds := toInt_bounds w
    omega

/-- Zero shifted by the word size fits, and is refused. -/
theorem not_shifted_ash_zero :
    let s : Session := {}
    0 ≤ (64 : Int64).toInt ∧ (0 : Int64).toInt = (0 : Int64).toInt * 2 ^ (64 : Int64).toInt.toNat ∧
      callPrimitive .top "ash" [.int 0, .int 64] s = .exit (.signal "overflow-error" .nil) s := by
  intro s
  refine ⟨by decide, by decide, ?_⟩
  rw [callPrimitive_of_arithmetic .top rfl]
  rfl

/-!
## The greatest and the least of some integers

The functions `max` and `min` go through their arguments once and keep the best one so far.  What
they compare are doubles, also where all arguments are integers, so they keep an integer whose
nearest double is the greatest, or the least, of all.  Rounding does not turn an order around, and
so that integer is the greatest or the least itself, unless another one shares its double: the
comparisons of programs are exact on integers and may tell the two apart.
-/

variable {I : Interp} {ns : List Int64}

/-! ### Comparisons -/

/-- The comparisons of programs are exact on integers. -/
theorem comparison_ints (name : String) (ok : Ordering → Bool) (I : Interp) (a b : Int64)
    (s : Session) :
    comparison name ok I [.int a, .int b] s =
      .ok (.ofBool (ok (compare a.toInt b.toInt))) s := by
  have compared : compareChain ok [.int a, .int b] s =
      .ok (ok (compare a.toInt b.toInt)) s := by
    show (if ok (compare a.toInt b.toInt) then pure true else pure false : Eval Bool) s = _
    cases ok (compare a.toInt b.toInt) <;> rfl
  have counted : atLeast name [.int a, .int b] 1 s = .ok () s := rfl
  unfold comparison
  rw [bind_of_ok _ counted, bind_of_ok _ compared]
  cases ok (compare a.toInt b.toInt) <;> rfl

/-- An integer is at least another one, and the comparisons of programs say so. -/
structure AtLeast (I : Interp) (s : Session) (a b : Int64) : Prop where
  le : b ≤ a
  notLess : callPrimitive I "<" [.int a, .int b] s = .ok .nil s
  greaterEqual : callPrimitive I ">=" [.int a, .int b] s = .ok .t s

theorem atLeast_of_le (le : b ≤ a) : AtLeast I s a b := by
  have notLess : compare a.toInt b.toInt ≠ .lt := by
    rw [ne_eq, compare_lt_iff_lt, not_lt]
    exact Int64.le_iff_toInt_le.mp le
  refine ⟨le, ?_, ?_⟩
  · rw [callPrimitive_of_arithmetic I rfl, comparison_ints, beq_false_of_ne notLess]
    rfl
  · rw [callPrimitive_of_arithmetic I rfl, comparison_ints, bne_iff_ne.mpr notLess]
    rfl

/-! ### One pass over the arguments -/

/-- A comparison of the doubles nearest to two integers goes by a key of the two. -/
def Keyed (better : Float → Float → Bool) (key : Int64 → Int) : Prop :=
  ∀ m n : Int64, better (ofInt m.toInt) (ofInt n.toInt) = decide (key n < key m)

section Pass

variable {better : Float → Float → Bool} {key : Int64 → Int} (keyed : Keyed better key)
include keyed

/-- The next integer is kept if its key is greater. -/
theorem pickExtreme_next (best n : Int64) (ns : List Int64) (s : Session) :
    pickExtreme better (.int best) (ofInt best.toInt) ((n :: ns).map .int) s =
      if key best < key n then pickExtreme better (.int n) (ofInt n.toInt) (ns.map .int) s
      else pickExtreme better (.int best) (ofInt best.toInt) (ns.map .int) s := by
  have isNumber : (ofInt n.toInt).isNaN = false := isNaN_ofInt (natAbs_toInt_lt n)
  show (if better (ofInt n.toInt) (ofInt best.toInt) || (ofInt n.toInt).isNaN then _
    else _ : Eval _) s = _
  rw [isNumber, Bool.or_false, keyed n best]
  by_cases less : key best < key n
  · rw [if_pos less, decide_eq_true less]
    rfl
  · rw [if_neg less, decide_eq_false less]
    rfl

/-- No integer that was passed has a greater key than the one that is kept. -/
theorem pickExtreme_ints (best : Int64) (ns : List Int64) (s : Session) :
    ∃ kept ∈ best :: ns, (∀ n ∈ best :: ns, key n ≤ key kept) ∧
      pickExtreme better (.int best) (ofInt best.toInt) (ns.map .int) s =
        .ok (.int kept, ofInt kept.toInt) s := by
  induction ns generalizing best with
  | nil => exact ⟨best, by simp, by simp, rfl⟩
  | cons n ns ih =>
      rw [pickExtreme_next keyed]
      split
      next less =>
        obtain ⟨kept, mem, greatest, picked⟩ := ih n
        refine ⟨kept, List.mem_cons_of_mem _ mem, ?_, picked⟩
        rw [List.forall_mem_cons]
        exact ⟨less.le.trans (greatest n List.mem_cons_self), greatest⟩
      next notLess =>
        obtain ⟨kept, mem, greatest, picked⟩ := ih best
        rw [List.forall_mem_cons] at greatest
        refine ⟨kept, ?_, ?_, picked⟩
        · rw [List.mem_cons] at mem ⊢
          exact mem.imp_right (List.mem_cons_of_mem _)
        · rw [List.forall_mem_cons, List.forall_mem_cons]
          exact ⟨greatest.1, (not_lt.mp notLess).trans greatest.1, greatest.2⟩

theorem extreme_ints (name : String) (I : Interp) (nonempty : ns ≠ []) (s : Session) :
    ∃ kept ∈ ns, (∀ n ∈ ns, key n ≤ key kept) ∧
      extreme name better I (ns.map .int) s = .ok (.int kept) s := by
  obtain ⟨first, rest, rfl⟩ := List.exists_cons_of_ne_nil nonempty
  obtain ⟨kept, mem, greatest, picked⟩ := pickExtreme_ints keyed first rest s
  have counted : atLeast name ((first :: rest).map .int) 1 s = .ok () s :=
    congrFun (if_pos (by simp)) s
  have noFloat : hasFloat ((first :: rest).map .int) = false := by simp [hasFloat]
  refine ⟨kept, mem, greatest, ?_⟩
  unfold extreme
  rw [bind_of_ok _ counted, noFloat]
  show (pickExtreme better (.int first) (ofInt first.toInt) (rest.map .int) >>= _) s = _
  rw [bind_of_ok _ picked]
  rfl

end Pass

/-! ### The greatest and the least -/

theorem keyed_max : Keyed (fun n best => n > best) fun n => nearestPlace n.toInt := by
  intro m n
  apply decide_eq_decide.mpr
  exact ofInt_lt_iff (natAbs_toInt_lt n) (natAbs_toInt_lt m)

theorem keyed_min : Keyed (fun n best => n < best) fun n => -nearestPlace n.toInt := by
  intro m n
  apply decide_eq_decide.mpr
  rw [neg_lt_neg_iff]
  exact ofInt_lt_iff (natAbs_toInt_lt m) (natAbs_toInt_lt n)

/-- No two integers of a list share their nearest double. -/
def ToldApart (ns : List Int64) : Prop :=
  ∀ m ∈ ns, ∀ n ∈ ns, ofInt m.toInt = ofInt n.toInt → m = n

/-- Integers of up to fifty-three bits are told apart. -/
theorem toldApart_of_short (short : ∀ n ∈ ns, n.toInt.natAbs ≤ 2 ^ 53) : ToldApart ns := by
  intro m memM n memN same
  exact Int64.toInt_inj.mp (eq_of_ofInt_eq (short m memM) (short n memN) same)

/-- Among integers that are told apart the greater one has the greater double. -/
theorem ToldApart.le_of_place_le (apart : ToldApart ns) (memA : a ∈ ns) (memB : b ∈ ns)
    (le : nearestPlace a.toInt ≤ nearestPlace b.toInt) : a ≤ b := by
  by_contra notLe
  have less : b.toInt ≤ a.toInt := by
    rw [Int64.le_iff_toInt_le] at notLe
    omega
  have same := le.antisymm (nearestPlace_mono less)
  rw [← ofInt_eq_iff (natAbs_toInt_lt a) (natAbs_toInt_lt b)] at same
  rw [apart a memA b memB same] at notLe
  exact notLe (Int64.le_refl b)

/-- Of every nonempty list of integers two elements are returned, one whose nearest double is the
greatest of all and one whose nearest double is the least.  Where no two integers of the list share
their nearest double, these are the greatest and the least integer. -/
theorem max_min_ints (I : Interp) (s : Session) (nonempty : ns ≠ []) :
    ∃ greatest ∈ ns, ∃ least ∈ ns,
      callPrimitive I "max" (ns.map .int) s = .ok (.int greatest) s ∧
      callPrimitive I "min" (ns.map .int) s = .ok (.int least) s ∧
      (∀ n ∈ ns, ¬ofInt greatest.toInt < ofInt n.toInt ∧ ¬ofInt n.toInt < ofInt least.toInt) ∧
      (ToldApart ns → ∀ n ∈ ns, AtLeast I s greatest n ∧ AtLeast I s n least) := by
  obtain ⟨greatest, memG, above, pickedMax⟩ := extreme_ints keyed_max "max" I nonempty s
  obtain ⟨least, memL, below, pickedMin⟩ := extreme_ints keyed_min "min" I nonempty s
  simp only [neg_le_neg_iff] at below
  refine ⟨greatest, memG, least, memL, ?_, ?_, ?_, ?_⟩
  · rw [callPrimitive_of_arithmetic I rfl]
    exact pickedMax
  · rw [callPrimitive_of_arithmetic I rfl]
    exact pickedMin
  · intro n mem
    rw [ofInt_lt_iff (natAbs_toInt_lt greatest) (natAbs_toInt_lt n),
      ofInt_lt_iff (natAbs_toInt_lt n) (natAbs_toInt_lt least), not_lt, not_lt]
    exact ⟨above n mem, below n mem⟩
  · intro apart n mem
    exact ⟨atLeast_of_le (apart.le_of_place_le mem memG (above n mem)),
      atLeast_of_le (apart.le_of_place_le memL mem (below n mem))⟩

/-- Three integers that are told apart, two of them at the limits. -/
theorem max_min_ints_short :
    let s : Session := {}
    let ns : List Int64 := [3, 9007199254740992, -9007199254740992]
    ns ≠ [] ∧ ToldApart ns ∧
      callPrimitive .top "max" (ns.map .int) s = .ok (.int 9007199254740992) s ∧
      callPrimitive .top "min" (ns.map .int) s = .ok (.int (-9007199254740992)) s ∧
      ∀ n ∈ ns, AtLeast .top s 9007199254740992 n ∧ AtLeast .top s n (-9007199254740992) := by
  intro s ns
  have nonempty : ns ≠ [] := List.cons_ne_nil _ _
  have apart : ToldApart ns := by
    apply toldApart_of_short
    rw [List.forall_mem_cons, List.forall_mem_cons, List.forall_mem_singleton]
    exact ⟨by decide, by decide, by decide⟩
  obtain ⟨greatest, -, least, -, pickedMax, pickedMin, -, bounds⟩ := max_min_ints .top s nonempty
  have calledMax : callPrimitive .top "max" (ns.map .int) s = .ok (.int 9007199254740992) s := by
    rw [callPrimitive_of_arithmetic .top rfl]
    rfl
  have calledMin : callPrimitive .top "min" (ns.map .int) s =
      .ok (.int (-9007199254740992)) s := by
    rw [callPrimitive_of_arithmetic .top rfl]
    rfl
  cases pickedMax.symm.trans calledMax
  cases pickedMin.symm.trans calledMin
  exact ⟨nonempty, apart, calledMax, calledMin, bounds apart⟩

/-- The least integer that shares its double: whichever of the two comes first is kept, and the
exact comparison finds that the other one is greater. -/
theorem not_max_min_ints_long :
    let s : Session := {}
    callPrimitive .top "max" [.int 9007199254740992, .int 9007199254740993] s =
        .ok (.int 9007199254740992) s ∧
      callPrimitive .top "min" [.int 9007199254740993, .int 9007199254740992] s =
        .ok (.int 9007199254740993) s ∧
      callPrimitive .top "<" [.int 9007199254740992, .int 9007199254740993] s = .ok .t s ∧
      (9007199254740992 : Int64) < 9007199254740993 := by
  intro s
  refine ⟨?_, ?_, ?_, by decide⟩
  · rw [callPrimitive_of_arithmetic .top rfl]
    rfl
  · rw [callPrimitive_of_arithmetic .top rfl]
    rfl
  · rw [callPrimitive_of_arithmetic .top rfl]
    rfl

end EditorLisp.Primitives
