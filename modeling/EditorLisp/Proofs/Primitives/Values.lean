import EditorLisp.Primitives.Arithmetic
import EditorLisp.Primitives.List
import EditorLisp.Primitives.Sequence
import EditorLisp.Primitives.String
import EditorLisp.Proofs.Evaluation.Functions

/-!
# Numbers, lists and strings

The primitives on values work on the store alone.  What each of them leaves to prove are
its branches; those that walk a list go by induction on the list, or on the bound of the
walk.
-/

namespace EditorLisp

/-- A table of primitives that put back what they changed when they call an interpreter
that does. -/
class AllRestore (I : Interp) (table : List (String × Primitive)) : Prop where
  all : ∀ e ∈ table, ∀ args, Eval.Restores (e.2 I args)

namespace AllRestore

variable {I : Interp}

theorem nil : AllRestore I [] := ⟨fun _ member => nomatch member⟩

theorem cons {name : String} {p : Primitive} {rest : List (String × Primitive)}
    [first : ∀ args, Eval.Restores (p I args)] (others : AllRestore I rest) :
    AllRestore I ((name, p) :: rest) :=
  ⟨List.forall_mem_cons.mpr ⟨first, others.all⟩⟩

instance append (front back : List (String × Primitive)) [first : AllRestore I front]
    [others : AllRestore I back] : AllRestore I (front ++ back) :=
  ⟨List.forall_mem_append.mpr ⟨first.all, others.all⟩⟩

/-- Names that give one answer whatever they are asked change nothing. -/
instance constant (names : List String) (answer : Value) :
    AllRestore I (names.map fun name => (name, fun _ _ => pure answer)) where
  all e member args := by
    obtain ⟨name, -, rfl⟩ := List.mem_map.mp member
    exact Eval.Restores.pure answer

end AllRestore

namespace Primitives

open Eval Eval.Restores

section Arguments

variable {I : Interp} {args : List Value}

theorem restores_unary {name : String} {f : Value → Eval Value} (each : ∀ v, Restores (f v)) :
    Restores (unary name f I args) := by
  unfold unary
  infer_instance

theorem restores_binary {name : String} {f : Value → Value → Eval Value}
    (each : ∀ v w, Restores (f v w)) : Restores (binary name f I args) := by
  unfold binary
  infer_instance

end Arguments

variable (I : Interp) [I.Restores] (args : List Value) (v : Value)

/-! ## Arithmetic -/

section Arithmetic

variable {α : Type}

instance (result : Option α) : Restores (fits result) := by
  unfold fits
  split <;> infer_instance

instance : Restores (divisionByZero : Eval α) := leave _

instance (op : Double → Double → Double) (acc : Double) : Restores (foldFloats op acc args) := by
  induction args generalizing acc with
  | nil => exact pure _
  | cons v rest ih =>
      unfold foldFloats
      infer_instance

instance (op : Int64 → Int64 → Eval Int64) [∀ a b, Restores (op a b)] (acc : Int64) :
    Restores (foldInts op acc args) := by
  induction args generalizing acc with
  | nil => exact pure _
  | cons v rest ih =>
      unfold foldInts
      infer_instance

instance : Restores (sum args) := by
  unfold sum
  infer_instance

instance : Restores (difference args) := by
  unfold difference
  split <;> infer_instance

instance : Restores (add I args) := by
  unfold add
  infer_instance

instance : Restores (sub I args) := by
  unfold sub
  infer_instance

instance : Restores (mul I args) := by
  unfold mul
  infer_instance

instance : Restores (quotient args) := by
  unfold quotient
  split <;> infer_instance

instance : Restores (div I args) := by
  unfold div
  refine after fun _ => ?_
  split <;> infer_instance

instance : Restores (percent I args) := by
  unfold percent
  infer_instance

instance : Restores (modulo I args) := by
  unfold modulo
  infer_instance

instance : Restores (add1 I args) := by
  unfold add1
  refine after fun _ => ?_
  split <;> infer_instance

instance : Restores (sub1 I args) := by
  unfold sub1
  refine after fun _ => ?_
  split <;> infer_instance

instance (a b : Value) : Restores (compareValues a b) := by
  unfold compareValues
  infer_instance

instance (ok : Ordering → Bool) : Restores (compareChain ok args) := by
  fun_induction compareChain with
  | case1 a b rest ih =>
      refine after fun order => ?_
      split <;> infer_instance
  | case2 => infer_instance

instance (name : String) (ok : Ordering → Bool) : Restores (comparison name ok I args) := by
  unfold comparison
  infer_instance

instance : Restores (numNe I args) := by
  unfold numNe
  infer_instance

instance (better : Float → Float → Bool) (best : Value) (n : Double) :
    Restores (pickExtreme better best n args) := by
  induction args generalizing best n with
  | nil => exact pure _
  | cons v rest ih =>
      unfold pickExtreme
      infer_instance

instance (name : String) (better : Float → Float → Bool) :
    Restores (extreme name better I args) := by
  unfold extreme
  infer_instance

instance : Restores (abs I args) := by
  unfold abs
  refine after fun _ => ?_
  split <;> infer_instance

instance (name : String) (how : Number.Rounding) (onInts? : Int64 → Int64 → Option Int64) :
    Restores (rounding name how onInts? I args) := by
  unfold rounding
  refine after fun _ => ?_
  split
  · infer_instance
  · infer_instance
  · dsimp only
    refine after fun x => ?_
    split <;> infer_instance

instance : Restores (float I args) := by
  unfold float
  infer_instance

instance : Restores (expt I args) := by
  unfold expt
  refine after fun _ => ?_
  split <;> infer_instance

instance : Restores (sqrt I args) := by
  unfold sqrt
  infer_instance

instance (name : String) (odd : Bool) : Restores (parity name odd I args) := by
  unfold parity
  infer_instance

instance : Restores (zerop I args) := by
  unfold zerop
  infer_instance

instance (name : String) (test : Value → Bool) : Restores (predicate name test I args) := by
  unfold predicate
  infer_instance

instance : Restores (numberToString I args) := by
  unfold numberToString
  refine after fun _ => ?_
  split <;> infer_instance

instance : Restores (stringToNumber I args) := by
  unfold stringToNumber
  infer_instance

instance (start : Int64) (op : Int64 → Int64 → Int64) :
    Restores (bitwise start op I args) := by
  unfold bitwise
  infer_instance

instance : Restores (lognot I args) := by
  unfold lognot
  infer_instance

instance : Restores (ash I args) := by
  unfold ash
  infer_instance

instance {α : Type} (choose : Random → Nat → α) : Restores (draw choose) := by
  unfold draw
  infer_instance

instance (limit : Nat) : Restores (drawBelow limit) := by
  unfold drawBelow
  infer_instance

instance : Restores (random I args) := by
  unfold random
  refine after fun _ => ?_
  split <;> infer_instance

instance : AllRestore I arithmetic := by
  unfold arithmetic
  repeat refine .cons ?_
  exact .nil

end Arithmetic

/-! ## Lists -/

section Lists

instance (name : String) (f : Value → Eval Value) [each : ∀ v, Restores (f v)] :
    Restores (unary name f I args) :=
  restores_unary each

instance (name : String) (f : Value → Value → Eval Value) [each : ∀ v w, Restores (f v w)] :
    Restores (binary name f I args) :=
  restores_binary each

instance : Restores (carOf v) := by
  unfold carOf
  infer_instance

instance : Restores (cdrOf v) := by
  unfold cdrOf
  infer_instance

instance : Restores (setcar I args) := by
  unfold setcar
  infer_instance

instance : Restores (setcdr I args) := by
  unfold setcdr
  infer_instance

instance : Restores (makeList I args) := by
  unfold makeList
  infer_instance

instance : Restores (gather args) := by
  induction args with
  | nil => exact pure _
  | cons seq rest ih =>
      unfold gather
      infer_instance

instance : Restores (append I args) := by
  unfold append
  split
  · infer_instance
  · refine after fun items => ?_
    dsimp only
    split <;> infer_instance

instance (result : Value) (last : Option Value) : Restores (joinLists result last args) := by
  induction args generalizing result last with
  | nil => exact pure _
  | cons v rest ih =>
      unfold joinLists
      dsimp only
      split
      · infer_instance
      · split
        · infer_instance
        · split <;> infer_instance

instance : Restores (nconc I args) := by
  unfold nconc
  infer_instance

instance : Restores (numberSequence I args) := by
  unfold numberSequence
  dsimp only
  refine after fun _ => ?_
  split
  · infer_instance
  · split
    · refine after fun start => after fun stop => ?_
      split
      · refine after fun v => after fun step => ?_
        split
        · infer_instance
        · split <;> infer_instance
      · refine after fun step => ?_
        split
        · infer_instance
        · split <;> infer_instance
    · infer_instance

instance : Restores (listLength v) := by
  unfold listLength
  infer_instance

instance (n : Nat) : Restores (drop n v) := by
  fun_induction drop <;> infer_instance

instance (n : Int64) : Restores (nth n v) := by
  unfold nth
  infer_instance

instance : Restores (last I args) := by
  unfold last
  infer_instance

instance : Restores (butlast I args) := by
  unfold butlast
  infer_instance

instance (fuel : Nat) (behind : Value) : Restores (reversePairs fuel behind v) := by
  induction fuel generalizing behind v with
  | zero => exact pure _
  | succ fuel ih =>
      unfold reversePairs
      infer_instance

instance (name : String) (same : Store → Value → Value → Bool) :
    Restores (membership name same I args) := by
  unfold membership
  refine restores_binary fun item v => after fun s => ?_
  split <;> infer_instance

instance (key : Value) : Restores (assq key v) := by
  unfold assq
  infer_instance

instance (item : Value) : Restores (rassq item v) := by
  unfold rassq
  infer_instance

instance (test key : Value) (fuel : Nat) : Restores (assocBy I test key fuel v) := by
  induction fuel generalizing v with
  | zero => exact unfinished
  | succ fuel ih =>
      unfold assocBy
      infer_instance

instance : Restores (assoc I args) := by
  unfold assoc
  dsimp only
  refine after fun _ => ?_
  split <;> infer_instance

instance : Restores (alistGet I args) := by
  unfold alistGet
  dsimp only
  refine after fun _ => ?_
  split <;> infer_instance

instance : Restores (plistGet I args) := by
  unfold plistGet
  refine after fun _ => after fun s => ?_
  split <;> infer_instance

instance : Restores (plistPut I args) := by
  unfold plistPut
  dsimp only
  refine after fun _ => after fun found => ?_
  split <;> infer_instance

instance : Restores (plistMember I args) := by
  unfold plistMember
  infer_instance

instance : AllRestore I lists := by
  unfold lists
  repeat refine .cons ?_
  exact .nil

end Lists

/-! ## Sequences -/

section Sequences

instance : Restores (length I args) := by
  unfold length
  refine restores_unary fun v => ?_
  split <;> infer_instance

instance : Restores (reversed v) := by
  unfold reversed
  split <;> infer_instance

instance : Restores (nreverse I args) := by
  unfold nreverse
  refine restores_unary fun v => ?_
  split <;> infer_instance

instance (name : String) (same : Store → Value → Value → Bool) :
    Restores (removal name same I args) := by
  unfold removal
  refine restores_binary fun item v => ?_
  split <;> infer_instance

instance : Restores (makeVector I args) := by
  unfold makeVector
  infer_instance

instance {α : Type} (index : Int64) : Restores (badIndex v index : Eval α) := by
  unfold badIndex
  infer_instance

instance (i : Value) : Restores (aref v i) := by
  unfold aref
  dsimp only
  refine after fun index => ?_
  split
  · infer_instance
  · split
    · refine after fun s => after fun found => ?_
      split <;> infer_instance
    · refine after fun found => ?_
      split <;> infer_instance
    · refine after fun found => ?_
      split <;> infer_instance

instance : Restores (aset I args) := by
  unfold aset
  dsimp only
  refine after fun _ => after fun index => ?_
  split
  · infer_instance
  · refine after fun s => ?_
    split <;> infer_instance

instance : Restores (elt I args) := by
  unfold elt
  refine restores_binary fun v i => ?_
  split <;> infer_instance

instance : Restores (copySequence I args) := by
  unfold copySequence
  refine restores_unary fun v => ?_
  split <;> infer_instance

instance (room : Nat) : Restores (copyTreeFor room v) := by
  induction room generalizing v with
  | zero => exact pure _
  | succ room ih =>
      unfold copyTreeFor
      infer_instance

instance : Restores (copyTree I args) := by
  unfold copyTree
  infer_instance

instance : Restores (fillarray I args) := by
  unfold fillarray
  refine restores_binary fun v item => ?_
  split <;> infer_instance

instance : AllRestore I sequences := by
  unfold sequences
  repeat refine .cons ?_
  exact .nil

end Sequences

/-! ## Strings -/

section Strings

instance : Restores (stringOrName v) := by
  unfold stringOrName
  split
  · infer_instance
  · split <;> infer_instance

instance : Restores (character v) := by
  unfold character
  refine after fun code => ?_
  split <;> infer_instance

instance : Restores (textOf v) := by
  unfold textOf
  split <;> infer_instance

instance : Restores (concat I args) := by
  unfold concat
  infer_instance

instance (v : Option Value) (length default : Nat) : Restores (resolveIndex v length default) := by
  unfold resolveIndex
  split <;> infer_instance

instance : Restores (substring I args) := by
  unfold substring
  dsimp only
  have rest (items : List Value) (v : Value) : Restores (do
      match ← resolveIndex (given? args 1) items.length 0 with
      | none => signal "args-out-of-range" args
      | some start =>
        match ← resolveIndex (given? args 2) items.length items.length with
        | none => signal "args-out-of-range" args
        | some stop =>
          if stop < start then signal "args-out-of-range" args
          else
            match v with
            | .str _ s => text (String.ofList ((s.toList.drop start).take (stop - start)))
            | _ => vector ((items.drop start).take (stop - start)) : Eval Value) := by
    refine after fun start => ?_
    split
    · infer_instance
    · refine after fun stop => ?_
      split
      · infer_instance
      · split
        · infer_instance
        · split <;> infer_instance
  refine after fun _ => ?_
  split
  · exact after fun items => rest items _
  · exact after fun items => rest items _

instance (name : String) (test : String → String → Bool) :
    Restores (stringComparison name test I args) := by
  unfold stringComparison
  infer_instance

instance (name : String) (test : List Char → List Char → Bool) :
    Restores (affix name test I args) := by
  unfold affix
  infer_instance

instance : Restores (stringJoin I args) := by
  unfold stringJoin
  infer_instance

instance : Restores (stringSearch I args) := by
  unfold stringSearch
  dsimp only
  refine after fun _ => after fun needle => after fun haystack => after fun start => ?_
  split
  · infer_instance
  · split <;> infer_instance

instance : Restores (stringReplace I args) := by
  unfold stringReplace
  infer_instance

instance (name : String) (onString : String → String) (onChar : Char → List Char) :
    Restores (caseChange name onString onChar I args) := by
  unfold caseChange
  refine restores_unary fun v => ?_
  split <;> infer_instance

instance : Restores (makeString I args) := by
  unfold makeString
  infer_instance

instance : Restores (stringToChar I args) := by
  unfold stringToChar
  infer_instance

instance : Restores (stringWidth I args) := by
  unfold stringWidth
  infer_instance

instance : Restores (stringPad I args) := by
  unfold stringPad
  dsimp only
  refine after fun _ => after fun s => after fun length => ?_
  split <;> infer_instance

instance : Restores (truncateStringToWidth I args) := by
  unfold truncateStringToWidth
  dsimp only
  repeat refine after fun _ => ?_
  split <;> infer_instance

instance : Restores (propertize I args) := by
  unfold propertize
  infer_instance

instance : Restores (splitString I args) := by
  unfold splitString
  dsimp only
  refine after fun _ => after fun s => ?_
  split
  · refine after fun how => after fun separators => ?_
    split <;> infer_instance
  · refine after fun how => after fun separators => after fun program => ?_
    split <;> infer_instance

instance (v : Option Value) : Restores (trimPattern v) := by
  unfold trimPattern
  split <;> infer_instance

instance : Restores (stringTrim I args) := by
  unfold stringTrim
  infer_instance

instance : Restores (stringTrimLeft I args) := by
  unfold stringTrimLeft
  infer_instance

instance : Restores (stringTrimRight I args) := by
  unfold stringTrimRight
  infer_instance

instance (control : String) : Restores (formatted control args) := by
  unfold formatted
  refine after fun s => ?_
  split <;> infer_instance

instance : Restores (format I args) := by
  unfold format
  infer_instance

instance : Restores (prin1ToString I args) := by
  unfold prin1ToString
  infer_instance

instance : AllRestore I strings := by
  unfold strings
  repeat refine .cons ?_
  exact .nil

end Strings

end Primitives

end EditorLisp
