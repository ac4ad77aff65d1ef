import EditorLisp.Interpreter
import EditorLisp.Proofs.Evaluation.Variables
import Mathlib.Data.List.Nodup

/-!
# Calls of special forms

What it takes to evaluate a form that is written out in the store: the pairs it is made of,
a level of evaluation that is left, and a name that the program has not redefined.  A form
counts as steady when it evaluates to a fixed value and does nothing else, as atoms and
quoted data do.
-/

namespace EditorLisp

namespace Store

variable {st : Store} {v head item : Value} {items : List Value}

/-- A pair in the store that starts a proper list, given by its first element and those
after it. -/
structure IsList (st : Store) (v head : Value) (items : List Value) : Prop where
  isPair : ∃ ref, v = .cons ref
  car_eq : st.car v = head
  cdr_eq : st.list? (st.cdr v) = some items

/-- Stores with the same pairs and the same vectors, and so with the same data in them. -/
structure SameData (st st' : Store) : Prop where
  pairs_eq : st'.pairs = st.pairs
  vectors_eq : st'.vectors = st.vectors

namespace SameData

variable {st' : Store} (same : st.SameData st')
include same

theorem trans {st'' : Store} (next : st'.SameData st'') : st.SameData st'' :=
  ⟨next.pairs_eq.trans same.pairs_eq, next.vectors_eq.trans same.vectors_eq⟩

theorem car_eq (v : Value) : st'.car v = st.car v := by
  cases v <;> simp only [car, same.pairs_eq]

theorem cdr_eq (v : Value) : st'.cdr v = st.cdr v := by
  cases v <;> simp only [cdr, same.pairs_eq]

theorem walk_eq (fuel : Nat) (v : Value) (items : List Value) :
    st'.walk fuel v items = st.walk fuel v items := by
  induction fuel generalizing v items with
  | zero => rfl
  | succ fuel ih => cases v <;> simp only [walk, same.pairs_eq, ih]

theorem list?_eq (v : Value) : st'.list? v = st.list? v := by
  simp only [list?, spine, same.walk_eq, same.pairs_eq]

theorem isList (listed : st.IsList v head items) : st'.IsList v head items where
  isPair := listed.isPair
  car_eq := (same.car_eq v).trans listed.car_eq
  cdr_eq := by rw [same.cdr_eq, same.list?_eq, listed.cdr_eq]

theorem holdsLiteral_eq (depth : Nat) (v : Value) :
    Forms.holdsLiteral st' depth v = Forms.holdsLiteral st depth v := by
  induction depth generalizing v with
  | zero => rfl
  | succ depth ih =>
      cases v with
      | cons ref => simp only [Forms.holdsLiteral, same.car_eq, same.cdr_eq, ih]
      | vector ref =>
          have listing : Forms.holdsLiteral st' depth = Forms.holdsLiteral st depth := funext ih
          simp only [Forms.holdsLiteral, items?, same.vectors_eq, listing]
      | _ => rfl

end SameData

theorem walk_concat (fuel : Nat) (v : Value) (items : List Value) :
    st.walk fuel v items = (items.reverse ++ (st.walk fuel v []).1, (st.walk fuel v []).2) := by
  induction fuel generalizing v items with
  | zero => simp [walk]
  | succ fuel ih =>
      cases v with
      | cons ref =>
          cases there : st.pairs[ref]? with
          | none => simp [walk, there]
          | some p =>
              have step (done : List Value) :
                  st.walk (fuel + 1) (.cons ref) done = st.walk fuel p.cdr (p.car :: done) := by
                simp only [walk, there]
              rw [step, step, ih, ih p.cdr [p.car]]
              simp
      | _ => simp [walk]

/-- A proper list with an element is a pair with that element in front. -/
theorem isCons_of_list? (listed : st.list? v = some (item :: items)) :
    v.isCons = true ∧ st.car v = item := by
  have walked : st.walk (st.pairs.size + 1) v [] = (item :: items, .nil) := by
    unfold list? spine at listed
    split at listed
    · cases listed
      assumption
    · cases listed
  cases v with
  | cons ref =>
      refine ⟨rfl, ?_⟩
      rw [walk] at walked
      cases there : st.pairs[ref]? with
      | none => simp [there] at walked
      | some p =>
          simp only [there] at walked
          rw [walk_concat] at walked
          have front := (List.cons.inj (congrArg Prod.fst walked)).1
          simpa [car, there] using front
  | _ => simp [walk] at walked

end Store

/-! ## Primitives by name -/

theorem mem_of_lookup {α : Type} {table : List (String × α)} {name : String} {a : α}
    (found : table.lookup name = some a) : (name, a) ∈ table := by
  obtain ⟨before, after, rfl, -⟩ := List.lookup_eq_some_iff.mp found
  exact List.mem_append_right _ List.mem_cons_self

/-- In a table without a name that comes twice, a name has the entry that is there for it. -/
theorem lookup_of_mem {α : Type} {table : List (String × α)} {name : String} {a : α}
    (nodup : (table.map Prod.fst).Nodup) (member : (name, a) ∈ table) :
    table.lookup name = some a := by
  obtain ⟨before, after, rfl⟩ := List.append_of_mem member
  rw [List.map_append, List.map_cons] at nodup
  refine List.lookup_eq_some_iff.mpr ⟨before, after, rfl, fun entry earlier => ?_⟩
  have unlike := List.disjoint_of_nodup_append nodup (List.mem_map_of_mem earlier)
  exact bne_iff_ne.mpr fun same => unlike (same ▸ List.mem_cons_self)

/-- A number for a name, made from its bytes. -/
def nameNumber (name : String) : Nat :=
  name.toByteArray.data.toList.foldl (fun n byte => (256 * n + byte.toNat) % 1000003) 0

/-- Whether the numbers of a list are different from one another and from the ones met before,
whose bits are set. -/
def allNew : Nat → List Nat → Bool
  | _, [] => true
  | met, n :: ns => !met.testBit n && allNew (met ||| 1 <<< n) ns

theorem nodup_of_allNew {met : Nat} {ns : List Nat} (new : allNew met ns = true) :
    ns.Nodup ∧ ∀ n ∈ ns, met.testBit n = false := by
  induction ns generalizing met with
  | nil => simp
  | cons n ns ih =>
      rw [allNew, Bool.and_eq_true, Bool.not_eq_true'] at new
      obtain ⟨nodup, others⟩ := ih new.2
      simp only [Nat.testBit_or, Bool.or_eq_false_iff] at others
      refine ⟨List.nodup_cons.mpr ⟨fun again => ?_, nodup⟩, ?_⟩
      · have set := (others n again).2
        rw [Nat.one_shiftLeft, Nat.testBit_two_pow_self] at set
        cases set
      · exact List.forall_mem_cons.mpr ⟨new.1, fun m member => (others m member).1⟩

/-- No two primitives have one name.  Their numbers are compared, since comparing each name with
every other one takes the kernel long. -/
theorem nodup_primitives : (primitives.map Prod.fst).Nodup := by
  have new : allNew 0 (primitives.map fun entry => nameNumber entry.1) = true := by decide +kernel
  have nodup := (nodup_of_allNew new).1
  rw [← Function.comp_def nameNumber Prod.fst, ← List.map_map] at nodup
  exact nodup.of_map

theorem primitive?_of_mem {name : String} {p : Primitive} (member : (name, p) ∈ primitives) :
    primitive? name = some p :=
  lookup_of_mem nodup_primitives member

section Tables

open Primitives

/-- The tables of the single families of primitives. -/
def primitiveTables : List (List (String × Primitive)) :=
  [arithmetic, lists, sequences, symbols, strings, higherOrder, reports, times, hooks, inert,
    editing, motion, buffers, keymaps, windows, timers, searches, files, loading, grid, commands,
    modes]

theorem primitives_eq_flatten : primitives = primitiveTables.flatten := by
  have joined : primitives = primitiveTables.foldl (· ++ id ·) [] := rfl
  rw [joined, List.foldl_append_eq_append, List.nil_append, List.map_id]

variable {name : String} {p : Primitive}

/-- A primitive is found by its name in its own table. -/
theorem primitive?_of_table {table : List (String × Primitive)} (isTable : table ∈ primitiveTables)
    (found : table.lookup name = some p) : primitive? name = some p := by
  apply primitive?_of_mem
  rw [primitives_eq_flatten]
  exact List.mem_flatten_of_mem isTable (mem_of_lookup found)

theorem primitive?_of_lists (found : lists.lookup name = some p) : primitive? name = some p :=
  primitive?_of_table (by simp [primitiveTables]) found

theorem primitive?_of_sequences (found : sequences.lookup name = some p) :
    primitive? name = some p :=
  primitive?_of_table (by simp [primitiveTables]) found

end Tables

/-! ## Calls -/

theorem Eval.callPrimitive_of_primitive? {name : String} {p : Primitive}
    (found : primitive? name = some p) (I : Interp) : callPrimitive I name = p I := by
  funext args
  unfold callPrimitive
  rw [found]

/-- A primitive is applied one level down. -/
theorem Interp.apply_subr {name : String} {p : Primitive} (found : primitive? name = some p)
    (level : Nat) (args : List Value) :
    (ofLevel (level + 1)).apply (.subr name) args = p (.ofLevel level) args :=
  congrFun (Eval.callPrimitive_of_primitive? found (.ofLevel level)) args

namespace Eval

variable {I : Interp} {s : Session} {frame : Nat}

section Tables

open Primitives

variable {name : String} {p : Primitive} (I : Interp)

theorem callPrimitive_of_table {table : List (String × Primitive)}
    (isTable : table ∈ primitiveTables) (found : table.lookup name = some p) :
    callPrimitive I name = p I :=
  callPrimitive_of_primitive? (primitive?_of_table isTable found) I

theorem callPrimitive_of_arithmetic (found : arithmetic.lookup name = some p) :
    callPrimitive I name = p I :=
  callPrimitive_of_table I (by simp [primitiveTables]) found

theorem callPrimitive_of_strings (found : strings.lookup name = some p) :
    callPrimitive I name = p I :=
  callPrimitive_of_table I (by simp [primitiveTables]) found

theorem callPrimitive_of_editing (found : editing.lookup name = some p) :
    callPrimitive I name = p I :=
  callPrimitive_of_table I (by simp [primitiveTables]) found

theorem callPrimitive_of_motion (found : motion.lookup name = some p) :
    callPrimitive I name = p I :=
  callPrimitive_of_table I (by simp [primitiveTables]) found

theorem callPrimitive_of_windows (found : windows.lookup name = some p) :
    callPrimitive I name = p I :=
  callPrimitive_of_table I (by simp [primitiveTables]) found

theorem callPrimitive_of_searches (found : searches.lookup name = some p) :
    callPrimitive I name = p I :=
  callPrimitive_of_table I (by simp [primitiveTables]) found

end Tables

theorem symbolName_of_symbolName? {place : Value} {name : String}
    (named : place.symbolName? = some name) (s : Session) : symbolName place s = .ok name s := by
  unfold symbolName
  rw [named]
  rfl

/-- No form is evaluated beyond the greatest depth. -/
theorem evalForm_tooDeep (I : Interp) (form : Value) (frame : Nat)
    (tooDeep : s.config.maxDepth < s.depth + 1) :
    ∃ data store, evalForm I form frame s =
      .exit (.signal "excessive-lisp-nesting" data) { s with store } := by
  unfold evalForm
  rw [if_pos tooDeep]
  exact ⟨_, _, rfl⟩

/-- A symbol evaluates to the value of its variable. -/
theorem evalForm_symbol {name : String} {value : Value} (room : s.depth < s.config.maxDepth)
    (known : s.valueIn? name frame = some value) :
    evalForm I (.symbol name) frame s = .ok value s := by
  unfold evalForm
  rw [if_neg (by omega)]
  simp only [known]

/-- A call of a name is evaluated one level deeper. -/
theorem evalForm_named {form : Value} {name : String} {forms : List Value}
    (room : s.depth < s.config.maxDepth) (call : s.store.IsList form (.symbol name) forms) :
    evalForm I form frame s =
      (evalNamed I name forms frame).ensuring (fun s => { s with depth := s.depth - 1 })
        { s with depth := s.depth + 1 } := by
  obtain ⟨ref, rfl⟩ := call.isPair
  have head : car (.cons ref) { s with depth := s.depth + 1 } =
      .ok (.symbol name) { s with depth := s.depth + 1 } :=
    congrArg (Outcome.ok · _) call.car_eq
  have tail : properList (s.store.cdr (.cons ref)) "listp" { s with depth := s.depth + 1 } =
      .ok forms { s with depth := s.depth + 1 } := by
    unfold properList
    rw [call.cdr_eq]
  have called : evalCall I (.cons ref) frame { s with depth := s.depth + 1 } =
      evalNamed I name forms frame { s with depth := s.depth + 1 } := by
    unfold evalCall
    rw [bind_of_ok _ head]
    exact (bind_of_ok _ rfl).trans (bind_of_ok _ tail)
  unfold evalForm
  rw [if_neg (by omega)]
  exact ensuring_of_eq _ called

/-- A special form is called with the forms as they are. -/
theorem evalNamed_special {name : String} {f : SpecialForm}
    (unbound : s.functions.contains name = false) (special : specialForm? name = some f)
    (forms : List Value) : evalNamed I name forms frame s = f I forms frame s := by
  unfold evalNamed
  refine (bind_of_ok _ rfl).trans ?_
  simp only [unbound, Bool.false_eq_true, if_false, special]

/-- A primitive is called with the values of the forms. -/
theorem evalNamed_primitive {name : String} {p : Primitive}
    (unbound : s.functions.contains name = false) (ordinary : specialForm? name = none)
    (primitive : primitive? name = some p) (forms : List Value) :
    evalNamed I name forms frame s = (I.evalArgs frame forms >>= p I) s := by
  unfold evalNamed
  refine (bind_of_ok _ rfl).trans ?_
  simp only [unbound, Bool.false_eq_true, if_false, ordinary, primitive]

/-- A special form is called with the forms as they are, one level deeper. -/
theorem evalForm_special {form : Value} {name : String} {forms : List Value} {f : SpecialForm}
    (room : s.depth < s.config.maxDepth) (call : s.store.IsList form (.symbol name) forms)
    (unbound : s.functions.contains name = false) (special : specialForm? name = some f) :
    evalForm I form frame s =
      (f I forms frame).ensuring (fun s => { s with depth := s.depth - 1 })
        { s with depth := s.depth + 1 } :=
  (evalForm_named room call).trans (ensuring_of_eq _
    (evalNamed_special (s := { s with depth := s.depth + 1 }) unbound special forms))

/-- A form evaluates to a value and does nothing else, in every session with the data and
the functions of a given one. -/
def Steady (s : Session) (form value : Value) : Prop :=
  ∀ (I : Interp) (t : Session) (frame : Nat), s.store.SameData t.store →
    t.functions = s.functions → t.depth < t.config.maxDepth →
      evalForm I form frame t = .ok value t

theorem Steady.of_sameData {t : Session} {form value : Value} (steady : Steady s form value)
    (same : s.store.SameData t.store) (functions : t.functions = s.functions) :
    Steady t form value := fun I t' frame same' functions' room =>
  steady I t' frame (same.trans same') (functions'.trans functions) room

/-- What is neither a symbol nor a pair stands for itself. -/
theorem steady_atom (s : Session) {atom : Value} (noSymbol : ∀ name, atom ≠ .symbol name)
    (noPair : ∀ ref, atom ≠ .cons ref) : Steady s atom atom := by
  intro I t frame _ _ room
  unfold evalForm
  rw [if_neg (by omega)]
  cases atom with
  | symbol name => exact absurd rfl (noSymbol name)
  | cons ref => exact absurd rfl (noPair ref)
  | _ => rfl

/-- Quoted data are copied if they hold a vector that is still to be built. -/
theorem literal_eq (v : Value) (s : Session) :
    Forms.literal v s =
      if Forms.holdsLiteral s.store (Forms.literalDepth + 1) v then
        .ok (Forms.build (Forms.literalDepth + 1) v s.store).1
          { s with store := (Forms.build (Forms.literalDepth + 1) v s.store).2 }
      else .ok v s := by
  unfold Forms.literal
  cases v with
  | cons | vector =>
      refine (bind_store _ s).trans ?_
      split
      next => rfl
      next => rfl
  | _ => rfl

/-- Quoted data stands for itself, unless it holds a vector that is still to be built. -/
theorem steady_quote {form datum : Value} (call : s.store.IsList form (.symbol "quote") [datum])
    (unbound : s.functions.contains "quote" = false)
    (built : Forms.holdsLiteral s.store (Forms.literalDepth + 1) datum = false) :
    Steady s form datum := by
  intro I t frame same functions room
  have answered (t : Session) (same : s.store.SameData t.store) :
      Forms.quote I [datum] frame t = .ok datum t := by
    show Forms.literal datum t = .ok datum t
    rw [literal_eq, same.holdsLiteral_eq, built]
    rfl
  exact (evalForm_special room (same.isList call) (functions ▸ unbound) rfl).trans
    (ensuring_of_ok _ (answered { t with depth := t.depth + 1 } same))

end Eval

end EditorLisp
