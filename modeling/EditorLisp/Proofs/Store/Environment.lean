import EditorLisp.Proofs.Evaluation.Variables

/-!
# Environments as trees

Frames are made inside others that are there already, so they form a tree: from every frame
one path leads to the root, and look-up takes the first binding on it.  An assignment changes
that binding and no other one.  Frames are shared by everything that was made in them, so it
is seen from exactly those frames whose path comes to the changed one before it meets another
binding of the name.  This holds of every tree that can be built, in whatever order frames are
made and bindings made and changed.
-/

namespace EditorLisp.Store

variable {st st' : Store} {i j parent holder : Nat} {name : String} {value : Value}
  {path path' : List Nat}

/-! ## Trees that can be built -/

/-- The stores whose frames come from the operations on frames, made in any order on any frames.
What leaves the frames alone may be done in between. -/
inductive Built : Store → Prop
  | root : Built {}
  | child {st : Store} {parent : Nat} (built : Built st) (there : parent < st.frames.size) :
      Built (st.childFrame parent).2
  | childWith {st : Store} {parent : Nat} (built : Built st) (there : parent < st.frames.size)
      (bindings : List (String × Value)) : Built (st.childFrameWith parent bindings).2
  | define {st : Store} (built : Built st) (i : Nat) (name : String) (value : Value) :
      Built (st.defineIn i name value)
  | assign {st st' : Store} {i : Nat} {name : String} {value : Value} (built : Built st)
      (assigned : st.assignIn? i name value = some st') : Built st'
  | aside {st st' : Store} (built : Built st) (same : st'.frames = st.frames) : Built st'

/-- The frame around a frame. -/
def parent? (st : Store) (i : Nat) : Option Nat := st.frames[i]?.bind Frame.parent

/-- Every frame was made after the one around it. -/
def Nested (st : Store) : Prop := ∀ i parent, st.parent? i = some parent → parent < i

theorem Nested.childFrame (nested : st.Nested) (there : parent < st.frames.size)
    (vars : Table String Value) : (st.childFrame parent vars).2.Nested := by
  intro i around found
  have pushed : ((st.frames.push ⟨vars, some parent⟩)[i]?).bind Frame.parent = some around := found
  rw [Array.getElem?_push] at pushed
  split at pushed
  next last =>
      cases pushed
      exact last ▸ there
  next => exact nested _ _ pushed

/-- A definition in a frame leaves the frame around it. -/
@[simp]
theorem parent?_defineIn (st : Store) (i : Nat) (name : String) (value : Value) (j : Nat) :
    (st.defineIn i name value).parent? j = st.parent? j := by
  unfold parent? defineIn
  rw [Array.getElem?_modify]
  split
  · cases st.frames[j]? <;> rfl
  · rfl

theorem Nested.defineIn (nested : st.Nested) (i : Nat) (name : String) (value : Value) :
    (st.defineIn i name value).Nested := by
  intro j around found
  rw [parent?_defineIn] at found
  exact nested _ _ found

/-- An assignment defines the name in the frame that binds it. -/
theorem assignIn?_eq_some_iff :
    st.assignIn? i name value = some st' ↔
      ∃ holder old, st.binder? i name = some (holder, old) ∧ st' = st.defineIn holder name value := by
  unfold assignIn?
  rw [Option.map_eq_some_iff]
  constructor
  · rintro ⟨⟨holder, old⟩, found, rfl⟩
    exact ⟨holder, old, found, rfl⟩
  · rintro ⟨holder, old, found, rfl⟩
    exact ⟨(holder, old), found, rfl⟩

theorem Built.nested (built : st.Built) : st.Nested := by
  induction built with
  | root =>
      intro i parent found
      cases i <;> cases found
  | child built there ih => exact ih.childFrame there _
  | childWith built there bindings ih => exact ih.childFrame there _
  | define built i name value ih => exact ih.defineIn i name value
  | assign built assigned ih =>
      obtain ⟨holder, old, -, rfl⟩ := assignIn?_eq_some_iff.mp assigned
      exact ih.defineIn holder _ _
  | aside built same ih =>
      intro i parent found
      unfold parent? at found
      rw [same] at found
      exact ih _ _ found

/-! ## The path to the root -/

/-- The frames from a frame to the root, in order, both of them included. -/
inductive Path (st : Store) : Nat → List Nat → Prop
  | root {i : Nat} (there : i < st.frames.size) (top : st.parent? i = none) : Path st i [i]
  | inner {i parent : Nat} {path : List Nat} (inside : st.parent? i = some parent)
      (rest : Path st parent path) : Path st i (i :: path)

theorem Path.unique (first : st.Path i path) (second : st.Path i path') : path = path' := by
  induction first generalizing path' with
  | root there top =>
      cases second with
      | root => rfl
      | inner inside rest =>
          rw [top] at inside
          cases inside
  | inner inside rest ih =>
      cases second with
      | root there top =>
          rw [top] at inside
          cases inside
      | inner inside' rest' =>
          obtain rfl := Option.some.inj (inside.symm.trans inside')
          rw [ih rest']

/-- A path depends on nothing but the frames around frames. -/
theorem Path.of_same (way : st.Path i path) (size : st'.frames.size = st.frames.size)
    (around : ∀ j, st'.parent? j = st.parent? j) : st'.Path i path := by
  induction way with
  | root there top => exact .root (size ▸ there) ((around _).trans top)
  | inner inside rest ih => exact .inner ((around _).trans inside) ih

/-- The frames around a frame were made before it, so their number is limited by its own. -/
theorem Path.length_le (nested : st.Nested) (way : st.Path i path) : path.length ≤ i + 1 := by
  induction way with
  | root => exact Nat.le_add_left ..
  | inner inside rest ih =>
      have before := nested _ _ inside
      rw [List.length_cons]
      omega

theorem Nested.exists_path (nested : st.Nested) (there : i < st.frames.size) :
    ∃ path, st.Path i path := by
  induction i using Nat.strong_induction_on with
  | _ i ih =>
      cases around : st.parent? i with
      | none => exact ⟨[i], .root there around⟩
      | some parent =>
          have before := nested _ _ around
          obtain ⟨path, rest⟩ := ih parent before (before.trans there)
          exact ⟨i :: path, .inner around rest⟩

/-! ## Look-up along the path -/

/-- The first frame of a path that binds a name, with the value there. -/
def firstBinding? (st : Store) (name : String) (path : List Nat) : Option (Nat × Value) :=
  path.findSome? fun i => (st.varIn? i name).map (i, ·)

/-- A frame is asked before the one around it. -/
theorem binderFrom_succ (st : Store) (name : String) (fuel i : Nat) :
    st.binderFrom name (fuel + 1) i =
      ((st.varIn? i name).map (i, ·)).or ((st.parent? i).bind (st.binderFrom name fuel)) := by
  unfold varIn? parent?
  rw [binderFrom]
  cases st.frames[i]? with
  | none => rfl
  | some f =>
      simp only [Option.bind_some]
      cases f.vars.get? name with
      | some value => rfl
      | none => cases f.parent <;> rfl

theorem binderFrom_eq {fuel : Nat} (way : st.Path i path) (enough : path.length ≤ fuel) :
    st.binderFrom name fuel i = st.firstBinding? name path := by
  induction way generalizing fuel with
  | @root i there top =>
      obtain ⟨fuel, rfl⟩ := Nat.exists_eq_add_of_le' enough
      rw [List.length_singleton, binderFrom_succ, top, firstBinding?, List.findSome?_cons]
      cases st.varIn? i name <;> rfl
  | @inner i parent path inside rest ih =>
      obtain ⟨fuel, rfl⟩ := Nat.exists_eq_add_of_le' enough
      rw [List.length_cons, ← Nat.add_assoc, binderFrom_succ, inside, Option.bind_some,
        ih (Nat.le_add_left ..)]
      unfold firstBinding?
      rw [List.findSome?_cons]
      cases st.varIn? i name <;> rfl

theorem Nested.binder?_eq (nested : st.Nested) (way : st.Path i path) (name : String) :
    st.binder? i name = st.firstBinding? name path :=
  binderFrom_eq way (way.length_le nested)

/-- Look-up takes the value of the first frame on the path that binds the name. -/
theorem Nested.lookupIn?_eq (nested : st.Nested) (way : st.Path i path) (name : String) :
    st.lookupIn? i name = path.findSome? (st.varIn? · name) := by
  rw [lookupIn?, nested.binder?_eq way, firstBinding?, List.map_findSome?]
  congr 1
  funext k
  exact Option.map_map .. |>.trans Option.map_id'

/-- The path from a frame comes to another one before it meets a binding of a name. -/
def Reaches (st : Store) (i : Nat) (name : String) (j : Nat) : Prop :=
  ∃ before after, st.Path i (before ++ j :: after) ∧ ∀ k ∈ before, st.varIn? k name = none

theorem lt_size_of_binder? {found : Nat × Value} (bound : st.binder? i name = some found) :
    i < st.frames.size := by
  apply Nat.lt_of_not_le
  intro missing
  rw [binder?, binderFrom_succ, varIn?, parent?, Array.getElem?_eq_none missing] at bound
  cases bound

theorem Nested.binder?_eq_some_iff (nested : st.Nested) :
    st.binder? i name = some (holder, value) ↔
      st.Reaches i name holder ∧ st.varIn? holder name = some value := by
  constructor
  · intro found
    obtain ⟨path, way⟩ := nested.exists_path (lt_size_of_binder? found)
    rw [nested.binder?_eq way, firstBinding?, List.findSome?_eq_some_iff] at found
    obtain ⟨before, k, after, rfl, here, unbound⟩ := found
    obtain ⟨old, bound, same⟩ := Option.map_eq_some_iff.mp here
    cases same
    exact ⟨⟨before, after, way, fun k member => Option.map_eq_none_iff.mp (unbound k member)⟩, bound⟩
  · rintro ⟨⟨before, after, way, unbound⟩, bound⟩
    rw [nested.binder?_eq way, firstBinding?, List.findSome?_eq_some_iff]
    refine ⟨before, holder, after, rfl, ?_, ?_⟩
    · rw [bound, Option.map_some]
    · exact fun k member => Option.map_eq_none_iff.mpr (unbound k member)

theorem Nested.lookupIn?_eq_some_iff (nested : st.Nested) :
    st.lookupIn? i name = some value ↔
      ∃ holder, st.Reaches i name holder ∧ st.varIn? holder name = some value := by
  rw [lookupIn?, Option.map_eq_some_iff]
  constructor
  · rintro ⟨⟨holder, old⟩, found, rfl⟩
    exact ⟨holder, nested.binder?_eq_some_iff.mp found⟩
  · rintro ⟨holder, reached⟩
    exact ⟨(holder, value), nested.binder?_eq_some_iff.mpr reached, rfl⟩

/-! ## Assignment -/

/-- What an assignment of a value to a name does in the frame that binds it, and who sees it. -/
structure Assigned (st : Store) (name : String) (value : Value) (holder : Nat) (st' : Store) :
    Prop where
  /-- No other binding of that frame and no binding of another frame changes. -/
  varIn?_eq : ∀ j other, st'.varIn? j other =
    if j = holder ∧ other = name then some value else st.varIn? j other
  /-- The tree stays as it is. -/
  path_iff : ∀ j path, st'.Path j path ↔ st.Path j path
  /-- The value is seen from the frames that come to the changed one first. -/
  lookupIn?_of_reaches : ∀ j, st.Reaches j name holder → st'.lookupIn? j name = some value
  /-- From all other frames the name has the value that it had. -/
  lookupIn?_of_not_reaches : ∀ j, ¬st.Reaches j name holder →
    st'.lookupIn? j name = st.lookupIn? j name
  /-- Other names have the values that they had, from everywhere. -/
  lookupIn?_of_ne : ∀ j other, other ≠ name → st'.lookupIn? j other = st.lookupIn? j other

theorem lt_size_of_varIn? (bound : st.varIn? holder name = some value) :
    holder < st.frames.size := by
  obtain ⟨f, found, -⟩ := Option.bind_eq_some_iff.mp bound
  exact (Array.getElem?_eq_some_iff.mp found).1

theorem varIn?_defineIn_eq (there : holder < st.frames.size) (name : String) (value : Value)
    (j : Nat) (other : String) :
    (st.defineIn holder name value).varIn? j other =
      if j = holder ∧ other = name then some value else st.varIn? j other := by
  by_cases here : j = holder
  · subst here
    rw [varIn?_defineIn there]
    simp only [true_and, eq_comm]
  · rw [if_neg (fun both => here both.1)]
    unfold varIn? defineIn
    rw [Array.getElem?_modify, if_neg (Ne.symm here)]

theorem path_defineIn_iff (st : Store) (holder : Nat) (name : String) (value : Value) (j : Nat)
    (path : List Nat) : (st.defineIn holder name value).Path j path ↔ st.Path j path := by
  have size := size_frames_defineIn st holder name value
  have around := parent?_defineIn st holder name value
  exact ⟨(·.of_same size.symm fun k => (around k).symm), (·.of_same size around)⟩

/-- A name that a frame binds already can be bound there again without another path ending at
that frame. -/
theorem reaches_defineIn_iff {old : Value} (bound : st.varIn? holder name = some old) (value : Value)
    (i : Nat) (other : String) (j : Nat) :
    (st.defineIn holder name value).Reaches i other j ↔ st.Reaches i other j := by
  have unbound (k : Nat) : (st.defineIn holder name value).varIn? k other = none ↔
      st.varIn? k other = none := by
    rw [varIn?_defineIn_eq (lt_size_of_varIn? bound)]
    split
    next both =>
        obtain ⟨rfl, rfl⟩ := both
        rw [bound]
        exact ⟨nofun, nofun⟩
    next => exact Iff.rfl
  unfold Reaches
  simp only [path_defineIn_iff, unbound]

/-- A definition in a frame that binds the name already is an assignment. -/
theorem Nested.assigned_defineIn (nested : st.Nested) {old : Value}
    (bound : st.varIn? holder name = some old) (value : Value) :
    st.Assigned name value holder (st.defineIn holder name value) := by
  have changed := varIn?_defineIn_eq (lt_size_of_varIn? bound) name value
  have reaches := reaches_defineIn_iff bound value
  have nested' := nested.defineIn holder name value
  refine ⟨changed, path_defineIn_iff st holder name value, ?_, ?_, ?_⟩
  · intro j reached
    apply nested'.lookupIn?_eq_some_iff.mpr
    exact ⟨holder, (reaches ..).mpr reached, (changed ..).trans (if_pos ⟨rfl, rfl⟩)⟩
  · intro j hidden
    apply Option.ext
    intro seen
    rw [nested'.lookupIn?_eq_some_iff, nested.lookupIn?_eq_some_iff]
    apply exists_congr
    intro k
    rw [reaches]
    apply and_congr_right
    intro reached
    have elsewhere : k ≠ holder := by
      rintro rfl
      exact hidden reached
    rw [changed, if_neg (fun both => elsewhere both.1)]
  · intro j other different
    apply Option.ext
    intro seen
    rw [nested'.lookupIn?_eq_some_iff, nested.lookupIn?_eq_some_iff]
    apply exists_congr
    intro k
    rw [reaches, changed, if_neg (fun both => different both.2)]

/-- In every tree of frames that can be built: from each frame one path leads to the root, and
look-up of a name takes the value of the first frame on it that binds the name.  An assignment
is made exactly if look-up finds the name; then it changes the binding in the first frame that
binds it, and the new value is seen from those frames whose path comes to that frame before it
meets another binding of the name, and from no other ones. -/
theorem Built.lookupIn?_assignIn? (built : st.Built) (there : i < st.frames.size) (name : String)
    (value : Value) :
    (∃ path, st.Path i path ∧ (∀ path', st.Path i path' → path' = path) ∧
        st.lookupIn? i name = path.findSome? (st.varIn? · name)) ∧
      ((st.assignIn? i name value).isSome ↔ (st.lookupIn? i name).isSome) ∧
        ∀ st', st.assignIn? i name value = some st' →
          ∃ holder, st.Reaches i name holder ∧ (st.varIn? holder name).isSome ∧
            st.Assigned name value holder st' := by
  have nested := built.nested
  obtain ⟨path, way⟩ := nested.exists_path there
  refine ⟨⟨path, way, fun _ other => other.unique way, nested.lookupIn?_eq way name⟩, ?_, ?_⟩
  · unfold assignIn? lookupIn?
    rw [Option.isSome_map, Option.isSome_map]
  · intro st' assigned
    obtain ⟨holder, old, found, rfl⟩ := assignIn?_eq_some_iff.mp assigned
    obtain ⟨reached, bound⟩ := nested.binder?_eq_some_iff.mp found
    refine ⟨holder, reached, ?_, nested.assigned_defineIn bound value⟩
    rw [bound]
    rfl

/-- The root binds `n`, and so does the third of three frames inside one another.  The third and
the fourth one see an assignment from the fourth; the second one still sees the root. -/
theorem Built.lookupIn?_assignIn?_nearer :
    let st := ((((({} : Store).defineIn 0 "n" (.int 1)).childFrame 0).2.childFrameWith 1
      [("n", .int 2)]).2.childFrame 2).2
    ∃ st', st.assignIn? 3 "n" (.int 7) = some st' ∧ st'.lookupIn? 3 "n" = some (.int 7) ∧
      st'.lookupIn? 2 "n" = some (.int 7) ∧ st'.lookupIn? 1 "n" = some (.int 1) := by
  intro st
  have built : st.Built :=
    .child (.childWith (.child (.define .root 0 "n" (.int 1)) (by decide)) (by decide) _) (by decide)
  have second : st.Path 1 [1, 0] := .inner rfl (.root (by decide) rfl)
  have third : st.Path 2 [2, 1, 0] := .inner rfl second
  have innermost : 3 < st.frames.size := by decide
  obtain ⟨-, assigns, effect⟩ := built.lookupIn?_assignIn? innermost "n" (.int 7)
  obtain ⟨st', assigned⟩ := Option.isSome_iff_exists.mp (assigns.mpr (by decide))
  obtain ⟨holder, reached, bound, changed⟩ := effect st' assigned
  obtain ⟨old, bound⟩ := Option.isSome_iff_exists.mp bound
  have found : st.binder? 3 "n" = some (2, .int 2) := rfl
  obtain rfl : 2 = holder := by
    rw [built.nested.binder?_eq_some_iff.mpr ⟨reached, bound⟩] at found
    cases found
    rfl
  refine ⟨st', assigned, changed.lookupIn?_of_reaches 3 reached,
    changed.lookupIn?_of_reaches 2 ⟨[], [1, 0], third, nofun⟩,
    (changed.lookupIn?_of_not_reaches 1 ?_).trans rfl⟩
  rintro ⟨before, after, way, -⟩
  have outside : 2 ∈ [1, 0] := by
    rw [second.unique way]
    exact List.mem_append_right before (List.mem_cons_self ..)
  exact absurd outside (by decide)

end EditorLisp.Store
