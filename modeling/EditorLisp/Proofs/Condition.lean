import EditorLisp.Condition
import EditorLisp.Proofs.Table
import Mathlib.Data.List.Nodup
import Mathlib.Logic.Relation
import Mathlib.Order.WellFounded

/-!
# The forest of conditions

A condition may be redefined under another parent and may be defined before its parent is,
so the forest can change its shape with every definition.  What no definition can do is to
put a condition above itself: whatever has been defined so far, going from condition to
parent ends.  The invariant is that the relation between parent and condition is well
founded, and everything about chains and handlers is read off it.
-/

namespace EditorLisp.Conditions

variable {c c' : Conditions} {name other parent message : String}

/-! ## Parents and ancestors -/

/-- A condition was defined under another one. -/
def IsParent (c : Conditions) (parent name : String) : Prop := c.parent? name = some parent

/-- A condition is above another one, over any number of steps. -/
def Ancestor (c : Conditions) : String → String → Prop := Relation.TransGen c.IsParent

/-- Going from condition to parent always ends. -/
def Grounded (c : Conditions) : Prop := WellFounded c.IsParent

theorem not_ancestor_of_parent?_eq_none (top : c.parent? name = none) : ¬c.Ancestor other name := by
  intro above
  obtain ⟨last, -, isParent⟩ := Relation.TransGen.tail'_iff.mp above
  rw [IsParent, top] at isParent
  cases isParent

/-- A condition has one parent, so what is above it is that or above that. -/
theorem ancestor_iff_of_parent? (isParent : c.parent? name = some parent) :
    c.Ancestor other name ↔ other = parent ∨ c.Ancestor other parent := by
  constructor
  · intro above
    obtain ⟨last, path, last_parent⟩ := Relation.TransGen.tail'_iff.mp above
    rw [IsParent, isParent] at last_parent
    cases last_parent
    rcases Relation.reflTransGen_iff_eq_or_transGen.mp path with same | longer
    · exact .inl same.symm
    · exact .inr longer
  · rintro (rfl | above)
    · exact .single isParent
    · exact .tail above isParent

theorem Grounded.not_ancestor_self (grounded : c.Grounded) (name : String) :
    ¬c.Ancestor name name :=
  fun above => grounded.transGen.irrefl.irrefl name above

/-! ## Lines of ancestors -/

/-- A condition followed by its ancestors, up to one that has no parent. -/
inductive Line (c : Conditions) : String → List String → Prop
  | last {name : String} (top : c.parent? name = none) : Line c name [name]
  | next {name parent : String} {rest : List String} (isParent : c.parent? name = some parent)
      (line : Line c parent rest) : Line c name (name :: rest)

theorem Grounded.exists_line (grounded : c.Grounded) (name : String) : ∃ line, c.Line name line := by
  induction name using grounded.induction with
  | _ name ih =>
      cases isParent : c.parent? name with
      | none => exact ⟨_, .last isParent⟩
      | some parent =>
          obtain ⟨rest, line⟩ := ih parent isParent
          exact ⟨_, .next isParent line⟩

namespace Line

variable {line : List String}

theorem mem_iff (h : c.Line name line) : other ∈ line ↔ other = name ∨ c.Ancestor other name := by
  induction h with
  | last top =>
      rw [List.mem_singleton]
      exact (or_iff_left (not_ancestor_of_parent?_eq_none top)).symm
  | next isParent _ ih => rw [List.mem_cons, ih, ancestor_iff_of_parent? isParent]

/-- A condition that came twice would be above itself. -/
theorem nodup (h : c.Line name line) (grounded : c.Grounded) : line.Nodup := by
  induction h with
  | last _ => exact List.nodup_singleton _
  | next isParent line ih =>
      refine List.nodup_cons.mpr ⟨fun again => ?_, ih⟩
      have above := (ancestor_iff_of_parent? isParent).mpr (line.mem_iff.mp again)
      exact grounded.not_ancestor_self _ above

theorem ne_nil (h : c.Line name line) : line ≠ [] := by
  cases h with
  | last _ => exact List.cons_ne_nil _ _
  | next _ _ => exact List.cons_ne_nil _ _

/-- All but the last have an entry, since they have a parent. -/
theorem dropLast_subset (h : c.Line name line) : line.dropLast ⊆ c.entries.keys := by
  induction h with
  | last _ => exact List.nil_subset _
  | @next name parent rest isParent line ih =>
      rw [List.dropLast_cons_of_ne_nil line.ne_nil]
      refine List.cons_subset.mpr ⟨?_, ih⟩
      obtain ⟨entry, found, -⟩ := Option.bind_eq_some_iff.mp isParent
      exact (Table.mem_keys_iff ..).mpr ((Table.contains_iff ..).mpr ⟨entry, found⟩)

theorem length_le (h : c.Line name line) (grounded : c.Grounded) :
    line.length ≤ c.entries.size + 1 := by
  have distinct := (h.nodup grounded).sublist (List.dropLast_sublist line)
  have few := distinct.length_le_of_subset h.dropLast_subset
  have count : c.entries.keys.length = c.entries.size := List.length_map ..
  rw [List.length_dropLast, count] at few
  omega

/-- With room for the whole line, and none of it seen before, the line is what is listed. -/
theorem chainFrom_eq (h : c.Line name line) (distinct : line.Nodup) {fuel : Nat}
    {seen : List String} (room : line.length ≤ fuel) (unseen : ∀ a ∈ line, a ∉ seen) :
    c.chainFrom fuel seen name = line := by
  induction h generalizing fuel seen with
  | @last name top =>
      obtain ⟨fuel, rfl⟩ := Nat.exists_eq_add_of_le' room
      rw [List.length_singleton, chainFrom, if_neg (unseen name List.mem_cons_self), top]
  | @next name parent rest isParent line ih =>
      obtain ⟨fuel, rfl⟩ := Nat.exists_eq_add_of_le' (Nat.le_trans (Nat.le_add_left 1 _) room)
      obtain ⟨once, others⟩ := List.nodup_cons.mp distinct
      have further : ∀ a ∈ rest, a ∉ name :: seen := by
        intro a member again
        rcases List.mem_cons.mp again with rfl | before
        · exact once member
        · exact unseen a (List.mem_cons_of_mem _ member) before
      rw [chainFrom, if_neg (unseen name List.mem_cons_self), isParent]
      exact congrArg (name :: ·) (ih others (Nat.le_of_succ_le_succ room) further)

end Line

/-- The chain of a condition is its whole line: neither the guard against a name seen before
nor the counter cuts it short. -/
theorem Grounded.line_chain (grounded : c.Grounded) (name : String) :
    c.Line name (c.chain name) := by
  obtain ⟨line, h⟩ := grounded.exists_line name
  have room : line.length ≤ c.entries.size + 2 := Nat.le_succ_of_le (h.length_le grounded)
  have whole : c.chain name = line :=
    h.chainFrom_eq (h.nodup grounded) room fun _ _ => List.not_mem_nil
  rwa [whole]

theorem Grounded.mem_chain (grounded : c.Grounded) :
    other ∈ c.chain name ↔ other = name ∨ c.Ancestor other name :=
  (grounded.line_chain name).mem_iff

/-! ## Definitions -/

/-- The conditions of a new session are at most two steps below the root. -/
theorem grounded_initial : initial.Grounded := by
  let rank (name : String) : Nat :=
    if name = root then 0 else if name ∈ ["overflow-error", "file-missing"] then 2 else 1
  have higher : ∀ e ∈ initial.entries.entries, ∀ parent ∈ e.2.parent, rank parent < rank e.1 := by
    decide +kernel
  apply Subrelation.wf _ (measure rank).wf
  intro parent name isParent
  obtain ⟨entry, found, under⟩ := Option.bind_eq_some_iff.mp isParent
  exact higher _ (Table.mem_entries_of_get? found) parent under

theorem define_eq_ok_iff : c.define name message parent = .ok c' ↔
    name ≠ root ∧ ¬(name = parent ∨ name ∈ c.chain parent) ∧
      c' = ⟨c.entries.insert name ⟨some parent, message⟩⟩ := by
  unfold define
  by_cases top : name = root
  · simp [top]
  · by_cases above : name = parent ∨ name ∈ c.chain parent
    · simp [top, above]
    · simp [top, above, eq_comm]

/-- A definition gives one condition a parent and leaves the others theirs. -/
theorem parent?_of_define (accepted : c.define name message parent = .ok c') (other : String) :
    c'.parent? other = if name = other then some parent else c.parent? other := by
  obtain ⟨-, -, rfl⟩ := define_eq_ok_iff.mp accepted
  rw [parent?, Table.get?_insert]
  split <;> rfl

/-- The step: first everything that is not below the condition defined is grounded, as it was
before, then that condition, whose parent is not below it, and then everything else. -/
theorem grounded_define (grounded : c.Grounded)
    (accepted : c.define name message parent = .ok c') : c'.Grounded := by
  obtain ⟨-, free, -⟩ := define_eq_ok_iff.mp accepted
  have parents := parent?_of_define accepted
  have apart (other : String) (elsewhere : other ≠ name) (notBelow : ¬c.Ancestor name other) :
      Acc c'.IsParent other := by
    induction other using grounded.induction with
    | _ other ih =>
        refine ⟨_, fun above isParent => ?_⟩
        have before : c.IsParent above other := by
          rwa [IsParent, parents, if_neg (Ne.symm elsewhere)] at isParent
        apply ih above before
        · rintro rfl
          exact notBelow (.single before)
        · exact fun further => notBelow (.tail further before)
  have defined : Acc c'.IsParent name := by
    refine ⟨_, fun above isParent => ?_⟩
    rw [IsParent, parents, if_pos rfl] at isParent
    cases isParent
    rw [not_or] at free
    have notBelow : ¬c.Ancestor name parent := by
      intro below
      exact free.2 (grounded.mem_chain.mpr (.inr below))
    exact apart parent (Ne.symm free.1) notBelow
  refine ⟨fun other => ?_⟩
  induction other using grounded.induction with
  | _ other ih =>
      by_cases here : name = other
      · exact here ▸ defined
      · refine ⟨_, fun above isParent => ih above ?_⟩
        rwa [IsParent, parents, if_neg here] at isParent

/-! ## Handlers -/

theorem handles_iff (grounded : c.Grounded) {spec : String} (named : spec ≠ "t") (name : String) :
    c.handles spec name = true ↔ spec = name ∨ c.Ancestor spec name := by
  simp [handles, named, grounded.mem_chain]

/-- What the conditions defined so far amount to: a forest, in which a chain lists a condition
and what is above it, and handlers go by that order. -/
structure Forest (c : Conditions) : Prop where
  not_ancestor_self (name : String) : ¬c.Ancestor name name
  nodup_chain (name : String) : (c.chain name).Nodup
  mem_chain {name other : String} : other ∈ c.chain name ↔ other = name ∨ c.Ancestor other name
  handles_iff {spec : String} (named : spec ≠ "t") (name : String) :
    c.handles spec name = true ↔ spec = name ∨ c.Ancestor spec name
  handles_refl (name : String) : c.handles name name = true
  handles_trans {first second name : String} (named : second ≠ "t")
    (above : c.handles first second = true) (below : c.handles second name = true) :
    c.handles first name = true
  handles_antisymm {first second : String} (named : first ≠ "t") (named' : second ≠ "t")
    (above : c.handles first second = true) (below : c.handles second first = true) :
    first = second

theorem forest_of_grounded (grounded : c.Grounded) : c.Forest where
  not_ancestor_self := grounded.not_ancestor_self
  nodup_chain name := (grounded.line_chain name).nodup grounded
  mem_chain := grounded.mem_chain
  handles_iff := Conditions.handles_iff grounded
  handles_refl name := by
    have first : name ∈ c.chain name := grounded.mem_chain.mpr (.inl rfl)
    simp [handles, first]
  handles_trans {first second name} named above below := by
    by_cases all : first = "t"
    · simp [handles, all]
    · rw [Conditions.handles_iff grounded all] at above ⊢
      rw [Conditions.handles_iff grounded named] at below
      rcases above with rfl | above
      · exact below
      · rcases below with rfl | below
        · exact .inr above
        · exact .inr (above.trans below)
  handles_antisymm {first second} named named' above below := by
    rw [Conditions.handles_iff grounded named] at above
    rw [Conditions.handles_iff grounded named'] at below
    rcases above with same | above
    · exact same
    · rcases below with same | below
      · exact same.symm
      · exact absurd (above.trans below) (grounded.not_ancestor_self first)

/-! ## Histories -/

/-- A call to define a condition. -/
structure Definition where
  name : String
  message : String
  parent : String

/-- The conditions after a call to define one, accepted or refused. -/
def call (c : Conditions) (d : Definition) : Conditions :=
  match c.define d.name d.message d.parent with
  | .ok c' => c'
  | .error _ => c

/-- The conditions after a number of calls. -/
def run (c : Conditions) (history : List Definition) : Conditions := history.foldl call c

theorem grounded_call (grounded : c.Grounded) (d : Definition) : (c.call d).Grounded := by
  unfold call
  split
  next accepted => exact grounded_define grounded accepted
  next => exact grounded

theorem grounded_run (grounded : c.Grounded) (history : List Definition) :
    (c.run history).Grounded := by
  induction history generalizing c with
  | nil => exact grounded
  | cons d rest ih => exact ih (grounded_call grounded d)

/-- A condition has the parent it had before until it is defined itself. -/
theorem parent?_run_of_unmentioned {history : List Definition}
    (unmentioned : ∀ d ∈ history, d.name ≠ name) :
    (c.run history).parent? name = c.parent? name := by
  induction history generalizing c with
  | nil => rfl
  | cons d rest ih =>
      obtain ⟨different, others⟩ := List.forall_mem_cons.mp unmentioned
      have step : (c.call d).parent? name = c.parent? name := by
        unfold call
        split
        next accepted => rw [parent?_of_define accepted, if_neg different]
        next => rfl
      exact (ih others).trans step

/-- Conditions that a number of calls may have made of others. -/
def Develops (c c' : Conditions) : Prop := ∃ history, c' = c.run history

namespace Develops

variable {c'' : Conditions}

@[refl]
theorem refl (c : Conditions) : c.Develops c := ⟨[], rfl⟩

theorem trans (first : c.Develops c') (second : c'.Develops c'') : c.Develops c'' := by
  obtain ⟨history, rfl⟩ := first
  obtain ⟨history', rfl⟩ := second
  exact ⟨history ++ history', List.foldl_append.symm⟩

theorem of_define (accepted : c.define name message parent = .ok c') : c.Develops c' := by
  refine ⟨[⟨name, message, parent⟩], ?_⟩
  show c' = c.call ⟨name, message, parent⟩
  rw [call, accepted]

theorem grounded (developed : c.Develops c') (grounded : c.Grounded) : c'.Grounded := by
  obtain ⟨history, rfl⟩ := developed
  exact grounded_run grounded history

end Develops

end EditorLisp.Conditions
