import EditorLisp.Proofs.Regexp.Automaton.Search

/-!
# Groups are numbered from one

Parsing numbers the groups of a pattern from one on, the number zero standing for the whole
match.  So no instruction that a pattern comes down to remembers a place under the first
number, which is where a search keeps the start of the whole match.
-/

namespace EditorLisp.Regexp

/-! ## Trees -/

/-- All numbered groups of a tree have positive numbers. -/
def Tree.Numbered : Tree → Prop
  | empty | one _ | look _ => True
  | group index body => (∀ n, index = some n → 0 < n) ∧ body.Numbered
  | seq a b | alt a b => a.Numbered ∧ b.Numbered
  | rep body _ _ _ => body.Numbered

namespace Tree

theorem numbered_foldl {join : Tree → Tree → Tree}
    (joined : ∀ a b : Tree, a.Numbered → b.Numbered → (join a b).Numbered) (before : List Tree)
    (all : ∀ t ∈ before, t.Numbered) {last : Tree} (numbered : last.Numbered) :
    (before.foldl join last).Numbered := by
  induction before generalizing last with
  | nil => exact numbered
  | cons t rest ih =>
      obtain ⟨first, others⟩ := List.forall_mem_cons.mp all
      exact ih others (joined last t numbered first)

theorem numbered_sequence {items : List Tree} (all : ∀ t ∈ items, t.Numbered) :
    (sequence items).Numbered := by
  cases items with
  | nil => trivial
  | cons last before =>
      obtain ⟨first, others⟩ := List.forall_mem_cons.mp all
      have joined (a b : Tree) (tail : a.Numbered) (item : b.Numbered) : (seq b a).Numbered :=
        ⟨item, tail⟩
      exact numbered_foldl joined before others first

theorem numbered_choice {last : Tree} {before : List Tree} (numbered : last.Numbered)
    (all : ∀ t ∈ before, t.Numbered) : (choice last before).Numbered := by
  have joined (a b : Tree) (tail : a.Numbered) (item : b.Numbered) : (alt b a).Numbered :=
    ⟨item, tail⟩
  exact numbered_foldl joined before all numbered

end Tree

/-! ## Parsing -/

/-- All trees of an open group are numbered from one, and so is the group. -/
structure OpenGroup.Numbered (g : OpenGroup) : Prop where
  index : ∀ n, g.index = some n → 0 < n
  alternatives : ∀ t ∈ g.alternatives, t.Numbered
  items : ∀ t ∈ g.items, t.Numbered

/-- All trees of a state of parsing are numbered from one, and so are the open groups. -/
structure ParseState.Numbered (p : ParseState) : Prop where
  items : ∀ t ∈ p.items, t.Numbered
  alternatives : ∀ t ∈ p.alternatives, t.Numbered
  stack : ∀ g ∈ p.stack, g.Numbered

namespace ParseState.Numbered

variable {p p' : ParseState}

theorem push (numbered : p.Numbered) {item : Tree} (also : item.Numbered) :
    (p.push item).Numbered :=
  { numbered with items := List.forall_mem_cons.mpr ⟨also, numbered.items⟩ }

theorem body (numbered : p.Numbered) : p.body.Numbered :=
  Tree.numbered_choice (Tree.numbered_sequence numbered.items) numbered.alternatives

theorem openGroup (numbered : p.Numbered) (isNumbered : Bool) :
    (p.openGroup isNumbered).Numbered where
  items := List.forall_mem_nil _
  alternatives := List.forall_mem_nil _
  stack := by
    refine List.forall_mem_cons.mpr ⟨⟨?_, numbered.alternatives, numbered.items⟩, numbered.stack⟩
    intro n isIndex
    cases isNumbered with
    | true =>
        cases isIndex
        exact Nat.succ_pos _
    | false => cases isIndex

theorem closeGroup (numbered : p.Numbered) : p.closeGroup.Numbered := by
  obtain ⟨items, alternatives, stack, groups⟩ := p
  cases stack with
  | nil => exact numbered
  | cons g stack =>
      obtain ⟨innermost, others⟩ := List.forall_mem_cons.mp numbered.stack
      exact ⟨List.forall_mem_cons.mpr ⟨⟨innermost.index, numbered.body⟩, innermost.items⟩,
        innermost.alternatives, others⟩

theorem repeatLast (numbered : p.Numbered) {least : Nat} {most : Option Nat} {greedy : Bool}
    (repeated : p.repeatLast least most greedy = .ok p') : p'.Numbered := by
  unfold ParseState.repeatLast at repeated
  split at repeated
  · cases repeated
  · cases repeated
  · next item before _ given =>
      cases repeated
      have all := numbered.items
      rw [given] at all
      obtain ⟨first, others⟩ := List.forall_mem_cons.mp all
      exact { numbered with items := List.forall_mem_cons.mpr ⟨first, others⟩ }

theorem shift (numbered : p.Numbered) (token : Token) : (p.shift token).Numbered := by
  cases token with
  | openGroup => exact numbered.openGroup true
  | openShy => exact numbered.openGroup false
  | close => exact numbered.closeGroup
  | alternative =>
      refine ⟨List.forall_mem_nil _, ?_, numbered.stack⟩
      exact List.forall_mem_cons.mpr ⟨Tree.numbered_sequence numbered.items, numbered.alternatives⟩
  | star => exact numbered
  | plus => exact numbered
  | question => exact numbered
  | bounds _ => exact numbered
  | _ => exact numbered.push trivial

theorem parseTokens (numbered : p.Numbered) {tokens : List Token}
    (parsed : Regexp.parseTokens p tokens = .ok p') : p'.Numbered := by
  fun_induction Regexp.parseTokens p tokens with
  | case1 p =>
      cases parsed
      exact numbered
  | case2 p token rest _ ih => exact ih (numbered.shift token) parsed
  | case3 => cases parsed
  | case4 p token least most _ rest ih =>
      cases repeated : p.repeatLast least most false with
      | error fault =>
          rw [repeated] at parsed
          cases parsed
      | ok q =>
          rw [repeated] at parsed
          exact ih q (numbered.repeatLast repeated) parsed
  | case5 p token least most _ rest _ ih =>
      cases repeated : p.repeatLast least most true with
      | error fault =>
          rw [repeated] at parsed
          cases parsed
      | ok q =>
          rw [repeated] at parsed
          exact ih q (numbered.repeatLast repeated) parsed

end ParseState.Numbered

/-- The groups of the tree of a pattern are numbered from one. -/
theorem Tree.numbered_ofTokens {signs : List Token} {tree : Tree}
    (parsed : Tree.ofTokens signs = .ok tree) : tree.Numbered := by
  have start : ParseState.Numbered { items := [.empty] } :=
    ⟨List.forall_mem_singleton.mpr trivial, List.forall_mem_nil _, List.forall_mem_nil _⟩
  unfold Tree.ofTokens at parsed
  cases taken : parseTokens { items := [.empty] } signs with
  | error fault =>
      rw [taken] at parsed
      cases parsed
  | ok state =>
      rw [taken] at parsed
      simp only [bind, Except.bind] at parsed
      split_ifs at parsed
      cases parsed
      exact (start.parseTokens taken).body

/-! ## Instructions -/

namespace Code

/-- No instruction remembers a place under the first number. -/
def KeepsStart (code : Array Instruction) : Prop :=
  ∀ slot next, Instruction.save slot next ∈ code → slot ≠ 0

/-- A way of laying something down adds no instruction that remembers a place under the first
number. -/
def LaysKeeping (lay : Nat → Array Instruction → Piece) : Prop :=
  ∀ next code, KeepsStart code → KeepsStart (lay next code).2

variable {code : Array Instruction} {lay : Nat → Array Instruction → Piece}

theorem KeepsStart.push (keeps : KeepsStart code) {i : Instruction}
    (other : ∀ slot next, i = .save slot next → slot ≠ 0) : KeepsStart (code.push i) := by
  intro slot next member
  rcases Array.mem_push.mp member with before | this
  · exact keeps slot next before
  · exact other slot next this.symm

/-- A branch remembers nothing. -/
theorem ne_zero_of_choose {greedy : Bool} {again onward : Nat} (slot next : Nat)
    (same : choose greedy again onward = .save slot next) : slot ≠ 0 := by
  unfold choose at same
  split at same
  · cases same
  · cases same

theorem LaysKeeping.times (keeping : LaysKeeping lay) (n : Nat) :
    LaysKeeping (times lay n) := by
  induction n with
  | zero => exact fun _ _ keeps => keeps
  | succ n ih => exact fun next code keeps => ih _ _ (keeping next code keeps)

theorem LaysKeeping.optional (keeping : LaysKeeping lay) (greedy : Bool) (onward n : Nat) :
    LaysKeeping (optional lay greedy onward n) := by
  induction n with
  | zero => exact fun _ _ keeps => keeps
  | succ n ih =>
      intro next code keeps
      exact ih _ _ ((keeping next code keeps).push ne_zero_of_choose)

theorem LaysKeeping.loop (keeping : LaysKeeping lay) (greedy : Bool) (onward : Nat)
    (keeps : KeepsStart code) : KeepsStart (loop lay greedy onward code).2.2 := by
  have reserved : KeepsStart (code.push .done) := keeps.push nofun
  intro slot next member
  rcases Array.mem_or_eq_of_mem_setIfInBounds member with before | this
  · exact keeping code.size _ reserved slot next before
  · exact ne_zero_of_choose slot next this.symm

end Code

open Code in
theorem Tree.laysKeeping_lay {tree : Tree} (numbered : tree.Numbered) : LaysKeeping tree.lay := by
  induction tree with
  | empty => exact fun _ _ keeps => keeps
  | one set => exact fun next code keeps => keeps.push nofun
  | look l => exact fun next code keeps => keeps.push nofun
  | group index body ih =>
      obtain ⟨positive, below⟩ := numbered
      cases index with
      | none => exact ih below
      | some n =>
          have save (slot : Nat) (stop : Nat) (isNumber : 2 * n ≤ slot) :
              ∀ slot' next, Instruction.save slot stop = .save slot' next → slot' ≠ 0 := by
            rintro slot' next ⟨⟩
            have := positive n rfl
            omega
          intro next code keeps
          have laid := ih below code.size _ (keeps.push (save (2 * n + 1) next (Nat.le_succ _)))
          exact laid.push (save (2 * n) _ (Nat.le_refl _))
  | seq a b first second =>
      intro next code keeps
      exact first numbered.1 _ _ (second numbered.2 next code keeps)
  | alt a b first second =>
      intro next code keeps
      exact (second numbered.2 next _ (first numbered.1 next code keeps)).push nofun
  | rep body least most greedy ih =>
      have keeping := ih numbered
      intro next code keeps
      unfold Tree.lay
      split
      next =>
          have looped := keeping.loop greedy next keeps
          dsimp only
          split
          · exact looped.push ne_zero_of_choose
          · exact looped
      next least _ => exact (keeping.times least) _ _ (keeping.loop greedy next keeps)
      next least most _ =>
          exact (keeping.times least) _ _ ((keeping.optional greedy next _) next code keeps)

/-- The program of a tree whose groups are numbered from one remembers the start of the whole
match. -/
theorem Program.proper_ofTree {tree : Tree} (numbered : tree.Numbered) (fold : Bool) :
    (Program.ofTree tree fold).Proper := by
  have start : Code.KeepsStart #[.done] := by
    intro slot next member
    cases Array.mem_singleton.mp member
  have laid := Tree.laysKeeping_lay numbered 0 #[.done] start
  refine ⟨fun pc slot next here => ?_, Nat.succ_pos _⟩
  exact laid slot next (Array.mem_of_getElem? here)

/-- So does the program of a pattern. -/
theorem Program.proper_ofSource {source : String} {p : Program}
    (compiled : Program.ofSource source = .ok p) : p.Proper := by
  unfold Program.ofSource at compiled
  cases read : readPattern source with
  | error refusal =>
      rw [read] at compiled
      cases compiled
  | ok pattern =>
      rw [read] at compiled
      simp only [bind, Except.bind] at compiled
      cases parsed : Tree.ofTokens pattern.2 with
      | error refusal =>
          rw [parsed] at compiled
          cases compiled
      | ok tree =>
          rw [parsed] at compiled
          cases compiled
          exact proper_ofTree (Tree.numbered_ofTokens parsed) pattern.1

end EditorLisp.Regexp
