import EditorLisp.Proofs.Document.Current
import EditorLisp.Proofs.Primitives.Search
import EditorLisp.Proofs.Store.Lists

/-!
# Searches change no text

However a search ends, the buffers are the same as before, with the same texts, and so is
everything in the store.  What it may change are the point, the match data and what comes
after the old data in the store.
-/

namespace EditorLisp

open Eval

/-! ## Steps that change no text -/

/-- What a search leaves as it is: the buffers there are, with their texts, and the data in the
store. -/
structure Session.Browsed (s t : Session) : Prop where
  wellFormed : t.workspace.WellFormed
  texts : ∀ id, (t.workspace.buffer? id).map Buffer.text = (s.workspace.buffer? id).map Buffer.text
  pairs : s.store.KeptIn t.store

namespace Session.Browsed

variable {s t u : Session}

theorem refl (wf : s.workspace.WellFormed) : s.Browsed s :=
  ⟨wf, fun _ => rfl, .refl _⟩

theorem trans (first : s.Browsed t) (second : t.Browsed u) : s.Browsed u where
  wellFormed := second.wellFormed
  texts id := (second.texts id).trans (first.texts id)
  pairs := first.pairs.trans second.pairs

/-- Making another buffer current changes no buffer. -/
theorem setCurrent (wf : s.workspace.WellFormed) (id : Nat) :
    s.Browsed { s with workspace := s.workspace.setCurrent id } where
  wellFormed := Workspace.wellFormed_setCurrent wf id
  texts other := by
    unfold Workspace.buffer?
    rw [Workspace.buffers_setCurrent wf]
  pairs := .refl _

/-- Moving the point changes no text. -/
theorem goto (wf : s.workspace.WellFormed) (id pos : Nat) :
    s.Browsed (s.changing id (·.goto pos)) where
  wellFormed := Workspace.wellFormed_modifyBuffer wf fun _ _ => Buffer.edited_goto _ _
  texts other := by
    show ((s.workspace.modifyBuffer id (·.goto pos)).buffer? other).map Buffer.text = _
    rw [Workspace.buffer?_modifyBuffer]
    split
    next => exact Option.map_map ..
    next => rfl
  pairs := .refl _

end Session.Browsed

/-- A step that changes no text and no data, however it ends. -/
class Eval.Browses {α : Type} (m : Eval α) : Prop where
  browses : ∀ s, s.workspace.WellFormed → (m s).Leaves s.Browsed

namespace Eval.Browses

variable {α β : Type}

instance pure (a : α) : Browses (Pure.pure a : Eval α) := ⟨fun _ => .refl⟩

instance leave (flow : Flow) : Browses (Eval.leave flow : Eval α) := ⟨fun _ => .refl⟩

instance bind {m : Eval α} {f : α → Eval β} [first : Browses m] [next : ∀ a, Browses (f a)] :
    Browses (m >>= f) where
  browses s wf := leaves_bind (first.browses s wf) fun a s' kept =>
    ((next a).browses s' kept.wellFormed).mono fun _ => kept.trans

/-- A step followed by others, given as such. -/
theorem after {m : Eval α} {f : α → Eval β} [Browses m] (next : ∀ a, Browses (f a)) :
    Browses (m >>= f) :=
  bind

instance ite {c : Prop} [Decidable c] {m n : Eval α} [yes : Browses m] [no : Browses n] :
    Browses (if c then m else n) := by
  split <;> infer_instance

instance granted (result : Option α) : Browses (Eval.granted result) := by
  unfold Eval.granted
  split
  · infer_instance
  · exact ⟨fun _ _ => trivial⟩

instance session : Browses Eval.session := ⟨fun _ => .refl⟩

instance text (out : String) : Browses (Eval.text out) :=
  ⟨fun _ wf => ⟨wf, fun _ => rfl, .refl _⟩⟩

instance list (items : List Value) : Browses (Eval.list items) :=
  ⟨fun s wf => ⟨wf, fun _ => rfl, (Store.lists_list s.store items).2⟩⟩

instance setMatchData (m : Option MatchData) : Browses (Primitives.setMatchData m) :=
  ⟨fun _ wf => ⟨wf, fun _ => rfl, .refl _⟩⟩

instance currentId : Browses Eval.currentId where
  browses s wf := by
    rw [Restores.currentId_of_wellFormed wf]
    exact .refl wf

instance currentBuffer : Browses Eval.currentBuffer where
  browses s wf := by
    obtain ⟨id, b, -, -, found⟩ := Restores.currentBuffer_of_wellFormed wf
    rw [found]
    exact .refl wf

instance goto (pos : Nat) : Browses (Eval.modifyCurrent (·.goto pos)) where
  browses s wf := by
    obtain ⟨id, b, -, found, -⟩ := Restores.currentBuffer_of_wellFormed wf
    unfold Eval.modifyCurrent
    rw [Eval.bind_of_ok _ found]
    exact Session.Browsed.goto wf id pos

instance signal (condition : String) (data : List Value) :
    Browses (Eval.signal condition data : Eval α) := by
  unfold Eval.signal
  infer_instance

instance error (message : String) : Browses (Eval.error message : Eval α) := by
  unfold Eval.error
  infer_instance

instance wrongType (predicate : String) (got : Value) :
    Browses (Eval.wrongType predicate got : Eval α) :=
  leave _

instance between (name : String) (args : List Value) (minimum maximum : Nat) :
    Browses (Eval.between name args minimum maximum) := by
  unfold Eval.between Eval.wrongArity
  infer_instance

instance exactly (name : String) (args : List Value) (n : Nat) :
    Browses (Eval.exactly name args n) := by
  unfold Eval.exactly Eval.wrongArity
  infer_instance

instance integer (v : Value) : Browses (Eval.integer v) := by
  unfold Eval.integer
  split <;> infer_instance

instance integerOr (default : Int64) (v : Option Value) : Browses (Eval.integerOr default v) := by
  unfold Eval.integerOr
  split <;> infer_instance

instance string (v : Value) : Browses (Eval.string v) := by
  unfold Eval.string
  split <;> infer_instance

instance searchPattern (source : String) : Browses (Eval.searchPattern source) := by
  have compiled (fold : Bool) : Browses (Eval.pattern source fold) := by
    unfold Eval.pattern
    refine after fun s => ?_
    split <;> infer_instance
  unfold Eval.searchPattern
  infer_instance

end Eval.Browses

namespace Primitives

open Browses

variable {I : Interp} {args : List Value}

instance (v : Option Value) (length default : Nat) : Browses (resolveIndex v length default) := by
  unfold resolveIndex
  split <;> infer_instance

instance (source : String) (noError : Value) (id : Nat) (backward : Bool) (bound : Nat)
    (found : Option Regexp.Spans) : Browses (conclude source noError id backward bound found) := by
  unfold conclude
  split
  · infer_instance
  · refine after fun _ => ?_
    split <;> infer_instance

instance (source : String) (backward : Bool) : Browses (searchBuffer source args backward) := by
  unfold searchBuffer countArg below
  refine after fun r => after fun id => after fun count => ?_
  generalize (backward != decide (count.toInt < 0)) = backward
  dsimp only
  refine after fun b => ?_
  have search (bound : Nat) : Browses (
      if (if backward then b.point < bound else bound < b.point) then
        Eval.error "Invalid search bound (wrong side of point)"
      else conclude source (arg args 2) id backward bound
        (searchTimes r b.text.toList bound backward (max count.toInt.natAbs 1) b.point none)) :=
    inferInstance
  split
  · exact after search
  · exact after fun limit => after fun offset => after search

instance (name : String) (literal backward : Bool) :
    Browses (search name literal backward I args) := by
  unfold search
  infer_instance

instance (record : Bool) (source : Value) : Browses (lookingAt record source) := by
  unfold lookingAt Eval.bool
  infer_instance

instance : Browses (lookingAtForm I args) := by
  unfold lookingAtForm
  infer_instance

instance (name : String) (maximum : Nat) (record : Bool) :
    Browses (stringMatch name maximum record I args) := by
  unfold stringMatch
  refine after fun _ => after fun pattern => after fun p => after fun text => after fun start => ?_
  dsimp only
  split
  · infer_instance
  · split
    · refine after fun _ => ?_
      split <;> infer_instance
    · split <;> infer_instance

instance (name : String) (f : Value → Eval Value) [∀ v, Browses (f v)] :
    Browses (unary name f I args) := by
  unfold unary
  infer_instance

/-! ## Searches by name -/

/-- The searches that record what they matched. -/
def recordingSearches : List String :=
  ["search-forward", "search-backward", "re-search-forward", "re-search-backward",
    "search-forward-regexp", "search-backward-regexp", "looking-at", "string-match"]

/-- The searches. -/
def searchNames : List String := recordingSearches ++ ["looking-at-p", "string-match-p"]

theorem browses_of_searchNames (I : Interp) {name : String} (isSearch : name ∈ searchNames)
    (args : List Value) :
    Browses (callPrimitive I name args) := by
  unfold searchNames recordingSearches at isSearch
  simp only [List.cons_append, List.nil_append, List.mem_cons, List.not_mem_nil,
    or_false] at isSearch
  rcases isSearch with rfl | rfl | rfl | rfl | rfl | rfl | rfl | rfl | rfl | rfl
  all_goals
    rw [callPrimitive_of_searches I rfl]
  all_goals infer_instance

end Primitives

end EditorLisp
