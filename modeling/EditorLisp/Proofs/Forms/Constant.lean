import EditorLisp.Proofs.Forms.Quotation
import EditorLisp.Proofs.Store.Lists

/-!
# Constant sequences

A list, a vector or a string may be written as a constant: the empty list, a string and a
vector stand for themselves, data are quoted, and a vector in brackets is made anew of its
quoted items.  What such a form evaluates to has the items that were written down, as far as
vectors in quoted data are built.  Data in the store stay, and so do all frames.
-/

namespace EditorLisp

open Forms

namespace ValueTree

/-- The characters of a text as codes. -/
def codes (text : String) : List ValueTree :=
  text.toList.map fun c => .atom (.other (.ofNat c.toNat))

/-- The proper list of some trees. -/
def ofList : List ValueTree → ValueTree
  | [] => .atom (.other .nil)
  | t :: ts => .cons t (ofList ts)

/-- A tree is that of a sequence with some items. -/
inductive IsSequence : ValueTree → List ValueTree → Prop where
  | list (ts : List ValueTree) : IsSequence (ofList ts) ts
  | vector (ts : List ValueTree) : IsSequence (.vector ts) ts
  | text (text : String) : IsSequence (.atom (.text text)) (codes text)

end ValueTree

namespace Store

variable {st st' : Store} {v : Value} {items : List Value} {ts : List ValueTree}

/-- A list shows the list of what its elements show. -/
theorem Lists.shows (lists : st.Lists v items) (all : List.Forall₂ st.Shows items ts) :
    st.Shows v (.ofList ts) := by
  induction lists generalizing ts with
  | nil =>
      cases all
      exact .atom rfl
  | cons there _ ih =>
      cases all with
      | cons first rest => exact .cons there first (ih rest)

/-- What shows a list is one, of elements that show its elements. -/
theorem Shows.lists (shown : st.Shows v (.ofList ts)) :
    ∃ items, st.Lists v items ∧ List.Forall₂ st.Shows items ts := by
  induction ts generalizing v with
  | nil =>
      cases Value.atom?_eq_other shown.of_atom
      exact ⟨[], .nil, .nil⟩
  | cons t ts ih =>
      obtain ⟨ref, p, rfl, there, first, rest⟩ := shown.of_cons
      obtain ⟨items, lists, all⟩ := ih rest
      exact ⟨p.car :: items, .cons there lists, .cons first all⟩

theorem showsAll_mono (all : List.Forall₂ st.Shows items ts) (kept : st.DataKeptIn st') :
    List.Forall₂ st'.Shows items ts :=
  all.imp fun _ _ shown => shown.mono kept

/-- A new list leaves vectors and frames alone. -/
theorem list_keeps (st : Store) (items : List Value) :
    st.DataKeptIn (st.list items).2 ∧ (st.list items).2.frames = st.frames := by
  have aside : (st.list items).2.vectors = st.vectors ∧ (st.list items).2.frames = st.frames := by
    unfold list
    induction items with
    | nil => exact ⟨rfl, rfl⟩
    | cons item items ih =>
        rw [listWithTail_cons]
        exact ih
  refine ⟨⟨(lists_list st items).2, fun ref others there => ?_⟩, aside.2⟩
  rwa [aside.1]

end Store

/-- A form that stands for a constant sequence. -/
inductive Store.ConstantSequence (st : Store) : Value → List ValueTree → Prop where
  | nil : ConstantSequence st .nil []
  | text (id : Nat) (text : String) : ConstantSequence st (.str id text) (ValueTree.codes text)
  | vector {ref : Nat} {ts : List ValueTree} :
      st.Shows (.vector ref) (.vector ts) → ConstantSequence st (.vector ref) ts
  | quoted {form datum : Value} {t : ValueTree} {ts : List ValueTree} :
      st.Lists form [.symbol "quote", datum] → st.Shows datum t.written → t.Unmarked →
        (t.built (literalDepth + 1)).IsSequence ts → ConstantSequence st form ts
  | bracketed {form : Value} {items : List Value} {ts : List ValueTree} :
      st.Lists form (.symbol vectorMark :: items) →
        List.Forall₂ (fun v t => st.Shows v t.written) items ts → (∀ t ∈ ts, t.Unmarked) →
          ConstantSequence st form (ts.map (ValueTree.built (literalDepth + 1)))

theorem Store.ConstantSequence.mono {st st' : Store} {form : Value} {ts : List ValueTree}
    (constant : st.ConstantSequence form ts) (kept : st.DataKeptIn st') :
    st'.ConstantSequence form ts := by
  cases constant with
  | nil => exact .nil
  | text id text => exact .text id text
  | vector shown => exact .vector (shown.mono kept)
  | quoted lists shown unmarked isSequence =>
      exact .quoted (lists.mono kept.pairs) (shown.mono kept) unmarked isSequence
  | bracketed lists all unmarked =>
      exact .bracketed (lists.mono kept.pairs) (all.imp fun _ _ shown => shown.mono kept) unmarked

namespace Eval

variable {s : Session} {form v : Value} {t : ValueTree} {ts : List ValueTree} {I : Interp}
  {frame : Nat}

/-- The items of what shows a sequence show its items. -/
theorem sequenceElements_of_shows (shown : s.store.Shows v t) (isSequence : t.IsSequence ts) :
    ∃ items, sequenceElements v s = .ok items s ∧ List.Forall₂ s.store.Shows items ts := by
  cases isSequence with
  | list ts =>
      obtain ⟨items, lists, all⟩ := shown.lists
      have listed : properList v "sequencep" s = .ok items s := by
        unfold properList
        rw [lists.list?_eq]
      refine ⟨items, ?_, all⟩
      cases lists <;> exact listed
  | vector ts =>
      cases shown with
      | @vector ref items _ there size all =>
          refine ⟨items.toList, ?_, Store.forall₂_iff_getElem?.mpr ⟨size, all⟩⟩
          refine (bind_store _ s).trans ?_
          rw [Store.items?, there]
          rfl
  | text text =>
      obtain ⟨id, rfl⟩ := Value.atom?_eq_text shown.of_atom
      refine ⟨text.toList.map fun c => .ofNat c.toNat, rfl, ?_⟩
      rw [ValueTree.codes, List.forall₂_map_left_iff, List.forall₂_map_right_iff,
        List.forall₂_same]
      exact fun c _ => .atom rfl

theorem frames_literal {v w : Value} {s s' : Session} (value : literal v s = .ok w s') :
    s'.store.frames = s.store.frames := by
  rw [literal_eq] at value
  split at value
  · cases value
    exact frames_build _ v s.store
  · cases value
    rfl

/-- The values of quoted items, one after the other. -/
theorem shows_literals {items : List Value}
    (all : List.Forall₂ (fun v t => s.store.Shows v t.written) items ts)
    (unmarked : ∀ t ∈ ts, t.Unmarked) :
    ∃ values store, items.mapM literal s = .ok values { s with store } ∧
      s.store.DataKeptIn store ∧ store.frames = s.store.frames ∧
        List.Forall₂ store.Shows values (ts.map (ValueTree.built (literalDepth + 1))) := by
  induction items generalizing ts s with
  | nil =>
      cases all
      exact ⟨[], s.store, rfl, .refl _, rfl, .nil⟩
  | cons item items ih =>
      cases all with
      | @cons _ t _ ts first rest =>
          obtain ⟨w, st, value, kept, shown⟩ := shows_literal first (unmarked t List.mem_cons_self)
          have same := frames_literal value
          obtain ⟨ws, st', values, kept', same', shown'⟩ :=
            ih (s := { s with store := st }) (rest.imp fun _ _ shown => shown.mono kept)
              fun t member => unmarked t (List.mem_cons_of_mem _ member)
          refine ⟨w :: ws, st', ?_, kept.trans kept', same'.trans same,
            .cons (shown.mono kept') shown'⟩
          rw [List.mapM_cons, bind_of_ok _ value, bind_of_ok _ values]
          rfl

/-- A constant sequence evaluates to a value with its items. -/
theorem evalForm_constantSequence (constant : s.store.ConstantSequence form ts)
    (unbound : ∀ name ∈ ["quote", vectorMark], s.functions.contains name = false)
    (room : s.depth < s.config.maxDepth) (I : Interp) (frame : Nat) :
    ∃ v store items, evalForm I form frame s = .ok v { s with store } ∧
      s.store.DataKeptIn store ∧ store.frames = s.store.frames ∧
        sequenceElements v { s with store } = .ok items { s with store } ∧
          List.Forall₂ store.Shows items ts := by
  have atom {v : Value} (noSymbol : ∀ name, v ≠ .symbol name) (noPair : ∀ ref, v ≠ .cons ref) :
      evalForm I v frame s = .ok v s :=
    steady_atom s noSymbol noPair I s frame ⟨rfl, rfl⟩ rfl room
  cases constant with
  | nil =>
      obtain ⟨items, elements, all⟩ := sequenceElements_of_shows (s := s) (v := .nil)
        (t := .ofList []) (.atom rfl) (.list [])
      exact ⟨.nil, s.store, items, atom nofun nofun, .refl _, rfl, elements, all⟩
  | text id text =>
      obtain ⟨items, elements, all⟩ := sequenceElements_of_shows (s := s) (v := .str id text)
        (.atom rfl) (.text text)
      exact ⟨.str id text, s.store, items, atom nofun nofun, .refl _, rfl, elements, all⟩
  | vector shown =>
      obtain ⟨items, elements, all⟩ := sequenceElements_of_shows shown (.vector ts)
      exact ⟨_, s.store, items, atom nofun nofun, .refl _, rfl, elements, all⟩
  | @quoted _ datum t _ lists shown unmarked isSequence =>
      obtain ⟨v, st, value, kept, made⟩ :=
        shows_literal (s := { s with depth := s.depth + 1 }) shown unmarked
      have ended : evalForm I form frame s = .ok v { s with store := st } :=
        (evalForm_special room lists.isList (unbound _ (by simp)) rfl).trans
          (ensuring_of_ok _ value)
      obtain ⟨items, elements, all⟩ :=
        sequenceElements_of_shows (s := { s with store := st }) made isSequence
      exact ⟨v, st, items, ended, kept, frames_literal value, elements, all⟩
  | @bracketed _ data ts lists all unmarked =>
      obtain ⟨values, st, made, kept, same, shown⟩ :=
        shows_literals (s := { s with depth := s.depth + 1 }) all unmarked
      have added := Store.DataKeptIn.vector st values.toArray
      have built : vectorLiteral I data frame { s with depth := s.depth + 1 } = _ :=
        bind_of_ok _ made
      have ended : evalForm I form frame s =
          .ok (.vector st.vectors.size) { s with store := (st.vector values.toArray).2 } :=
        (evalForm_special room lists.isList (unbound _ (by simp)) rfl).trans
          (ensuring_of_ok _ built)
      have there : (st.vector values.toArray).2.Shows (.vector st.vectors.size)
          (.vector (ts.map (ValueTree.built (literalDepth + 1)))) :=
        .vector_of_forall₂ Array.getElem?_push_size (Store.showsAll_mono shown added)
      obtain ⟨items, elements, all⟩ := sequenceElements_of_shows
        (s := { s with store := (st.vector values.toArray).2 }) there (.vector _)
      exact ⟨_, _, items, ended, kept.trans added, same, elements, all⟩

end Eval

end EditorLisp
