import EditorLisp.Event
import EditorLisp.Proofs.Primitives.Search

/-!
# Which keymap answers an input code

An input code stands for several keys, the most specific one first.  Each of them is looked
up in the keymap of the current buffer and then in the global keymap before the next one is
tried, so a buffer's keymap shadows the global one key by key.  For the code as a whole it
does so as long as the global keymap binds none of the keys that come before the first one
which the buffer's keymap binds; otherwise the global keymap answers.
-/

namespace EditorLisp

namespace Session

/-- The binding of a key in the keymap of the current buffer and those it falls back on. -/
def localBinding? (s : Session) (key : String) : Option Value :=
  (s.workspace.current?.bind Buffer.localMap).bind (s.store.lookupKey? · key)

/-- The binding of a key in the global keymap and those it falls back on. -/
def globalBinding? (s : Session) (key : String) : Option Value :=
  s.store.lookupKey? s.globalMap key

/-- The binding of a key in the buffer's keymap or else in the global one. -/
def activeBinding? (s : Session) (key : String) : Option Value :=
  (s.localBinding? key).or (s.globalBinding? key)

theorem activeBinding?_of_local {s : Session} {key : String} {v : Value}
    (found : s.localBinding? key = some v) : s.activeBinding? key = some v := by
  rw [activeBinding?, found, Option.some_or]

theorem activeBinding?_eq_none_iff {s : Session} {key : String} :
    s.activeBinding? key = none ↔ s.localBinding? key = none ∧ s.globalBinding? key = none :=
  Option.or_eq_none_iff

end Session

namespace Eval

variable {s : Session} {code : Int64} {v : Value}

theorem activeBinding?_eq (inOrder : s.workspace.WellFormed) (key : String) :
    Primitives.activeBinding? key s = .ok (s.activeBinding? key) s := by
  obtain ⟨b, current, -⟩ := Workspace.current?_of_wellFormed inOrder
  have editing : s.Editing b := ⟨inOrder, current⟩
  unfold Primitives.activeBinding?
  rw [bind_of_ok _ editing.currentBuffer_eq]
  unfold Session.activeBinding? Session.localBinding?
  rw [current]
  rfl

/-- Both keymaps are asked for a key before the next key is tried. -/
theorem firstBinding?_eq (inOrder : s.workspace.WellFormed) (keys : List String) :
    firstBinding? keys s = .ok (keys.findSome? s.activeBinding?) s := by
  induction keys with
  | nil => rfl
  | cons key rest ih =>
      unfold firstBinding?
      rw [bind_of_ok _ (activeBinding?_eq inOrder key), List.findSome?_cons]
      cases s.activeBinding? key with
      | some binding => rfl
      | none => exact ih

theorem inputBinding?_eq (inOrder : s.workspace.WellFormed) (code : Int64) :
    inputBinding? code s =
      .ok (((Key.candidates code.toInt).findSome? s.activeBinding?).filter Value.isTrue) s := by
  unfold inputBinding?
  rw [bind_of_ok _ (firstBinding?_eq inOrder _)]
  rfl

/-- The first key that is bound anywhere decides. -/
theorem inputBinding?_of_first (inOrder : s.workspace.WellFormed)
    {earlier later : List String} {key : String}
    (listed : Key.candidates code.toInt = earlier ++ key :: later)
    (unbound : ∀ k ∈ earlier, s.activeBinding? k = none)
    (found : s.activeBinding? key = some v) (isTrue : v.isTrue = true) :
    inputBinding? code s = .ok (some v) s := by
  have first : (Key.candidates code.toInt).findSome? s.activeBinding? = some v :=
    List.findSome?_eq_some_iff.mpr ⟨earlier, key, later, listed, found, unbound⟩
  rw [inputBinding?_eq inOrder, first, Option.filter_some_pos isTrue]

/-- Where the global keymap binds a key before any that the buffer's keymap binds, the global
keymap answers, whatever the buffer's keymap binds. -/
theorem inputBinding?_of_global (inOrder : s.workspace.WellFormed)
    {earlier later : List String} {key : String}
    (listed : Key.candidates code.toInt = earlier ++ key :: later)
    (unbound : ∀ k ∈ earlier, s.activeBinding? k = none) (notLocal : s.localBinding? key = none)
    (found : s.globalBinding? key = some v) (isTrue : v.isTrue = true) :
    inputBinding? code s = .ok (some v) s := by
  refine inputBinding?_of_first inOrder listed unbound ?_ isTrue
  rw [Session.activeBinding?, notLocal, Option.none_or, found]

/-- If the buffer's keymap binds any key of a code, its binding of the first such key answers
the code, whatever the global keymap binds, except for the keys before that one, of which the
global keymap must not bind any. -/
theorem inputBinding?_of_local (inOrder : s.workspace.WellFormed)
    (found : (Key.candidates code.toInt).findSome? s.localBinding? = some v)
    (isTrue : v.isTrue = true)
    (behind : ∀ earlier key later, Key.candidates code.toInt = earlier ++ key :: later →
      (∀ k ∈ earlier ++ [key], s.localBinding? k = none) → s.globalBinding? key = none) :
    inputBinding? code s = .ok (some v) s := by
  obtain ⟨earlier, key, later, listed, here, before⟩ := List.findSome?_eq_some_iff.mp found
  refine inputBinding?_of_first inOrder listed ?_ (Session.activeBinding?_of_local here) isTrue
  intro k member
  obtain ⟨front, back, rfl⟩ := List.append_of_mem member
  refine Session.activeBinding?_eq_none_iff.mpr ⟨before k member, ?_⟩
  apply behind front k (back ++ key :: later)
  · rw [listed, List.append_assoc, List.cons_append]
  · intro k' member'
    apply before
    rw [← List.singleton_append, ← List.append_assoc]
    exact List.mem_append_left _ member'

end Eval

/-- A session with a global keymap and a keymap of its only buffer. -/
def Session.ofKeymaps (global buffer : Keymap) : Session where
  store := { keymaps := #[global, buffer] }
  globalMap := .keymap 0
  workspace := Workspace.initial.modifyBuffer 1 fun b => { b with localMap := some (.keymap 1) }

theorem Session.wellFormed_ofKeymaps (global buffer : Keymap) :
    (Session.ofKeymaps global buffer).workspace.WellFormed :=
  Workspace.wellFormed_modifyBuffer Workspace.wellFormed_initial fun _ _ =>
    ⟨rfl, rfl, fun inside => inside⟩

namespace Eval

/-- The global keymap binds the line feed and the return key as well, but not the carriage
return, which comes before them. -/
theorem inputBinding?_of_local_return :
    let global := (Keymap.define {} "\n" (.symbol "newline")).define "RET" (.symbol "newline")
    let s := Session.ofKeymaps global (Keymap.define {} "\n" (.symbol "drop"))
    (Key.candidates (13 : Int64).toInt).findSome? s.localBinding? = some (.symbol "drop") ∧
      inputBinding? 13 s = .ok (some (.symbol "drop")) s := by
  intro global s
  have found : (Key.candidates (13 : Int64).toInt).findSome? s.localBinding? =
      some (.symbol "drop") := rfl
  refine ⟨found, inputBinding?_of_local (Session.wellFormed_ofKeymaps _ _) found rfl ?_⟩
  intro earlier key later listed unbound
  have bound : s.localBinding? "\n" ≠ none := nofun
  have listed : ["\r", "\n", "RET", "C-m"] = earlier ++ key :: later := listed
  match earlier, listed with
  | [], listed =>
      obtain ⟨rfl, -⟩ := List.cons.inj listed
      rfl
  | [_], listed =>
      obtain ⟨-, listed⟩ := List.cons.inj listed
      obtain ⟨rfl, -⟩ := List.cons.inj listed
      exact absurd (unbound _ (List.mem_append_right _ List.mem_cons_self)) bound
  | _ :: second :: rest, listed =>
      obtain ⟨-, listed⟩ := List.cons.inj listed
      obtain ⟨rfl, -⟩ := List.cons.inj listed
      exact absurd (unbound _ (List.mem_cons_of_mem _ List.mem_cons_self)) bound

/-- A binding of the line feed in the global keymap hides one of the return key in the buffer's
keymap, although the same input code stands for both. -/
theorem not_inputBinding?_of_local :
    ¬∀ (s : Session) (code : Int64) (v : Value), s.workspace.WellFormed →
      (Key.candidates code.toInt).findSome? s.localBinding? = some v → v.isTrue = true →
        inputBinding? code s = .ok (some v) s := by
  intro shadowed
  let s := Session.ofKeymaps (Keymap.define {} "\n" (.symbol "newline"))
    (Keymap.define {} "RET" (.symbol "drop"))
  have inOrder : s.workspace.WellFormed := Session.wellFormed_ofKeymaps _ _
  have answered : inputBinding? 13 s = .ok (some (.symbol "newline")) s :=
    inputBinding?_of_global inOrder (show _ = ["\r"] ++ "\n" :: ["RET", "C-m"] from rfl)
      (List.forall_mem_singleton.mpr rfl) rfl rfl rfl
  have same := shadowed s 13 (.symbol "drop") inOrder rfl rfl
  simp [answered] at same

end Eval

end EditorLisp
