import EditorLisp.Proofs.Forms.Immediate
import EditorLisp.Proofs.Primitives.Literal

/-!
# Splitting and joining

A string is split at the matches of a pattern.  Where the pattern is a quoted text, that is to cut
the string at the first occurrence of the text, what is behind it at the first one there, and so on.
Parts may be empty, at the ends of the string and between occurrences that touch each other, and
none of them is left out.  So joining the parts with the text in between gives the string back.
-/

namespace EditorLisp

namespace Primitives

open Eval Regexp

variable {s t : Session}

/-! ## Strings as values -/

/-- A value is a string with a certain text. -/
def IsText (v : Value) (part : String) : Prop := ∃ handle, v = .str handle part

/-- Strings that are made one after the other have their texts. -/
theorem exists_texts (parts : List (List Char)) (s : Session) :
    ∃ items t, parts.mapM (fun part => text (String.ofList part)) s = .ok items t ∧
      List.Forall₂ IsText items (parts.map String.ofList) := by
  induction parts generalizing s with
  | nil => exact ⟨[], s, rfl, .nil⟩
  | cons part parts ih =>
      let s' : Session := { s with store := (s.store.text (String.ofList part)).2 }
      obtain ⟨items, t, made, isText⟩ := ih s'
      refine ⟨.str s.store.nextText (String.ofList part) :: items, t, ?_, .cons ⟨_, rfl⟩ isText⟩
      rw [List.mapM_cons]
      exact (bind_of_ok _ rfl).trans (bind_of_ok _ made)

/-- Joining a list of strings joins their texts. -/
theorem stringJoin_eq (I : Interp) {v : Value} {items : List Value} {parts : List String}
    (listed : s.store.Lists v items) (isText : List.Forall₂ IsText items parts)
    (handle : Nat) (separator : String) :
    callPrimitive I "string-join" [v, .str handle separator] s =
      text (separator.intercalate parts) s := by
  have texts : List.Forall₂ (fun v part => string v s = .ok part s) items parts :=
    isText.imp fun v part isText => by
      obtain ⟨handle, rfl⟩ := isText
      rfl
  rw [callPrimitive_of_strings I rfl]
  refine (bind_of_ok _ rfl).trans ((bind_of_ok _ (Forms.properList_of_lists listed)).trans ?_)
  exact (bind_of_ok _ (mapM_of_forall₂ texts)).trans (bind_of_ok _ rfl)

/-! ## Splitting at a text -/

/-- A string is split at a pattern without leaving out or trimming parts. -/
theorem splitString_eq (I : Interp) (handle handle' : Nat) (source whole : String) (s : Session) :
    splitString I [.str handle' whole, .str handle source] s =
      (pattern source false >>= fun r => do
        list (← (r.split whole.toList).mapM fun part => text (String.ofList part))) s := by
  have kept : flag [Value.str handle' whole, .str handle source] 2 = false := rfl
  unfold splitString
  refine (bind_of_ok _ rfl).trans ((bind_of_ok _ rfl).trans ((bind_of_ok _ rfl).trans ?_))
  refine (bind_of_ok _ rfl).trans (bind_congr_of_ok fun r t _ => ?_)
  refine (bind_of_ok _ rfl).trans ?_
  dsimp only
  rw [kept]
  rfl

/-- Split a string at a text: the text is quoted, and what comes of it is the pattern. -/
def splitAt (I : Interp) (separator whole : Value) : Eval Value := do
  callPrimitive I "split-string" [whole, ← callPrimitive I "regexp-quote" [separator]]

/-- Quoting makes a string, and the pattern in it is looked at next. -/
theorem splitAt_eq (I : Interp) (handle handle' : Nat) (separator whole : String) (s : Session) :
    splitAt I (.str handle separator) (.str handle' whole) s =
      (pattern (quote separator) false >>= fun r => do
        list (← (r.split whole.toList).mapM fun part => text (String.ofList part)))
        { s with store := (s.store.text (quote separator)).2 } := by
  unfold splitAt
  rw [callPrimitive_of_strings I rfl,
    callPrimitive_of_strings I rfl]
  exact (bind_of_ok _ rfl).trans (splitString_eq ..)

/-- Splitting a string at a text that the engine takes gives the list of its parts, and joining them
with the text gives the string. -/
theorem stringJoin_splitAt (I : Interp) (s : Session) {separator : String}
    (nonempty : separator ≠ "") (taken : s.host.engine.TakesLiteral separator.toList)
    (whole : String) (handle handle' handle'' : Nat) :
    ∃ v items parts t, splitAt I (.str handle separator) (.str handle' whole) s = .ok v t ∧
      t.store.Lists v items ∧ List.Forall₂ IsText items parts ∧
      Cuts separator.toList whole.toList (parts.map String.toList) ∧
      callPrimitive I "string-join" [v, .str handle'' separator] t = text whole t := by
  obtain ⟨r, compiled, literal⟩ := taken
  rw [← Engine.ofPattern_quote] at compiled
  have cuts := literal.splits (mt String.toList_eq_nil_iff.mp nonempty) whole.toList
  let quoted : Session := { s with store := (s.store.text (quote separator)).2 }
  have ready : pattern (quote separator) false quoted = .ok r quoted := pattern_of_ok compiled
  obtain ⟨items, t, made, isText⟩ := exists_texts (r.split whole.toList) quoted
  have split : splitAt I (.str handle separator) (.str handle' whole) s =
      .ok (t.store.list items).1 { t with store := (t.store.list items).2 } := by
    rw [splitAt_eq]
    exact (bind_of_ok _ ready).trans (bind_of_ok _ made)
  have listed := (Store.lists_list t.store items).1
  have parts : (r.split whole.toList).map (String.toList ∘ String.ofList) =
      r.split whole.toList := List.map_id'' (fun part => String.toList_ofList) _
  have joined : separator.intercalate ((r.split whole.toList).map String.ofList) = whole := by
    rw [← String.toList_inj, String.toList_intercalate, List.map_map, parts, cuts.intercalate_eq]
  refine ⟨_, items, _, _, split, listed, isText, by rwa [List.map_map, parts], ?_⟩
  rw [stringJoin_eq I listed isText, joined]

/-- The text stands at both ends of the string, and twice in a row. -/
theorem stringJoin_splitAt_plus :
    let s := sessionOf "" 0
    "+" ≠ "" ∧ s.host.engine.TakesLiteral "+".toList ∧
      ∃ v items t, splitAt .top (.str 0 "+") (.str 1 "+é++") s = .ok v t ∧
        t.store.Lists v items ∧ List.Forall₂ IsText items ["", "é", "", ""] ∧
        callPrimitive .top "string-join" [v, .str 0 "+"] t = text "+é++" t := by
  intro s
  have nonempty : "+" ≠ "" := by decide
  have taken : s.host.engine.TakesLiteral "+".toList := takesLiteral_automaton (by decide)
  have expected : Cuts "+".toList "+é++".toList (["", "é", "", ""].map String.toList) := by
    have first : Earliest ['+'] ['+', 'é', '+', '+'] 0 0 := findText_eq_some rfl rfl
    have second : Earliest ['+'] ['é', '+', '+'] 0 1 := findText_eq_some rfl rfl
    have third : Earliest ['+'] ['+'] 0 0 := findText_eq_some rfl rfl
    have after : ∀ a, 0 ≤ a → ¬Occurs ['+'] [] a := findText_eq_none rfl rfl
    have nowhere : ∀ a, ¬Occurs ['+'] [] a := fun a => after a (Nat.zero_le a)
    exact .cut first (.cut second (.cut third (.whole nowhere)))
  obtain ⟨v, items, parts, t, split, listed, isText, cuts, joined⟩ :=
    stringJoin_splitAt .top s nonempty taken "+é++" 0 1 0
  have same : parts = ["", "é", "", ""] :=
    List.map_injective_iff.mpr (fun _ _ => String.toList_injective) (cuts.unique expected)
  exact ⟨nonempty, taken, v, items, t, split, listed, same ▸ isText, joined⟩

end Primitives

end EditorLisp
