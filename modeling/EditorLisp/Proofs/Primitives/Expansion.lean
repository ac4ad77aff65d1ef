import EditorLisp.MatchData
import Mathlib.Data.List.DropRight

/-!
# Expansion of replacement templates

A template is read from left to right, one character at a time or a backslash with the character
behind it.  So two templates that stand one behind the other are expanded one behind the other,
unless the first one ends between a backslash and the character that it escapes.  That can be told
from the end of the template alone: backslashes in a row pair up from the first one on, and one is
left over if their number is odd.
-/

namespace EditorLisp

variable {group group' : Nat → Option String} {c : Char} {rest first second : List Char}

/-- A template asks for the groups from zero to nine. -/
theorem expandTemplate_congr (same : ∀ n ≤ 9, group n = group' n) (template : List Char)
    (out : String) : expandTemplate group template out = expandTemplate group' template out := by
  fun_induction expandTemplate group template out with
  | case1 out => rw [expandTemplate]
  | case2 out => rw [expandTemplate]
  | case3 c rest out piece ih =>
      have samePiece : piece =
          if c = '&' then (group' 0).getD ""
          else if c.isDigit then (group' (c.toNat - '0'.toNat)).getD ""
          else c.toString := by
        dsimp only [piece]
        rw [same 0 (Nat.zero_le 9)]
        split_ifs with whole digit
        · rfl
        · have digits : c.toNat ≤ 57 := (Char.isDigit_iff_toNat.mp digit).2
          have nine : c.toNat - '0'.toNat ≤ 9 := Nat.sub_le_of_le_add digits
          rw [same _ nine]
        · rfl
      rw [expandTemplate, ih, samePiece]
  | case4 c rest out lone escaped ih =>
      rw [expandTemplate, ih]
      · exact lone
      · exact escaped

/-! ## Where a template ends -/

/-- The number of backslashes at the end of a template. -/
def trailingBackslashes (template : List Char) : Nat :=
  (template.rtakeWhile (· == '\\')).length

/-- A template ends between a backslash and the character that it escapes. -/
def EndsInEscape (template : List Char) : Prop := trailingBackslashes template % 2 = 1

instance (template : List Char) : Decidable (EndsInEscape template) :=
  inferInstanceAs (Decidable (_ = _))

/-- Backslashes count only if nothing but backslashes comes behind them. -/
theorem trailingBackslashes_append (template back : List Char) :
    trailingBackslashes (template ++ back) =
      if trailingBackslashes back = back.length then trailingBackslashes template + back.length
      else trailingBackslashes back := by
  simp only [trailingBackslashes, List.rtakeWhile, List.length_reverse, List.reverse_append,
    List.takeWhile_append]
  split_ifs
  · rw [List.length_append, List.length_reverse, Nat.add_comm]
  · rfl

theorem trailingBackslashes_cons (ne : c ≠ '\\') (rest : List Char) :
    trailingBackslashes (c :: rest) = trailingBackslashes rest := by
  have none : trailingBackslashes [c] = 0 := by
    simp [trailingBackslashes, List.rtakeWhile, ne]
  have split := trailingBackslashes_append [c] rest
  rw [none, Nat.zero_add] at split
  rw [← List.singleton_append, split]
  split_ifs with all
  · exact all.symm
  · rfl

/-- An escape at the front does not change whether a template ends in one. -/
theorem endsInEscape_escape (c : Char) (rest : List Char) :
    EndsInEscape ('\\' :: c :: rest) ↔ EndsInEscape rest := by
  have escape : trailingBackslashes ['\\', c] % 2 = 0 := by
    by_cases backslash : c = '\\'
    · subst backslash
      rfl
    · simp [trailingBackslashes, List.rtakeWhile, backslash]
  have split := trailingBackslashes_append ['\\', c] rest
  unfold EndsInEscape
  rw [show '\\' :: c :: rest = ['\\', c] ++ rest from rfl, split]
  split_ifs with all
  · omega
  · exact Iff.rfl

/-! ## One template behind the other -/

/-- What is there already stays in front of what a template makes. -/
theorem expandTemplate_append_out (group : Nat → Option String) (template : List Char)
    (front out : String) :
    expandTemplate group template (front ++ out) = front ++ expandTemplate group template out := by
  fun_induction expandTemplate group template out with
  | case1 out => rw [expandTemplate]
  | case2 out =>
      rw [expandTemplate, String.push_eq_append, String.push_eq_append, String.append_assoc]
  | case3 c rest out piece ih => rw [expandTemplate, String.append_assoc, ih]
  | case4 c rest out lone escaped ih =>
      have pushed : (front ++ out).push c = front ++ out.push c := by
        rw [String.push_eq_append, String.push_eq_append, String.append_assoc]
      rw [expandTemplate, pushed, ih]
      · exact lone
      · exact escaped

theorem expandTemplate_eq_append (group : Nat → Option String) (template : List Char)
    (out : String) :
    expandTemplate group template out = out ++ expandTemplate group template "" := by
  rw [← expandTemplate_append_out, String.append_empty]

/-- A template that does not end in an escape is expanded before what comes behind it is looked
at.  The induction is on the way the first template is read. -/
theorem expandTemplate_append (group : Nat → Option String) (first second : List Char)
    (out : String) (closed : ¬EndsInEscape first) :
    expandTemplate group (first ++ second) out =
      expandTemplate group second (expandTemplate group first out) := by
  fun_induction expandTemplate group first out with
  | case1 out => rfl
  | case2 out => exact absurd (by decide) closed
  | case3 c rest out piece ih =>
      rw [endsInEscape_escape] at closed
      rw [List.cons_append, List.cons_append, expandTemplate, ih closed]
  | case4 c rest out lone escaped ih =>
      have ne : c ≠ '\\' := by
        rintro rfl
        cases rest with
        | nil => exact lone rfl rfl
        | cons c rest => exact escaped c rest rfl rfl
      rw [EndsInEscape, trailingBackslashes_cons ne] at closed
      rw [List.cons_append, expandTemplate, ih closed]
      · exact fun backslash => absurd backslash ne
      · exact fun _ _ backslash => absurd backslash ne

/-! ## A text as a template -/

/-- A character as it stands for itself in a template. -/
def doubled (c : Char) : List Char := if c = '\\' then ['\\', '\\'] else [c]

theorem expandTemplate_doubled (group : Nat → Option String) (chars : List Char) (out : String) :
    expandTemplate group (chars.flatMap doubled) out = out ++ String.ofList chars := by
  induction chars generalizing out with
  | nil => rw [List.flatMap_nil, expandTemplate, String.ofList_nil, String.append_empty]
  | cons c chars ih =>
      rw [List.flatMap_cons, doubled, String.ofList_cons, ← String.append_assoc,
        ← String.push_eq_append]
      split_ifs with backslash
      · subst backslash
        exact ih _
      · rw [List.singleton_append, expandTemplate, ih]
        · exact fun same => absurd same backslash
        · exact fun _ _ same => absurd same backslash

/-- Two templates one behind the other are expanded one behind the other, unless the first one ends
in an escape, and a text with its backslashes doubled is a template for that text. -/
theorem expandTemplate_append_and_doubled (group : Nat → Option String) :
    (∀ first second : String, ¬EndsInEscape first.toList →
      expandTemplate group (first ++ second).toList "" =
        expandTemplate group first.toList "" ++ expandTemplate group second.toList "") ∧
      ∀ text : String, expandTemplate group (text.toList.flatMap doubled) "" = text := by
  constructor
  · intro first second closed
    rw [String.toList_append, expandTemplate_append group _ _ "" closed, expandTemplate_eq_append]
  · intro text
    rw [expandTemplate_doubled, String.empty_append, String.ofList_toList]

/-- An escaped backslash before a digit, and a backslash at the very end. -/
theorem expandTemplate_append_and_doubled_digit :
    let group : Nat → Option String := fun n => if n = 1 then some "ab" else none
    ¬EndsInEscape "\\1\\\\".toList ∧
      expandTemplate group ("\\1\\\\" ++ "1\\q\\").toList "" = "ab\\" ++ "1q\\" ∧
      expandTemplate group ("\\1\\\\".toList.flatMap doubled) "" = "\\1\\\\" := by
  intro group
  obtain ⟨append, double⟩ := expandTemplate_append_and_doubled group
  have closed : ¬EndsInEscape "\\1\\\\".toList := by decide
  have first : expandTemplate group "\\1\\\\".toList "" = "ab\\" := by decide
  have second : expandTemplate group "1\\q\\".toList "" = "1q\\" := by decide
  exact ⟨closed, by rw [append _ _ closed, first, second], double _⟩

end EditorLisp
