import EditorLisp.Regexp.Engine
import Mathlib.Data.String.Basic

/-!
# Quoted texts

Scanning a quoted text finds its characters, each as the sign for itself.  In the extended
notation they are written as the engine asks for, so that it is the engine that knows what
comes of them.
-/

namespace EditorLisp.Regexp

variable {word : List Char}

/-! ## Scanning -/

/-- The character of a text as the sign for itself. -/
def Token.ofChar (c : Char) : Token := .one (.char c)

/-- A sign with a meaning loses it after a backslash. -/
theorem escape_of_quoted {c : Char} (sign : "[*.\\?+^$".contains c = true) (depth : Nat)
    (atStart : Bool) (rest : List Char) :
    escape depth atStart (c :: rest) = .ok ⟨[.ofChar c], depth, false, rest⟩ := by
  have listed : c ∈ ['[', '*', '.', '\\', '?', '+', '^', '$'] := by
    simpa using sign
  simp only [List.mem_cons, List.not_mem_nil, or_false] at listed
  rcases listed with rfl | rfl | rfl | rfl | rfl | rfl | rfl | rfl <;> rfl

/-- A character that is no sign stands for itself wherever it stands. -/
theorem scanFrom_of_plain {c : Char} (plain : "[*.\\?+^$".contains c = false) (fuel depth : Nat)
    (atStart : Bool) (rest : List Char) :
    scanFrom (fuel + 1) depth atStart (c :: rest) = (do
      return .ofChar c :: (← scanFrom fuel depth false rest)) := by
  have unlisted : c ∉ ['[', '*', '.', '\\', '?', '+', '^', '$'] := by
    intro listed
    have sign : "[*.\\?+^$".contains c = true := by simpa using listed
    rw [plain] at sign
    cases sign
  simp only [List.mem_cons, List.not_mem_nil, or_false, not_or] at unlisted
  obtain ⟨bracket, star, dot, backslash, question, plus, caret, dollar⟩ := unlisted
  rw [scanFrom]
  · simp only [star, plus, question, if_false, ite_self]
    rfl
  all_goals assumption

/-- A character as it is quoted. -/
def quotedChar (c : Char) : List Char := if "[*.\\?+^$".contains c then ['\\', c] else [c]

theorem toList_quote (s : String) : (quote s).toList = s.toList.flatMap quotedChar :=
  String.toList_ofList

/-- Scanning a quoted text finds its characters.  The induction is on the text; the counter is
above the length of what is left. -/
theorem scanFrom_quoted {fuel : Nat} (enough : (word.flatMap quotedChar).length < fuel)
    (atStart : Bool) :
    scanFrom fuel 0 atStart (word.flatMap quotedChar) = .ok (word.map Token.ofChar) := by
  induction word generalizing fuel atStart with
  | nil => exact scanFrom.eq_1 fuel 0 atStart
  | cons c word ih =>
      rw [List.flatMap_cons, List.length_append] at enough
      rw [List.flatMap_cons, List.map_cons]
      cases fuel with
      | zero => omega
      | succ fuel =>
          cases sign : "[*.\\?+^$".contains c with
          | true =>
              have quoted : quotedChar c = ['\\', c] := if_pos sign
              rw [quoted] at enough ⊢
              simp only [List.cons_append, List.nil_append, List.length_cons,
                List.length_nil] at enough ⊢
              rw [scanFrom, escape_of_quoted sign]
              simp only [bind, Except.bind]
              rw [ih (by omega)]
              rfl
          | false =>
              have quoted : quotedChar c = [c] := if_neg (by rw [sign]; exact Bool.false_ne_true)
              rw [quoted] at enough ⊢
              simp only [List.cons_append, List.nil_append, List.length_cons,
                List.length_nil] at enough ⊢
              rw [scanFrom_of_plain sign, ih (by omega)]
              rfl

theorem tokens_quote (s : String) : tokens (quote s) = .ok (s.toList.map Token.ofChar) := by
  unfold tokens
  rw [toList_quote]
  apply scanFrom_quoted
  rw [← toList_quote, String.length_toList]
  exact Nat.lt_succ_self _

/-- In the extended notation a quoted text is one in which every character stands for itself. -/
theorem extended_quote (escape : Char → String) (s : String) :
    extended escape (quote s) = .ok ("(?m)" ++ String.join (s.toList.map escape)) := by
  unfold extended
  rw [tokens_quote]
  simp only [bind, Except.bind, pure, Except.pure, List.map_map]
  rfl

/-- An engine is given the pattern in the extended notation. -/
theorem Engine.ofPattern_of_extended {e : Engine} {pattern source : String}
    (written : extended e.escape pattern = .ok source) :
    e.ofPattern pattern false = e.compile source := by
  unfold ofPattern
  rw [written]
  rfl

theorem Engine.ofPattern_quote (e : Engine) (s : String) :
    e.ofPattern (quote s) false = e.compile ("(?m)" ++ String.join (s.toList.map e.escape)) :=
  ofPattern_of_extended (extended_quote e.escape s)

end EditorLisp.Regexp
