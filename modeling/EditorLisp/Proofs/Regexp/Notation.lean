import EditorLisp.Proofs.Regexp.Quoted

/-!
# One pattern in two notations

`Expr` is the syntax of patterns of characters, groups, alternatives and greedy repetitions.
It is written in two ways: with backslashes before the signs that group, as programs write
patterns, and with characters escaped where they are no signs, as the engine reads
them.  Bringing the first text into the extended notation gives the second one, and a quoted
text becomes a literal one.

What a sign of repetition or an anchor means depends on where it stands, so scanning is
followed from the start of each part of a pattern to its end: `Scans` says that some signs are
taken in between two points of a scan, and such stretches can be put together.
-/

namespace EditorLisp.Regexp

/-! ## Patterns and their texts -/

/-- How often something is repeated, always as often as possible. -/
inductive Repetition where
  | anyTimes | atLeastOnce | atMostOnce
deriving Repr, DecidableEq

/-- The sign of a repetition. -/
def Repetition.sign : Repetition → Token
  | anyTimes => .star
  | atLeastOnce => .plus
  | atMostOnce => .question

/-- A repetition is written alike in both notations. -/
def Repetition.text : Repetition → String
  | anyTimes => "*"
  | atLeastOnce => "+"
  | atMostOnce => "?"

mutual

/-- What can be repeated: one character or a group. -/
inductive Item where
  | char (c : Char)
  | any
  | group (numbered : Bool) (body : Expr)

/-- A pattern. -/
inductive Expr where
  | empty
  | item (item : Item)
  | repeated (item : Item) (often : Repetition)
  | concat (first second : Expr)
  | either (first second : Expr)

end

mutual

/-- The text of an item as programs write it. -/
def Item.text : Item → String
  | .char c => quote c.toString
  | .any => "."
  | .group numbered body => (if numbered then "\\(" else "\\(?:") ++ body.text ++ "\\)"

/-- The text of a pattern as programs write it. -/
def Expr.text : Expr → String
  | .empty => ""
  | .item item => item.text
  | .repeated item often => item.text ++ often.text
  | .concat first second => first.text ++ second.text
  | .either first second => first.text ++ "\\|" ++ second.text

end

mutual

/-- The text of an item in the extended notation, in which characters are escaped in some way. -/
def Item.extendedText (escape : Char → String) : Item → String
  | .char c => escape c
  | .any => "."
  | .group numbered body => (if numbered then "(" else "(?:") ++ body.extendedText escape ++ ")"

/-- The text of a pattern in the extended notation. -/
def Expr.extendedText (escape : Char → String) : Expr → String
  | .empty => ""
  | .item item => item.extendedText escape
  | .repeated item often => item.extendedText escape ++ often.text
  | .concat first second => first.extendedText escape ++ second.extendedText escape
  | .either first second => first.extendedText escape ++ "|" ++ second.extendedText escape

end

mutual

/-- The signs of an item. -/
def Item.tokens : Item → List Token
  | .char c => [.ofChar c]
  | .any => [.one .any]
  | .group numbered body => (if numbered then .openGroup else .openShy) :: (body.tokens ++ [.close])

/-- The signs of a pattern. -/
def Expr.tokens : Expr → List Token
  | .empty => []
  | .item item => item.tokens
  | .repeated item often => item.tokens ++ [often.sign]
  | .concat first second => first.tokens ++ second.tokens
  | .either first second => first.tokens ++ .alternative :: second.tokens

end

section Spelling

variable (escape : Char → String)

/-- A text in the extended notation, sign by sign. -/
def spelling (signs : List Token) : String := String.join (signs.map (Token.text escape))

theorem spelling_append (front back : List Token) :
    spelling escape (front ++ back) = spelling escape front ++ spelling escape back := by
  unfold spelling
  rw [List.map_append, String.join_append]

theorem spelling_cons (sign : Token) (signs : List Token) :
    spelling escape (sign :: signs) = sign.text escape ++ spelling escape signs := by
  unfold spelling
  rw [List.map_cons, String.join_cons]

theorem spelling_singleton (sign : Token) : spelling escape [sign] = sign.text escape := by
  rw [spelling_cons]
  exact String.append_empty

theorem Repetition.text_sign (often : Repetition) : often.sign.text escape = often.text := by
  cases often <;> rfl

mutual

theorem Item.spelling_tokens :
    (item : Item) → spelling escape item.tokens = item.extendedText escape
  | .char _ => spelling_singleton escape _
  | .any => spelling_singleton escape _
  | .group numbered body => by
      have opened : (if numbered then Token.openGroup else .openShy).text escape =
          if numbered then "(" else "(?:" := by
        cases numbered <;> rfl
      rw [Item.tokens, Item.extendedText, spelling_cons, spelling_append, spelling_singleton,
        body.spelling_tokens, opened, String.append_assoc]
      rfl

/-- The signs of a pattern spell its text in the extended notation. -/
theorem Expr.spelling_tokens : (e : Expr) → spelling escape e.tokens = e.extendedText escape
  | .empty => rfl
  | .item item => item.spelling_tokens
  | .repeated item often => by
      rw [Expr.tokens, Expr.extendedText, spelling_append, spelling_singleton,
        item.spelling_tokens, often.text_sign]
  | .concat first second => by
      rw [Expr.tokens, Expr.extendedText, spelling_append, first.spelling_tokens,
        second.spelling_tokens]
  | .either first second => by
      rw [Expr.tokens, Expr.extendedText, spelling_append, spelling_cons, first.spelling_tokens,
        second.spelling_tokens, String.append_assoc]
      rfl

end

end Spelling

/-! ## Stretches of a scan -/

/-- Where a scan stands: how many groups are open, whether a pattern, a group or an
alternative starts there, and what is left of the text. -/
structure ScanPoint where
  depth : Nat
  atStart : Bool
  rest : List Char

/-- A scan from a point, with a counter. -/
def ScanPoint.scan (p : ScanPoint) (fuel : Nat) : Except Fault (List Token) :=
  scanFrom fuel p.depth p.atStart p.rest

/-- Some signs are taken in on the way from one point of a scan to another. -/
inductive Scans : ScanPoint → List Token → ScanPoint → Prop where
  | here (p : ScanPoint) : Scans p [] p
  | step {p q r : ScanPoint} {signs later : List Token} :
      (∀ fuel, p.scan (fuel + 1) = (q.scan fuel).map (signs ++ ·)) →
        q.rest.length < p.rest.length → Scans q later r → Scans p (signs ++ later) r

namespace Scans

variable {p q r : ScanPoint} {signs later : List Token} {depth : Nat} {atStart : Bool}
  {rest : List Char}

theorem append (first : Scans p signs q) (second : Scans q later r) :
    Scans p (signs ++ later) r := by
  induction first with
  | here p => exact second
  | step stepped shorter _ ih =>
      rw [List.append_assoc]
      exact .step stepped shorter (ih second)

theorem of_step (stepped : ∀ fuel, p.scan (fuel + 1) = (q.scan fuel).map (signs ++ ·))
    (shorter : q.rest.length < p.rest.length) : Scans p signs q := by
  have one := Scans.step stepped shorter (.here q)
  rwa [List.append_nil] at one

/-- A scan that gets to the end of the text with all groups closed has the signs taken in. -/
theorem finish (scans : Scans p signs ⟨0, atStart, []⟩) {fuel : Nat}
    (enough : p.rest.length < fuel) : p.scan fuel = .ok signs := by
  generalize ended : (⟨0, atStart, []⟩ : ScanPoint) = q at scans
  induction scans generalizing fuel with
  | here p =>
      subst ended
      exact scanFrom.eq_1 fuel 0 atStart
  | step stepped shorter _ ih =>
      cases fuel with
      | zero => exact absurd enough (Nat.not_lt_zero _)
      | succ fuel =>
          rw [stepped, ih (by omega) ended]
          rfl

/-! Every step takes one sign.  What it means is settled by the characters alone, or by the
point before it. -/

theorem any : Scans ⟨depth, atStart, '.' :: rest⟩ [.one .any] ⟨depth, false, rest⟩ :=
  of_step (fun _ => rfl) (Nat.lt_succ_self _)

theorem quotedChar (c : Char) :
    Scans ⟨depth, atStart, Regexp.quotedChar c ++ rest⟩ [.ofChar c] ⟨depth, false, rest⟩ := by
  unfold Regexp.quotedChar
  cases sign : "[*.\\?+^$".contains c with
  | true =>
      refine of_step (fun fuel => ?_) (Nat.lt_of_succ_lt (Nat.lt_succ_self _))
      show scanFrom (fuel + 1) depth atStart ('\\' :: c :: rest) = _
      rw [scanFrom, escape_of_quoted sign]
      rfl
  | false => exact of_step (scanFrom_of_plain sign · depth atStart rest) (Nat.lt_succ_self _)

/-- A sign of repetition is one behind an item, and a greedy one before anything but a question
mark. -/
theorem sign (often : Repetition) (greedy : rest.head? ≠ some '?') :
    Scans ⟨depth, false, often.text.toList ++ rest⟩ [often.sign] ⟨depth, false, rest⟩ := by
  refine of_step (fun fuel => ?_) (by cases often <;> exact Nat.lt_succ_self _)
  cases rest with
  | nil => cases often <;> rfl
  | cons c rest =>
      have other : c ≠ '?' := fun question => greedy (congrArg some question)
      have taken (mark : Char) (isMark : mark ∈ ['*', '+', '?']) :
          scanFrom (fuel + 1) depth false (mark :: c :: rest) = (do
            return (if mark = '*' then .star else if mark = '+' then .plus else .question) ::
              (← scanFrom fuel depth false (c :: rest))) := by
        simp only [List.mem_cons, List.not_mem_nil, or_false] at isMark
        rcases isMark with rfl | rfl | rfl
        all_goals
          rw [scanFrom]
          · simp only [Char.reduceEq, if_false, if_true, Bool.false_eq_true]
            split
            next question => cases question; exact absurd rfl other
            next => rfl
          all_goals decide
      cases often
      · exact taken '*' (by decide)
      · exact taken '+' (by decide)
      · exact taken '?' (by decide)

/-- A group is numbered unless a question mark and a colon follow. -/
theorem openGroup (numbered : Bool) (notShy : rest.head? ≠ some '?') :
    Scans ⟨depth, atStart, (if numbered then "\\(" else "\\(?:").toList ++ rest⟩
      [if numbered then .openGroup else .openShy] ⟨depth + 1, true, rest⟩ := by
  cases numbered with
  | true =>
      refine of_step (fun fuel => ?_) (Nat.lt_of_succ_lt (Nat.lt_succ_self _))
      cases rest with
      | nil => rfl
      | cons c rest =>
          have other : c ≠ '?' := fun question => notShy (congrArg some question)
          have read : escape depth atStart ('(' :: c :: rest) =
              .ok ⟨[.openGroup], depth + 1, true, c :: rest⟩ := by simp [escape, other]
          show scanFrom (fuel + 1) depth atStart ('\\' :: '(' :: c :: rest) = _
          rw [scanFrom, read]
          rfl
  | false =>
      refine of_step (fun _ => rfl) ?_
      show rest.length < rest.length + 4
      omega

theorem close : Scans ⟨depth + 1, atStart, "\\)".toList ++ rest⟩ [.close] ⟨depth, false, rest⟩ :=
  of_step (fun _ => rfl) (Nat.lt_of_succ_lt (Nat.lt_succ_self _))

theorem alternative :
    Scans ⟨depth, atStart, "\\|".toList ++ rest⟩ [.alternative] ⟨depth, true, rest⟩ :=
  of_step (fun _ => rfl) (Nat.lt_of_succ_lt (Nat.lt_succ_self _))

end Scans

/-! ## Scanning a pattern -/

theorem toList_quote_char (c : Char) : (quote c.toString).toList = quotedChar c := by
  rw [toList_quote, Char.toString, String.toList_singleton, List.flatMap_singleton]

theorem head?_ne_question_of_backslash (rest : List Char) :
    ('\\' :: rest).head? ≠ some '?' := by
  rw [List.head?_cons]
  decide

mutual

theorem Item.head?_ne_question (rest : List Char) :
    (item : Item) → (item.text.toList ++ rest).head? ≠ some '?'
  | .char c => by
      rw [Item.text, toList_quote_char]
      unfold quotedChar
      split
      next => exact head?_ne_question_of_backslash _
      next plain =>
          intro same
          cases same
          exact plain (by simp)
  | .any => fun same => absurd (Option.some.inj same) (by decide)
  | .group numbered body => by
      rw [Item.text, String.toList_append, String.toList_append]
      cases numbered <;> exact head?_ne_question_of_backslash _

/-- No pattern starts with a question mark that is a sign. -/
theorem Expr.head?_ne_question {rest : List Char} (other : rest.head? ≠ some '?') :
    (e : Expr) → (e.text.toList ++ rest).head? ≠ some '?'
  | .empty => other
  | .item item => item.head?_ne_question rest
  | .repeated item often => by
      rw [Expr.text, String.toList_append, List.append_assoc]
      exact item.head?_ne_question _
  | .concat first second => by
      rw [Expr.text, String.toList_append, List.append_assoc]
      exact first.head?_ne_question (second.head?_ne_question other)
  | .either first second => by
      rw [Expr.text, String.toList_append, String.toList_append, List.append_assoc,
        List.append_assoc]
      exact first.head?_ne_question (head?_ne_question_of_backslash _)

end

mutual

/-- An item is scanned whatever comes after it, and no pattern starts behind it. -/
theorem Item.scans (depth : Nat) (atStart : Bool) (rest : List Char) : (item : Item) →
    Scans ⟨depth, atStart, item.text.toList ++ rest⟩ item.tokens ⟨depth, false, rest⟩
  | .char c => by
      rw [Item.text, toList_quote_char]
      exact .quotedChar c
  | .any => .any
  | .group numbered body => by
      have greedy : ("\\)".toList ++ rest).head? ≠ some '?' := head?_ne_question_of_backslash _
      obtain ⟨atStart', inside⟩ := body.scans (depth + 1) true greedy
      rw [Item.text, String.toList_append, String.toList_append, List.append_assoc,
        List.append_assoc]
      exact (Scans.openGroup numbered (body.head?_ne_question greedy)).append
        (inside.append .close)

/-- A pattern is scanned before anything that does not make its last sign a reluctant one. -/
theorem Expr.scans (depth : Nat) (atStart : Bool) {rest : List Char}
    (other : rest.head? ≠ some '?') : (e : Expr) →
    ∃ atStart', Scans ⟨depth, atStart, e.text.toList ++ rest⟩ e.tokens ⟨depth, atStart', rest⟩
  | .empty => ⟨atStart, .here _⟩
  | .item item => ⟨false, item.scans depth atStart rest⟩
  | .repeated item often => by
      rw [Expr.text, String.toList_append, List.append_assoc]
      exact ⟨false, (item.scans depth atStart _).append (.sign often other)⟩
  | .concat first second => by
      obtain ⟨between, front⟩ := first.scans depth atStart (second.head?_ne_question other)
      obtain ⟨atStart', back⟩ := second.scans depth between other
      rw [Expr.text, String.toList_append, List.append_assoc]
      exact ⟨atStart', front.append back⟩
  | .either first second => by
      have greedy : ("\\|".toList ++ (second.text.toList ++ rest)).head? ≠ some '?' :=
        head?_ne_question_of_backslash _
      obtain ⟨between, front⟩ := first.scans depth atStart greedy
      obtain ⟨atStart', back⟩ := second.scans depth true other
      rw [Expr.text, String.toList_append, String.toList_append, List.append_assoc,
        List.append_assoc]
      exact ⟨atStart', front.append (Scans.alternative.append back)⟩

end

theorem Expr.tokens_text (e : Expr) : Regexp.tokens e.text = .ok e.tokens := by
  have ended : ([] : List Char).head? ≠ some '?' := nofun
  obtain ⟨atStart', scans⟩ := e.scans 0 true ended
  rw [List.append_nil] at scans
  have short : e.text.toList.length < e.text.length + 1 := by
    rw [String.length_toList]
    exact Nat.lt_succ_self _
  exact scans.finish short

/-- A pattern is brought into the extended notation part by part: characters are escaped in the way
of the engine, groups and alternatives lose their backslashes, and repetitions stay.  In particular
a quoted text becomes a text in which every character stands for itself. -/
theorem extended_text (escape : Char → String) :
    (∀ e : Expr, extended escape e.text = .ok ("(?m)" ++ e.extendedText escape)) ∧
      ∀ s : String,
        extended escape (quote s) = .ok ("(?m)" ++ String.join (s.toList.map escape)) := by
  constructor
  · intro e
    unfold extended
    rw [e.tokens_text, ← e.spelling_tokens]
    rfl
  · exact extended_quote escape

/-- Parentheses are characters or signs, the other way round in each notation. -/
example :
    extended (fun c => "\\" ++ c.toString) "\\(?:a*\\|\\(b\\.\\)+\\)?(c)" =
      .ok "(?m)(?:\\a*|(\\b\\.)+)?\\(\\c\\)" := by
  cbv

end EditorLisp.Regexp
