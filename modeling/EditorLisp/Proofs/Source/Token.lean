import EditorLisp.Proofs.Source.Pass
import Mathlib.Data.List.Basic
import Mathlib.Data.List.TakeWhile

/-!
# Tokens and the pass

What the pass writes for one token of a list is some words with a blank between each two.  A word
is gone through character by character, but a literal in a radix gives way to its number wherever
it stands in it.  With a digit or a question mark at the front it is another matter: what becomes
of such a token can depend on the characters around it.  `Passes` says so, and on which side a
token looks.
-/

namespace EditorLisp.Source

open EditorLisp.Text

/-! ## Blanks -/

/-- Some blanks that separate two tokens. -/
structure Blanks (blanks : List Char) : Prop where
  nonempty : blanks ≠ []
  blank : ∀ c ∈ blanks, isBlank c = true

theorem blanks_of_all {blanks : List Char} (nonempty : blanks ≠ [])
    (all : blanks.all isBlank = true) : Blanks blanks :=
  ⟨nonempty, List.all_eq_true.mp all⟩

theorem blank_noMark {c : Char} (blank : isBlank c = true) : c ∉ marks := by
  intro mark
  have none : (marks.all fun d => !isBlank d) = true := by decide
  have dark := List.all_eq_true.mp none c mark
  rw [blank] at dark
  cases dark

theorem blank_noDigit {c : Char} (blank : isBlank c = true) : c.isDigit = false :=
  (Bool.or_eq_false_iff.mp (blank_noAlphanum blank)).2

/-- Blanks are copied. -/
theorem Expands.blanks {blanks text out : List Char} (blank : ∀ c ∈ blanks, isBlank c = true)
    (nonempty : blanks ≠ []) (after : Expands blanks.getLast? text out) (prev : Option Char) :
    Expands prev (blanks ++ text) (blanks ++ out) := by
  induction blanks generalizing prev with
  | nil => exact absurd rfl nonempty
  | cons c blanks ih =>
      have first := blank c (.head _)
      refine .character (blank_noMark first) (blank_noDigit first) ?_
      cases blanks with
      | nil => exact after
      | cons d blanks =>
          exact ih (fun e member => blank e (.tail _ member)) (List.cons_ne_nil _ _) after _

/-! ## Literals in a radix -/

theorem radixLiteral?_append {text rest : List Char} (follows : Follows rest) :
    radixLiteral? ('#' :: (text ++ rest)) = radixLiteral? ('#' :: text) := by
  have word (radix : Nat) (text : List Char) :
      (text ++ rest).takeWhile (Number.isDigit radix) = text.takeWhile (Number.isDigit radix) := by
    refine takeWhile_stops (follows.stops ?_ rfl) text
    intro c blank
    cases digit : Number.isDigit radix c with
    | false => rfl
    | true =>
        rw [Number.isBlank_of_isDigit digit] at blank
        cases blank
  cases text with
  | cons mark text =>
      unfold radixLiteral?
      simp only [List.cons_append, word]
  | nil =>
      cases rest with
      | nil => rfl
      | cons c rest =>
          have noLetter : c.isAlphanum = false :=
            follows.stops (fun _ => blank_noAlphanum) (by decide) c rfl
          have noMark : c ∉ ['o', 'O', 'x', 'X', 'b', 'B'] := by
            intro mark
            have letters : (['o', 'O', 'x', 'X', 'b', 'B'].all Char.isAlphanum) = true := by decide
            have letter := List.all_eq_true.mp letters c mark
            rw [noLetter] at letter
            cases letter
          simp only [List.mem_cons, List.not_mem_nil, or_false, not_or] at noMark
          obtain ⟨h1, h2, h3, h4, h5, h6⟩ := noMark
          simp [radixLiteral?, h1, h2, h3, h4, h5, h6]

/-- The value of a literal is not negative. -/
theorem exists_nat_of_radixLiteral? {text : List Char} {value : Int64} {used : Nat}
    (found : radixLiteral? text = some (value, used)) : ∃ m : Nat, value.toInt = m := by
  unfold radixLiteral? at found
  split at found
  next mark rest =>
    obtain ⟨radix, -, found⟩ := Option.bind_eq_some_iff.mp found
    obtain ⟨value, literal, pair⟩ := Option.map_eq_some_iff.mp found
    cases pair
    cases word : rest.takeWhile (Number.isDigit radix) with
    | nil =>
        rw [word] at literal
        cases literal
    | cons c others =>
        have spells : Number.Spells radix (rest.takeWhile (Number.isDigit radix)) _ :=
          ⟨by rw [word]; exact List.cons_ne_nil _ _,
            List.all_eq_true.mp (List.all_takeWhile (p := Number.isDigit radix)), rfl⟩
        have signless := Number.intLiteral?_append .none spells
        rw [List.nil_append, literal] at signless
        exact ⟨_, (Number.fixed?_eq_some_iff.mp signless.symm).symm⟩
  next => cases found

/-! ## Inside a word -/

/-- Characters of a word, none of which ends it or quotes another one. -/
abbrev InsideAtom (c : Char) : Prop := endsAtom c = false ∧ c ≠ '\\'

theorem InsideAtom.noDelimiter {c : Char} (inside : InsideAtom c) :
    isDelimiter (some c) = false := by
  cases delimiter : isDelimiter (some c) with
  | false => rfl
  | true =>
      have all : ([' ', '\t', '\n', '\r', '(', ')', '[', ']', '\'', '`', ',', '"'].all
        endsAtom) = true := by decide
      have ends := List.all_eq_true.mp all c (of_decide_eq_true delimiter)
      rw [inside.1] at ends
      cases ends

/-- Of the marks of the pass only two can stand in a word. -/
theorem InsideAtom.noMark {c : Char} (inside : InsideAtom c) (noNumber : c ≠ '#')
    (noQuestion : c ≠ '?') : c ∉ marks := by
  intro mark
  unfold marks at mark
  simp only [List.mem_cons, List.not_mem_nil, or_false] at mark
  rcases mark with rfl | rfl | rfl | rfl | rfl | rfl | rfl | rfl
  · exact absurd inside.1 (by decide)
  · exact absurd inside.1 (by decide)
  · exact noNumber rfl
  · exact absurd inside.1 (by decide)
  · exact absurd inside.1 (by decide)
  · exact absurd inside.1 (by decide)
  · exact inside.2 rfl
  · exact noQuestion rfl

/-- A character of a word is copied, unless it could start a token there. -/
theorem expandToken_inside {c : Char} (inside : InsideAtom c) (noNumber : c ≠ '#')
    {prev : Option Char} (started : (c.isDigit || c == '?') = false ∨ isDelimiter prev = false)
    (rest : List Char) (offset : Nat) :
    expandToken offset prev (c :: rest) = (c.toString, 1, .code) := by
  by_cases question : c = '?'
  · subst question
    have undelimited : isDelimiter prev = false := started.resolve_left (by decide)
    rw [expandToken_other (by decide), undelimited]
    simp
  · refine expandToken_copy (inside.noMark noNumber question) ?_ ?_ offset
    · rintro rfl delimited
      obtain ordinary | undelimited := started
      · cases ordinary
      · rw [delimited] at undelimited
        cases undelimited
    · intro digit
      obtain ordinary | undelimited := started
      · rw [digit] at ordinary
        cases ordinary
      · unfold digitSymbol?
        rw [undelimited]
        rfl

/-- No quotation mark comes after a number sign in a word or right behind it. -/
theorem unquoted {text rest : List Char} (plain : ∀ c ∈ text, InsideAtom c)
    (follows : Follows rest) : (text ++ rest).head? ≠ some '\'' := by
  cases text with
  | nil => exact fun quote => absurd (follows _ quote) (by decide)
  | cons c text =>
      intro quote
      obtain rfl := Option.some.inj quote
      exact absurd (plain _ (.head _)).1 (by decide)

theorem insideAtom_of_isAlphanum {c : Char} (alphanum : c.isAlphanum = true) : InsideAtom c :=
  ⟨(inWord_of_alphanum (.inl alphanum)).inAtom, (inWord_of_alphanum (.inl alphanum)).noBackslash⟩

theorem insideAtom_of_isDigit {c : Char} (digit : c.isDigit = true) : InsideAtom c :=
  insideAtom_of_isAlphanum (by simp [Char.isAlphanum, digit])

/-- A word may start with a letter or a digit and go on with any characters of a word. -/
theorem isWord_of_isAlphanum {c : Char} {rest : List Char} (letter : c.isAlphanum = true)
    (plain : ∀ d ∈ c :: rest, InsideAtom d) : IsWord (c :: rest) where
  nonempty := List.cons_ne_nil _ _
  plain := plain
  not_dot single := by
    obtain ⟨rfl, -⟩ := List.cons.inj single
    cases letter
  no_comment starts := by
    obtain ⟨rfl, -⟩ := List.cons_prefix_cons.mp starts
    cases letter

/-- The characters that a literal at the front gives way to: its number, and a blank if it would
run into what comes after it. -/
theorem expandToken_literal {text : List Char} {value : Int64} {used : Nat}
    (plain : ∀ c ∈ text, InsideAtom c) (found : radixLiteral? ('#' :: text) = some (value, used))
    {rest : List Char} (follows : Follows rest) (prev : Option Char) (offset : Nat) :
    expandToken offset prev ('#' :: (text ++ rest)) =
      (toString value.toInt ++
        if (('#' :: text).drop used).head?.any Char.isAlphanum then " " else "", used, .code) := by
  have after : (('#' :: (text ++ rest)).drop used).head?.any Char.isAlphanum =
      (('#' :: text).drop used).head?.any Char.isAlphanum := by
    rw [← List.cons_append, (takes_radixLiteral found).drop_append]
    cases ('#' :: text).drop used with
    | cons c tail => rfl
    | nil =>
        cases rest with
        | nil => rfl
        | cons c rest => exact follows.stops (fun _ => blank_noAlphanum) (by decide) c rfl
  rw [expandToken_number _ _ (unquoted plain follows), radixLiteral?_append follows, found]
  simp only [after]

/-- A text at the front of a word and what the pass makes of it up to the first blank it writes. -/
structure Becomes (text front : List Char) : Prop where
  plain : ∀ c ∈ front, InsideAtom c
  head : front.head? = text.head? ∨ text.head? = some '#' ∧ front.head?.any Char.isDigit = true
  dot : front = ['.'] → text = ['.']
  comment : ['#', '|'] <+: front → ['#', '|'] <+: text

namespace Becomes

variable {c : Char} {text front : List Char}

theorem nil : Becomes [] [] where
  plain _ member := nomatch member
  head := .inl rfl
  dot := nofun
  comment := id

theorem eq_nil (becomes : Becomes text []) : text = [] := by
  obtain same | ⟨-, digit⟩ := becomes.head
  · exact List.head?_eq_none_iff.mp same.symm
  · cases digit

theorem cons (inside : InsideAtom c) (becomes : Becomes text front) :
    Becomes (c :: text) (c :: front) where
  plain := List.forall_mem_cons.mpr ⟨inside, becomes.plain⟩
  head := .inl rfl
  dot single := by
    obtain ⟨rfl, rfl⟩ := List.cons.inj single
    rw [becomes.eq_nil]
  comment starts := by
    obtain ⟨rfl, bar⟩ := List.cons_prefix_cons.mp starts
    refine List.cons_prefix_cons.mpr ⟨rfl, ?_⟩
    obtain ⟨more, rfl⟩ := bar
    obtain same | ⟨-, digit⟩ := becomes.head
    · obtain ⟨more, rfl⟩ := List.head?_eq_some_iff.mp same.symm
      exact ⟨more, rfl⟩
    · cases digit

/-- A number takes the place of a literal at the front. -/
theorem number {digits : List Char} (nonempty : digits ≠ [])
    (all : ∀ d ∈ digits, d.isDigit = true) (plain : ∀ c ∈ front, InsideAtom c) :
    Becomes ('#' :: text) (digits ++ front) where
  plain d member := by
    obtain inDigits | later := List.mem_append.mp member
    · exact insideAtom_of_isDigit (all d inDigits)
    · exact plain d later
  head := by
    cases digits with
    | nil => exact absurd rfl nonempty
    | cons d digits => exact .inr ⟨rfl, all d (.head _)⟩
  dot single := by
    cases digits with
    | nil => exact absurd rfl nonempty
    | cons d digits =>
        obtain ⟨rfl, -⟩ := List.cons.inj single
        exact absurd (all '.' (.head _)) (by decide)
  comment starts := by
    cases digits with
    | nil => exact absurd rfl nonempty
    | cons d digits =>
        obtain ⟨rfl, -⟩ := List.cons_prefix_cons.mp starts
        exact absurd (all '#' (.head _)) (by decide)

theorem isWord (becomes : Becomes text front) (word : IsWord text) : IsWord front where
  nonempty := by
    rintro rfl
    exact word.nonempty becomes.eq_nil
  plain := becomes.plain
  not_dot single := word.not_dot (becomes.dot single)
  no_comment starts := word.no_comment (becomes.comment starts)

end Becomes

/-- What the pass makes of a text inside a word, or at the front of one that no digit and no
question mark starts: the rest of that word, and further words after a blank each. -/
structure PassesInside (text front : List Char) (words : List (List Char)) : Prop where
  becomes : Becomes text front
  isWord : ∀ word ∈ words, IsWord word
  same : '#' ∉ text → front = text ∧ words = []
  expands : ∀ prev rest out,
    (text.head?.any (fun c => c.isDigit || c == '?') = true → isDelimiter prev = false) →
      Follows rest → (∀ prev, Expands prev rest out) →
        Expands prev (text ++ rest) (front ++ (words.flatMap (' ' :: ·) ++ out))

namespace PassesInside

variable {c : Char} {text front : List Char} {words : List (List Char)}

theorem nil : PassesInside [] [] [] where
  becomes := .nil
  isWord _ member := nomatch member
  same _ := ⟨rfl, rfl⟩
  expands prev _ _ _ _ after := after prev

/-- The character at the front is copied. -/
theorem cons (inside : InsideAtom c)
    (copied : ∀ prev rest, (c.isDigit || c == '?') = false ∨ isDelimiter prev = false →
      Follows rest → ∀ offset,
        expandToken offset prev (c :: (text ++ rest)) = (c.toString, 1, .code))
    (same : '#' ∉ c :: text → front = text ∧ words = [])
    (passes : PassesInside text front words) : PassesInside (c :: text) (c :: front) words where
  becomes := passes.becomes.cons inside
  isWord := passes.isWord
  same plain := by
    obtain ⟨rfl, rfl⟩ := same plain
    exact ⟨rfl, rfl⟩
  expands prev rest out started follows after := by
    refine .copy (copied prev rest ?_ follows) ?_ ?_ ?_
    · cases special : c.isDigit || c == '?' with
      | false => exact .inl rfl
      | true => exact .inr (started special)
    · rintro rfl
      exact absurd inside.1 (by decide)
    · rintro rfl
      exact absurd inside.1 (by decide)
    · exact passes.expands _ rest out (fun _ => inside.noDelimiter) follows after

/-- A number sign at the front that starts no literal is copied. -/
theorem number (plain : ∀ c ∈ text, InsideAtom c) (none : radixLiteral? ('#' :: text) = none)
    (passes : PassesInside text front words) : PassesInside ('#' :: text) ('#' :: front) words := by
  refine passes.cons (by decide) (fun prev rest _ follows offset => ?_) (fun absent => ?_)
  · rw [expandToken_number _ _ (unquoted plain follows), radixLiteral?_append follows, none]
    rfl
  · exact absurd (List.mem_cons_self (a := '#')) absent

section Literal

variable {value : Int64} {used : Nat} (plain : ∀ c ∈ text, InsideAtom c)
  (found : radixLiteral? ('#' :: text) = some (value, used))
include plain found

/-- What comes after a literal comes after a character of a word. -/
theorem expands_behind_literal (passes : PassesInside (('#' :: text).drop used) front words)
    {rest out : List Char} (follows : Follows rest) (next : ∀ prev, Expands prev rest out) :
    Expands (lastOf used ('#' :: (text ++ rest))) (('#' :: (text ++ rest)).drop used)
      (front ++ (words.flatMap (' ' :: ·) ++ out)) := by
  have taken := takes_radixLiteral found
  have whole : ∀ c ∈ '#' :: text, InsideAtom c := List.forall_mem_cons.mpr ⟨by decide, plain⟩
  rw [← List.cons_append, taken.drop_append, lastOf_append taken]
  refine passes.expands _ rest out (fun _ => ?_) follows next
  have inside : used - 1 < ('#' :: text).length := by
    obtain ⟨positive, inside⟩ := taken
    omega
  unfold lastOf
  rw [List.getElem?_eq_getElem inside]
  exact (whole _ (List.getElem_mem inside)).noDelimiter

/-- A literal at the front gives way to its number, with a blank if a word would run into it. -/
theorem expands_literal (passes : PassesInside (('#' :: text).drop used) front words)
    {rest out : List Char} (prev : Option Char) (follows : Follows rest)
    (next : ∀ prev, Expands prev rest out) :
    Expands prev ('#' :: (text ++ rest))
      ((toString value.toInt ++
          if (('#' :: text).drop used).head?.any Char.isAlphanum then " " else "").toList ++
        (front ++ (words.flatMap (' ' :: ·) ++ out))) :=
  .token (expandToken_literal plain found follows prev) (takes_radixLiteral found).1 (by decide)
    (by decide) (expands_behind_literal plain found passes follows next)

omit found in
/-- What stands right behind a literal and starts with a letter or a digit becomes a word. -/
theorem isWord_behind_literal (becomes : Becomes (('#' :: text).drop used) front)
    (letter : (('#' :: text).drop used).head?.any Char.isAlphanum = true) : IsWord front := by
  refine becomes.isWord ?_
  have inside : ∀ c ∈ ('#' :: text).drop used, InsideAtom c := fun c member =>
    List.forall_mem_cons.mpr ⟨by decide, plain⟩ c (List.mem_of_mem_drop member)
  cases tail : ('#' :: text).drop used with
  | nil =>
      rw [tail] at letter
      cases letter
  | cons c tail' =>
      rw [tail] at letter inside
      exact isWord_of_isAlphanum letter inside

omit plain in
/-- The number of a literal is written in digits. -/
theorem exists_digits_of_radixLiteral? :
    ∃ digits, (toString value.toInt).toList = digits ∧ digits ≠ [] ∧
      ∀ d ∈ digits, d.isDigit = true := by
  obtain ⟨m, natural⟩ := exists_nat_of_radixLiteral? found
  refine ⟨Nat.toDigits 10 m, ?_, ?_, fun _ => Number.isDigit_of_mem_digits⟩
  · rw [Number.toList_toString, natural, Number.numeral_natCast]
  · exact (Number.spells_toDigits (by decide : 1 < 10) (by decide) m).nonempty

theorem literal (passes : PassesInside (('#' :: text).drop used) front words) :
    ∃ front words, PassesInside ('#' :: text) front words := by
  obtain ⟨digits, numeral, nonempty, all⟩ := exists_digits_of_radixLiteral? found
  have absent {p : Prop} : '#' ∉ '#' :: text → p := fun none => absurd (.head _) none
  have expands {rest out : List Char} (prev : Option Char) (follows : Follows rest)
      (next : ∀ prev, Expands prev rest out) :=
    expands_literal plain found passes prev follows next
  simp only [String.toList_append, numeral] at expands
  cases letter : (('#' :: text).drop used).head?.any Char.isAlphanum with
  | false =>
      simp only [letter] at expands
      refine ⟨digits ++ front, words, .number nonempty all passes.becomes.plain, passes.isWord,
        absent, fun prev rest out _ follows next => ?_⟩
      simpa using expands prev follows next
  | true =>
      simp only [letter] at expands
      have isWord := isWord_behind_literal plain passes.becomes letter
      refine ⟨digits, front :: words, ?_, List.forall_mem_cons.mpr ⟨isWord, passes.isWord⟩, absent,
        fun prev rest out _ follows next => ?_⟩
      · rw [← List.append_nil digits]
        exact .number nonempty all fun _ member => nomatch member
      · simpa using expands prev follows next

end Literal

end PassesInside

/-- The pass goes through a word character by character, literals aside. -/
theorem exists_passesInside (text : List Char) (plain : ∀ c ∈ text, InsideAtom c) :
    ∃ front words, PassesInside text front words := by
  induction h : text.length using Nat.strongRecOn generalizing text with
  | ind n ih =>
      subst h
      cases text with
      | nil => exact ⟨_, _, .nil⟩
      | cons c text =>
          obtain ⟨inside, later⟩ := List.forall_mem_cons.mp plain
          obtain ⟨front, words, passes⟩ := ih _ (Nat.lt_succ_self _) text later rfl
          by_cases number : c = '#'
          · subst number
            cases found : radixLiteral? ('#' :: text) with
            | none => exact ⟨_, _, passes.number later found⟩
            | some literal =>
                obtain ⟨value, used⟩ := literal
                have shorter := (takes_radixLiteral found).length_drop_le
                have after : ∀ d ∈ ('#' :: text).drop used, InsideAtom d := fun d member =>
                  plain d (List.mem_of_mem_drop member)
                obtain ⟨front, words, passes⟩ := ih _ (Nat.lt_succ_of_le shorter) _ after rfl
                exact passes.literal later found
          · exact ⟨_, _, passes.cons inside
              (fun _ _ started _ => expandToken_inside inside number started _)
              fun absent => passes.same fun member => absurd (.tail _ member) absent⟩

/-! ## Tokens -/

/-- A token that starts with a digit and gets another name: that of one of two functions, or one
with a letter in front. -/
def IsDigitName (token : List Char) : Prop :=
  token ∈ [['1', '+'], ['1', '-']] ∨
    token.head?.any Char.isDigit = true ∧ token.all isSymbolChar = true ∧
      token.any Char.isAlpha = true ∧ (Number.floatLiteral? token).isNone = true

instance (token : List Char) : Decidable (IsDigitName token) :=
  inferInstanceAs (Decidable (_ ∨ _))

/-- A token that the pass makes something of only where one can start. -/
def LooksBack (token : List Char) : Prop := token.head? = some '?' ∨ IsDigitName token

instance (token : List Char) : Decidable (LooksBack token) :=
  inferInstanceAs (Decidable (_ ∨ _))

/-- What the pass makes of a token: some words with a blank between each two of them, wherever the
token stands that looks at nothing around it. -/
structure Passes (token : List Char) (words : List (List Char)) : Prop where
  isWord : ∀ word ∈ words, IsWord word
  nonempty : words ≠ []
  expands : ∀ prev rest out, (LooksBack token → isDelimiter prev = true) → Follows rest →
    (IsDigitName token → isDelimiter rest.head? = true) → (∀ prev, Expands prev rest out) →
      Expands prev (token ++ rest) ([' '].intercalate words ++ out)

theorem intercalate_blank (first : List Char) (others : List (List Char)) :
    [' '].intercalate (first :: others) = first ++ others.flatMap (' ' :: ·) := by
  induction others generalizing first with
  | nil => simp [List.intercalate]
  | cons next others ih =>
      have unfolded : [' '].intercalate (first :: next :: others) =
          first ++ ([' '] ++ [' '].intercalate (next :: others)) := by
        simp [List.intercalate]
      rw [unfolded, ih]
      rfl

section Passes

variable {token front : List Char} {words : List (List Char)}

theorem isWord_toDigits (n : Nat) : IsWord (Nat.toDigits 10 n) := by
  have nonempty := (Number.spells_toDigits (by decide : 1 < 10) (by decide) n).nonempty
  have digits : ∀ d ∈ Nat.toDigits 10 n, d.isDigit = true := fun _ => Number.isDigit_of_mem_digits
  cases all : Nat.toDigits 10 n with
  | nil => exact absurd all nonempty
  | cons d others =>
      rw [all] at digits
      exact isWord_of_isAlphanum (by simp [Char.isAlphanum, digits d (.head _)])
        fun e member => insideAtom_of_isDigit (digits e member)

/-- A token that the pass makes one word of, all at once. -/
theorem Passes.single {c : Char} {rest word : List Char} (isWord : IsWord word)
    (inside : c ≠ '[' ∧ c ≠ ']')
    (token : ∀ prev more, (LooksBack (c :: rest) → isDelimiter prev = true) → Follows more →
      (IsDigitName (c :: rest) → isDelimiter more.head? = true) → ∀ offset,
        expandToken offset prev (c :: (rest ++ more)) =
          (String.ofList word, (c :: rest).length, .code)) :
    Passes (c :: rest) [word] where
  isWord other member := by
    rw [List.mem_singleton.mp member]
    exact isWord
  nonempty := List.cons_ne_nil _ _
  expands prev more out before follows behind after := by
    have later (prev : Option Char) :
        Expands prev ((c :: (rest ++ more)).drop (c :: rest).length) out := by
      rw [← List.cons_append, List.drop_left]
      exact after prev
    have expands := Expands.token (token prev more before follows behind) (Nat.succ_pos _) inside.1
      inside.2 (later _)
    rw [String.toList_ofList] at expands
    rw [intercalate_blank]
    simpa using expands

/-- A word that starts with neither a question mark nor a digit. -/
theorem PassesInside.passes (inside : PassesInside token front words) (isWord : IsWord token)
    (ordinary : token.head?.any (fun c => c.isDigit || c == '?') = false) :
    Passes token (front :: words) where
  isWord := List.forall_mem_cons.mpr ⟨inside.becomes.isWord isWord, inside.isWord⟩
  nonempty := List.cons_ne_nil _ _
  expands prev rest out _ follows _ after := by
    have expands := inside.expands prev rest out (fun special => ?_) follows after
    · rw [intercalate_blank, List.append_assoc]
      exact expands
    · rw [ordinary] at special
      cases special

/-- A word that starts with a digit which is copied. -/
theorem PassesInside.passes_digit {c : Char} {text : List Char}
    (inside : PassesInside text front words) (isWord : IsWord (c :: text))
    (digit : c.isDigit = true)
    (copied : ∀ prev rest, Follows rest →
      ∀ offset, expandToken offset prev (c :: (text ++ rest)) = (c.toString, 1, .code)) :
    Passes (c :: text) ((c :: front) :: words) where
  isWord := List.forall_mem_cons.mpr
    ⟨(inside.becomes.cons (insideAtom_of_isDigit digit)).isWord isWord, inside.isWord⟩
  nonempty := List.cons_ne_nil _ _
  expands prev rest out _ follows _ after := by
    have plain := insideAtom_of_isDigit digit
    have noBracket := ne_bracket_of_isDigit digit
    have later := inside.expands (some c) rest out (fun _ => plain.noDelimiter) follows after
    rw [intercalate_blank, List.append_assoc]
    exact .copy (copied prev rest follows) noBracket.1 noBracket.2 later

/-- A word of digits is copied wherever it stands. -/
theorem passes_digits (nonempty : token ≠ []) (digits : ∀ c ∈ token, c.isDigit = true) :
    Passes token [token] := by
  cases token with
  | nil => exact absurd rfl nonempty
  | cons c text =>
      obtain ⟨digit, later⟩ := List.forall_mem_cons.mp digits
      have plain : ∀ d ∈ c :: text, InsideAtom d := fun d member =>
        insideAtom_of_isDigit (digits d member)
      have isWord : IsWord (c :: text) :=
        isWord_of_isAlphanum (by simp [Char.isAlphanum, digit]) plain
      obtain ⟨front, words, inside⟩ := exists_passesInside text fun d member =>
        plain d (.tail _ member)
      have noNumber : '#' ∉ text := fun member => absurd (later '#' member) (by decide)
      obtain ⟨rfl, rfl⟩ := inside.same noNumber
      exact inside.passes_digit isWord digit fun prev rest follows offset =>
        expandToken_digits digits follows prev offset

theorem drop_takeWhile (p : Char → Bool) (text rest : List Char) :
    (text ++ rest).drop (text.takeWhile p).length = text.dropWhile p ++ rest := by
  have whole := List.takeWhile_append_dropWhile (p := p) (l := text)
  calc (text ++ rest).drop (text.takeWhile p).length
      = (text.takeWhile p ++ (text.dropWhile p ++ rest)).drop (text.takeWhile p).length := by
        rw [← List.append_assoc, whole]
    _ = text.dropWhile p ++ rest := List.drop_left

/-- The pass looks for a name that starts with a digit in a whole token or not at all. -/
theorem digitSymbol?_append (plain : ∀ c ∈ token, InsideAtom c) (prev : Option Char)
    {rest : List Char} (follows : Follows rest) :
    digitSymbol? prev (token ++ rest) =
      if isDelimiter prev && isDelimiter rest.head? && (token.all isSymbolChar &&
        (token.any Char.isAlpha && (Number.floatLiteral? token).isNone))
      then some token else none := by
  unfold digitSymbol?
  simp only [follows.takeWhile_isSymbolChar]
  cases all : token.all isSymbolChar with
  | true =>
      rw [List.takeWhile_eq_self_iff.mpr (List.all_eq_true.mp all), List.drop_left, Bool.true_and,
        Bool.and_assoc]
  | false =>
      cases others : token.dropWhile isSymbolChar with
      | nil =>
          rw [List.all_eq_true.mpr (List.dropWhile_eq_nil_iff.mp others)] at all
          cases all
      | cons d others' =>
          have inside : InsideAtom d :=
            plain d ((List.dropWhile_suffix isSymbolChar).subset (others ▸ .head _))
          rw [drop_takeWhile, others, List.cons_append, List.head?_cons, inside.noDelimiter]
          simp only [Bool.and_false, Bool.false_and, Bool.false_eq_true, if_false]

theorem expandToken_digit {c : Char} {prev : Option Char} {rest : List Char}
    (digit : c.isDigit = true)
    (noName : ¬(c = '1' ∧ rest.head?.any (· ∈ ['+', '-']) = true ∧ isDelimiter prev = true ∧
      isDelimiter rest.tail.head? = true)) (offset : Nat) :
    expandToken offset prev (c :: rest) =
      match digitSymbol? prev (c :: rest) with
      | some word => ("n-" ++ String.ofList word, word.length, .code)
      | none => (c.toString, 1, .code) := by
  have noMark := digit_noMark digit
  have noHead : c ∉ heads := fun head => noMark (List.mem_append_left ['\\', '?'] head)
  have noBackslash : c ≠ '\\' := by
    rintro rfl
    exact noMark (by decide)
  have noQuestion : c ≠ '?' := by
    rintro rfl
    exact noMark (by decide)
  refine (expandToken_other noHead offset prev rest).trans ?_
  refine (if_neg fun both => noBackslash both.1).trans ((if_neg noName).trans ?_)
  exact (if_neg fun both => noQuestion both.1).trans (if_pos digit)

/-- The two functions named by a one and a sign have other names inside the runtime. -/
theorem passes_increment {sign : Char} (signs : sign ∈ ['+', '-']) :
    Passes ['1', sign] [if sign = '+' then ['s', 'u', 'c', 'c'] else ['p', 'r', 'e', 'd']] := by
  have name : IsDigitName ['1', sign] := by
    simp only [List.mem_cons, List.not_mem_nil, or_false] at signs
    rcases signs with rfl | rfl
    · exact .inl (by decide)
    · exact .inl (by decide)
  have isWord : IsWord (if sign = '+' then ['s', 'u', 'c', 'c'] else ['p', 'r', 'e', 'd']) := by
    split
    all_goals exact isWord_of_isAlphanum (by decide) (plain_of_all (by decide))
  refine .single isWord (by decide) fun prev more before _ behind offset => ?_
  rw [expandToken_other (by decide), if_neg fun both => absurd both.1 (by decide),
    if_pos ⟨rfl, decide_eq_true signs, before (.inr name), behind name⟩]
  simp only [List.singleton_append, List.head?_cons, Option.some.injEq, List.length_cons,
    List.length_nil]
  split
  all_goals rfl

/-- No other token names one of those functions. -/
theorem ne_increment {c : Char} {text : List Char} (isWord : IsWord (c :: text))
    (name : (c :: text).all Char.isDigit = false)
    (noIncrement : ¬(c = '1' ∧ ∃ sign ∈ ['+', '-'], text = [sign])) (prev : Option Char)
    (rest : List Char) :
    ¬(c = '1' ∧ (text ++ rest).head?.any (· ∈ ['+', '-']) = true ∧ isDelimiter prev = true ∧
      isDelimiter (text ++ rest).tail.head? = true) := by
  rintro ⟨rfl, sign, -, ends⟩
  match text with
  | [] => cases name
  | [s] => exact noIncrement ⟨rfl, s, of_decide_eq_true sign, rfl⟩
  | s :: d :: text =>
      have inside : InsideAtom d := isWord.plain d (by simp)
      have delimiter : isDelimiter (some d) = true := ends
      rw [inside.noDelimiter] at delimiter
      cases delimiter

/-- A name that starts with a digit gets a letter in front. -/
theorem passes_digitName {c : Char} {text : List Char} (isWord : IsWord (c :: text))
    (digit : c.isDigit = true) (name : (c :: text).all Char.isDigit = false)
    (noIncrement : ¬(c = '1' ∧ ∃ sign ∈ ['+', '-'], text = [sign]))
    (renamed : ((c :: text).all isSymbolChar &&
      ((c :: text).any Char.isAlpha && (Number.floatLiteral? (c :: text)).isNone)) = true) :
    Passes (c :: text) ['n' :: '-' :: c :: text] := by
  have isDigitName : IsDigitName (c :: text) := by
    simp only [Bool.and_eq_true] at renamed
    exact .inr ⟨digit, renamed⟩
  have prefixed : IsWord ('n' :: '-' :: c :: text) :=
    isWord_of_isAlphanum (by decide) (List.forall_mem_cons.mpr ⟨by decide,
      List.forall_mem_cons.mpr ⟨by decide, isWord.plain⟩⟩)
  refine .single prefixed (ne_bracket_of_isDigit digit)
    fun prev more before follows behind offset => ?_
  have found := digitSymbol?_append isWord.plain prev follows
  rw [renamed, before (.inr isDigitName), behind isDigitName, List.cons_append] at found
  rw [expandToken_digit digit (ne_increment isWord name noIncrement prev more), found]
  refine Prod.ext (String.toList_injective ?_) rfl
  simp

/-- A word that starts with a digit is a numeral, the name of one of two functions, another name,
or copied up to the first literal in it. -/
theorem exists_passes_digit {c : Char} {text : List Char} (isWord : IsWord (c :: text))
    (digit : c.isDigit = true) : ∃ words, Passes (c :: text) words := by
  cases name : (c :: text).all Char.isDigit with
  | true => exact ⟨_, passes_digits isWord.nonempty (List.all_eq_true.mp name)⟩
  | false =>
      by_cases increment : c = '1' ∧ ∃ sign ∈ ['+', '-'], text = [sign]
      · obtain ⟨rfl, sign, signs, rfl⟩ := increment
        exact ⟨_, passes_increment signs⟩
      · cases renamed : (c :: text).all isSymbolChar &&
            ((c :: text).any Char.isAlpha && (Number.floatLiteral? (c :: text)).isNone) with
        | true => exact ⟨_, passes_digitName isWord digit name increment renamed⟩
        | false =>
            obtain ⟨front, words, inside⟩ := exists_passesInside text fun d member =>
              isWord.plain d (.tail _ member)
            refine ⟨_, inside.passes_digit isWord digit fun prev rest follows offset => ?_⟩
            have none := digitSymbol?_append isWord.plain prev follows
            rw [renamed, Bool.and_false, if_neg Bool.false_ne_true, List.cons_append] at none
            rw [expandToken_digit digit (ne_increment isWord name increment prev rest), none]

/-- A question mark and a character give way to the code of the character. -/
theorem passes_character {c : Char} (unescaped : c ≠ '\\') :
    Passes ['?', c] [Nat.toDigits 10 c.toNat] := by
  refine .single (isWord_toDigits _) (by decide) fun prev more before _ _ offset => ?_
  have literal : characterLiteral? ('?' :: c :: more) = some (c.toNat, 2) := by
    unfold characterLiteral?
    split
    next same =>
      cases same
      exact absurd rfl unescaped
    next same =>
      cases same
      rfl
    next other => exact absurd rfl (other '?' c more)
  rw [expandToken_other (by decide), if_neg fun both => absurd both.1 (by decide),
    if_neg fun both => absurd both.1 (by decide), if_pos ⟨rfl, before (.inl rfl)⟩,
    List.singleton_append, literal]
  rfl

/-- So does a question mark with a backslash and three octal digits. -/
theorem passes_octal {digits : List Char} {code : Nat} (three : digits.length = 3)
    (spells : Number.Spells 8 digits code) :
    Passes ('?' :: '\\' :: digits) [Nat.toDigits 10 code] := by
  refine .single (isWord_toDigits _) (by decide) fun prev more before _ _ offset => ?_
  obtain ⟨a, b, c, rfl⟩ := List.length_eq_three.mp three
  have octal : octalTriple? (a :: b :: c :: more) = some code :=
    (if_pos (List.all_eq_true.mpr spells.digits)).trans (congrArg some spells.value)
  have literal : characterLiteral? ('?' :: '\\' :: a :: b :: c :: more) = some (code, 5) := by
    simp only [characterLiteral?, octal]
  rw [expandToken_other (by decide), if_neg fun both => absurd both.1 (by decide),
    if_neg fun both => absurd both.1 (by decide), if_pos ⟨rfl, before (.inl rfl)⟩]
  simp only [List.cons_append, List.nil_append, literal]
  rfl

/-- A word without a number sign stays as it is. -/
theorem passes_word (isWord : IsWord token)
    (ordinary : token.head?.any (fun c => c.isDigit || c == '?') = false) (noNumber : '#' ∉ token) :
    Passes token [token] := by
  obtain ⟨front, words, inside⟩ := exists_passesInside token isWord.plain
  obtain ⟨rfl, rfl⟩ := inside.same noNumber
  exact inside.passes isWord ordinary

/-- A minus sign before digits stays. -/
theorem passes_negative {digits : List Char} (all : ∀ c ∈ digits, c.isDigit = true) :
    Passes ('-' :: digits) ['-' :: digits] := by
  have isWord : IsWord ('-' :: digits) :=
    { nonempty := List.cons_ne_nil _ _
      plain := List.forall_mem_cons.mpr
        ⟨by decide, fun c member => insideAtom_of_isDigit (all c member)⟩
      not_dot := fun single => absurd (List.cons.inj single).1 (by decide)
      no_comment := fun starts => absurd (List.cons_prefix_cons.mp starts).1 (by decide) }
  refine passes_word isWord rfl fun number => ?_
  cases number with
  | tail _ member => exact absurd (all '#' member) (by decide)

/-- A literal in a radix gives way to its number. -/
theorem passes_radixLiteral {text : List Char} {value : Int64} {n : Nat}
    (plain : ∀ c ∈ text, InsideAtom c)
    (found : radixLiteral? ('#' :: text) = some (value, ('#' :: text).length))
    (natural : value.toInt = n) : Passes ('#' :: text) [Nat.toDigits 10 n] := by
  refine .single (isWord_toDigits n) (by decide) fun prev more _ follows _ offset => ?_
  have token := expandToken_literal plain found follows prev offset
  rw [List.drop_length] at token
  rw [token]
  refine Prod.ext (String.toList_injective ?_) rfl
  have numeral : (toString value.toInt).toList = Nat.toDigits 10 n := by
    rw [Number.toList_toString, natural, Number.numeral_natCast]
  rw [String.toList_append, numeral]
  simp

end Passes

end EditorLisp.Source
