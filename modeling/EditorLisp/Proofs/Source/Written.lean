import EditorLisp.Source.Reader
import EditorLisp.Proofs.Number.Numeral

/-!
# Texts that stand for data

`Written d text` says that a text is one of the ways in which a datum is written: a word, a
string in quotes, a form behind a quoting mark, or a list, dotted or not, with one blank
between its elements.  The reader makes the datum of every such text and stops right after
it.  The printer is known to write such texts, so the two meet here.

The reader counts down at most twice for each character, which is why twice the length of
the text is enough for it.
-/

namespace EditorLisp.Source

open EditorLisp.Text

/-! ## Words and strings -/

/-- A word that the reader takes for one atom: no character in it ends an atom or quotes
another one, it is no lone dot, and it does not start a comment. -/
structure IsWord (word : List Char) : Prop where
  nonempty : word ≠ []
  plain : ∀ c ∈ word, endsAtom c = false ∧ c ≠ '\\'
  not_dot : word ≠ ['.']
  no_comment : ¬['#', '|'] <+: word

/-- A character as it stands inside a string. -/
def quotedChar (c : Char) : List Char :=
  if c = '"' then ['\\', '"'] else if c = '\\' then ['\\', '\\'] else [c]

/-- The characters of a text as they stand inside a string. -/
def quotedChars (text : List Char) : List Char := text.flatMap quotedChar

/-- A string in quotes. -/
def quotedText (text : List Char) : List Char := '"' :: (quotedChars text ++ ['"'])

/-! ## The grammar -/

mutual

/-- The texts that stand for a datum. -/
inductive Written : Datum → List Char → Prop where
  | word {word : List Char} : IsWord word → Written (atomDatum word) word
  | str (text : String) : Written (.str text) (quotedText text.toList)
  | quote {d : Datum} {text : List Char} :
      Written d text → Written (.ofList [.symbol "quote", d]) ('\'' :: text)
  | function {d : Datum} {text : List Char} :
      Written d text → Written (.ofList [.symbol "function", d]) ('#' :: '\'' :: text)
  | list {car cdr : Datum} {text rest : List Char} :
      Written car text → WrittenRest cdr rest → Written (.cons car cdr) ('(' :: (text ++ rest))

/-- The texts that stand for the rest of a list, its closing parenthesis included. -/
inductive WrittenRest : Datum → List Char → Prop where
  | close : WrittenRest .nil [')']
  | next {car cdr : Datum} {text rest : List Char} :
      Written car text → WrittenRest cdr rest → WrittenRest (.cons car cdr) (' ' :: (text ++ rest))
  | dotted {d : Datum} {text : List Char} :
      Written d text → WrittenRest d (' ' :: '.' :: ' ' :: (text ++ [')']))

end

/-- What follows a form inside a text: nothing, a blank or a closing parenthesis. -/
def Follows (rest : List Char) : Prop := ∀ c ∈ rest.head?, isBlank c = true ∨ c = ')'

theorem follows_nil : Follows [] := fun _ member => nomatch member

theorem follows_cons {c : Char} (blank : isBlank c = true) (rest : List Char) :
    Follows (c :: rest) :=
  fun _ member => .inl (Option.some.inj member ▸ blank)

theorem follows_blank (rest : List Char) : Follows (' ' :: rest) := follows_cons rfl rest

theorem follows_close (rest : List Char) : Follows (')' :: rest) :=
  fun _ member => .inr (Option.some.inj member).symm

theorem WrittenRest.follows {d : Datum} {text : List Char} (written : WrittenRest d text)
    (rest : List Char) : Follows (text ++ rest) := by
  cases written with
  | close => exact follows_close _
  | next _ _ => exact follows_blank _
  | dotted _ => exact follows_blank _

/-! ## Where a form starts -/

/-- A text at whose front a form starts: there is nothing to skip, no list ends, and a dot
there does not separate a tail. -/
def StartsForm : List Char → Prop
  | [] => False
  | c :: next =>
    isBlank c = false ∧ c ≠ ';' ∧ c ≠ ')' ∧ ¬(c = '#' ∧ next.head? = some '|') ∧
      ¬(c = '.' ∧ isDotSeparator next.head? = true)

theorem startsForm_of_mark {c : Char} {next : List Char} (mark : c ∈ ['(', '"', '\'']) :
    StartsForm (c :: next) := by
  simp only [List.mem_cons, List.not_mem_nil, or_false] at mark
  rcases mark with rfl | rfl | rfl
  all_goals
    refine ⟨by decide, by decide, by decide, ?_, ?_⟩
    · rintro ⟨h, -⟩
      exact absurd h (by decide)
    · rintro ⟨h, -⟩
      exact absurd h (by decide)

/-- Whether the characters may stand in a word can be computed. -/
theorem plain_of_all {word : List Char}
    (all : (word.all fun c => !endsAtom c && c != '\\') = true) :
    ∀ c ∈ word, endsAtom c = false ∧ c ≠ '\\' := by
  intro c member
  have plain := List.all_eq_true.mp all c member
  rw [Bool.and_eq_true, Bool.not_eq_true', bne_iff_ne] at plain
  exact plain

/-- A character inside a word is neither blank nor punctuation. -/
theorem IsWord.inside {word : List Char} (isWord : IsWord word) {c : Char} (member : c ∈ word) :
    isBlank c = false ∧ c ∉ ['(', ')', '[', ']', '\'', '`', ',', '"', ';'] ∧ c ≠ '\\' := by
  obtain ⟨inside, unquoted⟩ := isWord.plain c member
  unfold endsAtom at inside
  rw [Bool.or_eq_false_iff] at inside
  exact ⟨inside.1, of_decide_eq_false inside.2, unquoted⟩

theorem IsWord.startsForm {word : List Char} (isWord : IsWord word) {rest : List Char}
    (follows : Follows rest) : StartsForm (word ++ rest) := by
  cases word with
  | nil => exact absurd rfl isWord.nonempty
  | cons c next =>
      obtain ⟨visible, unmarked, -⟩ := isWord.inside (List.mem_cons_self (a := c))
      refine ⟨visible, ?_, ?_, ?_, ?_⟩
      · rintro rfl
        exact unmarked (by decide)
      · rintro rfl
        exact unmarked (by decide)
      · rintro ⟨rfl, bar⟩
        cases next with
        | nil => exact absurd (follows _ bar) (by decide)
        | cons d next =>
            cases Option.some.inj bar
            exact isWord.no_comment ⟨next, rfl⟩
      · rintro ⟨rfl, separates⟩
        cases next with
        | nil => exact isWord.not_dot rfl
        | cons d next =>
            have member : d ∈ '.' :: d :: next := List.mem_cons_of_mem _ List.mem_cons_self
            obtain ⟨visible, unmarked, -⟩ := isWord.inside member
            have marked : (isBlank d || d == ')' || d == '(' || d == ';') = true := separates
            simp only [visible, Bool.false_or, Bool.or_eq_true, beq_iff_eq] at marked
            refine unmarked ?_
            rcases marked with (rfl | rfl) | rfl
            all_goals decide

theorem Written.startsForm {d : Datum} {text rest : List Char} (written : Written d text)
    (follows : Follows rest) : StartsForm (text ++ rest) := by
  cases written with
  | word isWord => exact isWord.startsForm follows
  | str text => exact startsForm_of_mark (by decide)
  | quote inner => exact startsForm_of_mark (by decide)
  | function inner =>
      refine ⟨by decide, by decide, by decide, ?_, ?_⟩
      · rintro ⟨-, h⟩
        exact absurd (Option.some.inj h) (by decide)
      · rintro ⟨h, -⟩
        exact absurd h (by decide)
  | list car cdr => exact startsForm_of_mark (by decide)

/-! ## Skipping -/

namespace Cursor

variable {c : Char} {rest : List Char}

-- The marks of comments overlap with characters that have no meaning of their own.  What is done at
-- such a character is therefore stated for itself.

theorem skipFrom_blanks_cons (offset : Nat) (noLine : c ≠ ';')
    (noBlock : ∀ more, c = '#' → rest ≠ '|' :: more) :
    skipFrom .blanks offset (c :: rest) =
      if isBlank c then skipFrom .blanks (offset + c.utf8Size) rest
      else (⟨c :: rest, offset⟩, true) := by
  rw [skipFrom.eq_def]
  split
  case h_2 same =>
    cases same
    exact absurd rfl noLine
  case h_3 same =>
    cases same
    exact absurd rfl (noBlock _ rfl)
  case h_4 same =>
    cases same
    rfl
  all_goals contradiction

theorem skipFrom_line_cons (offset : Nat) (c : Char) (rest : List Char) :
    skipFrom .line offset (c :: rest) =
      skipFrom (if c = '\n' then .blanks else .line) (offset + c.utf8Size) rest := by
  rw [skipFrom.eq_def]
  split
  case h_5 same =>
    cases same
    rfl
  all_goals contradiction

theorem skipFrom_block_cons (depth offset : Nat)
    (noOpening : ∀ more, c = '#' → rest ≠ '|' :: more)
    (noClosing : ∀ more, c = '|' → rest ≠ '#' :: more) :
    skipFrom (.block depth) offset (c :: rest) =
      skipFrom (.block depth) (offset + c.utf8Size) rest := by
  rw [skipFrom.eq_def]
  split
  case h_6 same =>
    cases same
    exact absurd rfl (noOpening _ rfl)
  case h_7 same =>
    cases same
    exact absurd rfl (noClosing _ rfl)
  case h_8 kind same =>
    cases kind
    cases same
    rfl
  all_goals contradiction

end Cursor

namespace StartsForm

variable {text : List Char}

/-- Where a form starts there is nothing to skip. -/
theorem skip (starts : StartsForm text) (offset : Nat) :
    Cursor.skip ⟨text, offset⟩ = (⟨text, offset⟩, true) := by
  cases text with
  | nil => exact starts.elim
  | cons c next =>
      obtain ⟨visible, no_line, -, no_block, -⟩ := starts
      have noBlock : ∀ more, c = '#' → next ≠ '|' :: more := by
        rintro more rfl rfl
        exact no_block ⟨rfl, rfl⟩
      show Cursor.skipFrom .blanks offset (c :: next) = _
      rw [Cursor.skipFrom_blanks_cons offset no_line noBlock, visible]
      rfl

/-- A blank before it is skipped. -/
theorem skip_blank (starts : StartsForm text) (offset : Nat) :
    Cursor.skip ⟨' ' :: text, offset⟩ = (⟨text, offset + 1⟩, true) :=
  starts.skip (offset + 1)

end StartsForm

/-! ## Reading words and strings -/

theorem atomText_cons {c : Char} (unquoted : c ≠ '\\') (rest : List Char) (offset : Nat)
    (out : List Char) (escaped : Bool) :
    atomText (c :: rest) offset out escaped =
      if endsAtom c then (out.reverse, escaped, ⟨c :: rest, offset⟩)
      else atomText rest (offset + c.utf8Size) (c :: out) escaped := by
  rw [atomText.eq_def]
  split
  next h => cases h
  next h => cases h; exact absurd rfl unquoted
  next h => cases h; exact absurd rfl unquoted
  next h => cases h; rfl

/-- An atom without a backslash is read up to what ends it. -/
theorem atomText_unquoted {text : List Char}
    (unquoted : '\\' ∉ text.takeWhile fun c => !endsAtom c) (offset : Nat) (out : List Char) :
    ∃ offset', atomText text offset out false =
      (out.reverse ++ text.takeWhile (fun c => !endsAtom c), false,
        ⟨text.dropWhile fun c => !endsAtom c, offset'⟩) := by
  induction text generalizing offset out with
  | nil =>
      refine ⟨offset, ?_⟩
      rw [List.takeWhile_nil, List.append_nil]
      rfl
  | cons c text ih =>
      cases ends : endsAtom c with
      | true =>
          have noBackslash : c ≠ '\\' := by
            rintro rfl
            cases ends
          refine ⟨offset, ?_⟩
          rw [atomText_cons noBackslash, if_pos ends, List.takeWhile_cons_of_neg (by simp [ends]),
            List.dropWhile_cons_of_neg (by simp [ends]), List.append_nil]
      | false =>
          rw [List.takeWhile_cons_of_pos (by simp [ends])] at unquoted ⊢
          rw [List.mem_cons, not_or] at unquoted
          obtain ⟨offset', read⟩ := ih unquoted.2 (offset + c.utf8Size) (c :: out)
          refine ⟨offset', ?_⟩
          rw [atomText_cons (Ne.symm unquoted.1), ends, if_neg Bool.false_ne_true, read,
            List.dropWhile_cons_of_pos (by simp [ends]), List.reverse_cons, List.append_assoc]
          rfl

/-- A word is taken whole, up to what follows it. -/
theorem atomText_append {word rest : List Char}
    (plain : ∀ c ∈ word, endsAtom c = false ∧ c ≠ '\\') (follows : Follows rest) (offset : Nat)
    (out : List Char) :
    ∃ offset', atomText (word ++ rest) offset out false =
      (out.reverse ++ word, false, ⟨rest, offset'⟩) := by
  have ends : rest.takeWhile (fun c => !endsAtom c) = [] ∧
      rest.dropWhile (fun c => !endsAtom c) = rest := by
    cases rest with
    | nil => exact ⟨rfl, rfl⟩
    | cons c rest =>
        have stops : endsAtom c = true := by
          rcases follows c rfl with blank | rfl
          · rw [endsAtom, blank, Bool.true_or]
          · rfl
        exact ⟨List.takeWhile_cons_of_neg (by simp [stops]),
          List.dropWhile_cons_of_neg (by simp [stops])⟩
  have inside : ∀ c ∈ word, (!endsAtom c) = true := fun c member => by
    rw [(plain c member).1]
    rfl
  have word_eq : (word ++ rest).takeWhile (fun c => !endsAtom c) = word := by
    rw [List.takeWhile_append_of_pos inside, ends.1, List.append_nil]
  have rest_eq : (word ++ rest).dropWhile (fun c => !endsAtom c) = rest := by
    rw [List.dropWhile_append_of_pos inside, ends.2]
  have unquoted : '\\' ∉ (word ++ rest).takeWhile fun c => !endsAtom c := by
    rw [word_eq]
    exact fun member => (plain _ member).2 rfl
  obtain ⟨offset', read⟩ := atomText_unquoted unquoted offset out
  rw [word_eq, rest_eq] at read
  exact ⟨offset', read⟩

theorem readAtom_word {word rest : List Char} (isWord : IsWord word) (follows : Follows rest)
    (offset : Nat) :
    ∃ offset', readAtom ⟨word ++ rest, offset⟩ = .ok (atomDatum word, ⟨rest, offset'⟩) := by
  obtain ⟨offset', read⟩ := atomText_append isWord.plain follows offset []
  refine ⟨offset', ?_⟩
  unfold readAtom
  simp only [read]
  cases word with
  | nil => exact absurd rfl isWord.nonempty
  | cons c word => rfl

theorem length_le_quotedChars (text : List Char) : text.length ≤ (quotedChars text).length := by
  induction text with
  | nil => exact Nat.le_refl _
  | cons c text ih =>
      have one : 1 ≤ (quotedChar c).length := by
        unfold quotedChar
        split
        · decide
        · split
          · decide
          · exact Nat.le_refl 1
      have split_eq : quotedChars (c :: text) = quotedChar c ++ quotedChars text := rfl
      rw [split_eq, List.length_append, List.length_cons]
      omega

theorem readString_cons {c : Char} (unquoted : c ≠ '"') (unescaped : c ≠ '\\')
    (rest : List Char) (fuel offset : Nat) (out : String) :
    readString (fuel + 1) ⟨c :: rest, offset⟩ out =
      readString fuel ⟨rest, offset + c.utf8Size⟩ (out.push c) := by
  rw [readString.eq_def]
  simp only
  split
  next h => cases h
  next h => cases h; exact absurd rfl unquoted
  next h => cases h; exact absurd rfl unescaped
  next h => cases h; exact absurd rfl unescaped
  next h => cases h; exact absurd rfl unescaped
  next h => cases h; rfl

/-- The text of a string is read back up to its closing quote. -/
theorem readString_quotedChars (text rest : List Char) {fuel : Nat} (enough : text.length < fuel)
    (offset : Nat) (out : String) :
    ∃ offset', readString fuel ⟨quotedChars text ++ '"' :: rest, offset⟩ out =
      .ok (.str (out ++ String.ofList text), ⟨rest, offset'⟩) := by
  induction text generalizing fuel offset out with
  | nil =>
      cases fuel with
      | zero => exact absurd enough (Nat.not_lt_zero _)
      | succ fuel =>
          refine ⟨offset + 1, ?_⟩
          rw [String.ofList_nil, String.append_empty]
          rfl
  | cons c text ih =>
      cases fuel with
      | zero => exact absurd enough (Nat.not_lt_zero _)
      | succ fuel =>
          have enough' : text.length < fuel := Nat.lt_of_succ_lt_succ enough
          have pushed : out ++ String.ofList (c :: text) = out.push c ++ String.ofList text := by
            apply String.toList_injective
            simp
          have first : quotedChars (c :: text) ++ '"' :: rest =
              quotedChar c ++ (quotedChars text ++ '"' :: rest) := by
            simp [quotedChars]
          rw [pushed, first]
          unfold quotedChar
          split
          next quote =>
            subst quote
            obtain ⟨offset', read⟩ := ih enough' (offset + 1 + 1) (out.push '"')
            exact ⟨offset', read⟩
          next =>
            split
            next backslash =>
              subst backslash
              obtain ⟨offset', read⟩ := ih enough' (offset + 1 + 1) (out.push '\\')
              exact ⟨offset', read⟩
            next unquoted unescaped =>
              obtain ⟨offset', read⟩ := ih enough' (offset + c.utf8Size) (out.push c)
              refine ⟨offset', ?_⟩
              rw [← read]
              exact readString_cons unquoted unescaped _ fuel offset out

/-! ## Reading forms and lists -/

theorem readForm_blank {text : List Char} (starts : StartsForm text) (fuel offset : Nat) :
    readForm (fuel + 1) ⟨' ' :: text, offset⟩ = readForm (fuel + 1) ⟨text, offset + 1⟩ := by
  rw [readForm.eq_def, readForm.eq_def]
  simp only [starts.skip, starts.skip_blank]

/-- A form that starts with no mark is an atom. -/
theorem readForm_atom {c : Char} {rest : List Char} (starts : StartsForm (c :: rest))
    (unmarked : c ∉ ['(', ')', '[', ']', '\'', '`', ',', '"', ';'])
    (noFunction : ¬(c = '#' ∧ rest.head? = some '\'')) (fuel offset : Nat) :
    readForm (fuel + 1) ⟨c :: rest, offset⟩ = readAtom ⟨c :: rest, offset⟩ := by
  rw [readForm.eq_def]
  simp only [starts.skip]
  split
  next h => cases h
  next h => cases h; exact absurd unmarked (by decide)
  next h => cases h; exact absurd unmarked (by decide)
  next h => cases h; exact absurd unmarked (by decide)
  next h => cases h; exact absurd unmarked (by decide)
  next h => cases h; exact absurd unmarked (by decide)
  next h => cases h; exact absurd unmarked (by decide)
  next h => cases h; exact absurd unmarked (by decide)
  next h => cases h; exact absurd ⟨rfl, rfl⟩ noFunction
  next => rfl

theorem readForm_word {word rest : List Char} (isWord : IsWord word) (follows : Follows rest)
    (fuel offset : Nat) :
    readForm (fuel + 1) ⟨word ++ rest, offset⟩ = readAtom ⟨word ++ rest, offset⟩ := by
  have starts := isWord.startsForm follows
  cases word with
  | nil => exact absurd rfl isWord.nonempty
  | cons c next =>
      obtain ⟨-, unmarked, -⟩ := isWord.inside (List.mem_cons_self (a := c))
      refine readForm_atom starts unmarked ?_ fuel offset
      rintro ⟨-, quote⟩
      cases next with
      | nil => exact absurd (follows _ quote) (by decide)
      | cons d next =>
          cases Option.some.inj quote
          have member : '\'' ∈ c :: '\'' :: next := List.mem_cons_of_mem _ List.mem_cons_self
          exact (isWord.inside member).2.1 (by decide)

/-- A string in quotes is read up to its closing quote. -/
theorem readForm_quotedText (text : String) {fuel : Nat}
    (enough : 2 * (quotedText text.toList).length ≤ fuel) (offset : Nat) (rest : List Char) :
    ∃ offset', readForm fuel ⟨quotedText text.toList ++ rest, offset⟩ =
      .ok (.str text, ⟨rest, offset'⟩) := by
  have long : (quotedText text.toList).length = (quotedChars text.toList).length + 2 := by
    simp [quotedText]
  have covers := length_le_quotedChars text.toList
  obtain ⟨fuel, rfl⟩ : ∃ n, fuel = n + 1 := ⟨fuel - 1, by omega⟩
  have covered : text.toList.length < fuel := by omega
  obtain ⟨offset', read⟩ := readString_quotedChars text.toList rest covered (offset + 1) ""
  refine ⟨offset', ?_⟩
  have starts : StartsForm (quotedText text.toList ++ rest) := startsForm_of_mark (by decide)
  rw [readForm.eq_def]
  simp only [starts.skip]
  show readString fuel ⟨quotedChars text.toList ++ ['"'] ++ rest, offset + 1⟩ "" = _
  rw [List.append_assoc, List.singleton_append, read, String.empty_append, String.ofList_toList]

/-- The form after a quotation mark is the second element of a list. -/
theorem readMarked_of_readForm {c after : Cursor} {d : Datum} {fuel : Nat}
    (read : readForm fuel c = .ok (d, after)) (name : String) :
    readMarked (fuel + 1) c name = .ok (.ofList [.symbol name, d], after) := by
  rw [readMarked, read]

theorem readForm_quote {text : List Char} {offset fuel : Nat} {d : Datum} {after : Cursor}
    (starts : StartsForm ('\'' :: text)) (read : readForm fuel ⟨text, offset + 1⟩ = .ok (d, after)) :
    readForm (fuel + 2) ⟨'\'' :: text, offset⟩ = .ok (.ofList [.symbol "quote", d], after) := by
  rw [readForm.eq_def]
  simp only [starts.skip]
  exact readMarked_of_readForm read "quote"

theorem readForm_function {text : List Char} {offset fuel : Nat} {d : Datum} {after : Cursor}
    (starts : StartsForm ('#' :: '\'' :: text))
    (read : readForm fuel ⟨text, offset + 2⟩ = .ok (d, after)) :
    readForm (fuel + 2) ⟨'#' :: '\'' :: text, offset⟩ =
      .ok (.ofList [.symbol "function", d], after) := by
  rw [readForm.eq_def]
  simp only [starts.skip]
  exact readMarked_of_readForm read "function"

/-- The elements of a list are read after its opening parenthesis. -/
theorem readForm_open {text : List Char} {offset fuel : Nat} {d : Datum} {after : Cursor}
    (starts : StartsForm ('(' :: text))
    (read : readItems fuel ⟨text, offset + 1⟩ [] = .ok (d, after)) :
    readForm (fuel + 1) ⟨'(' :: text, offset⟩ = .ok (d, after) := by
  rw [readForm.eq_def]
  simp only [starts.skip]
  exact read

/-- An element of a list is read and the rest of the list after it. -/
theorem readItems_item {c : Cursor} {text : List Char} {offset fuel : Nat} {item : Datum}
    {after : Cursor} (items : List Datum) (skipped : c.skip.1 = ⟨text, offset⟩)
    (starts : StartsForm text) (read : readForm fuel ⟨text, offset⟩ = .ok (item, after)) :
    readItems (fuel + 1) c items = readItems fuel after (item :: items) := by
  cases text with
  | nil => exact starts.elim
  | cons ch next =>
      obtain ⟨-, -, no_close, -, no_dot⟩ := starts
      have not_dotted : ¬(ch = '.' ∧ isDotSeparator next.head? = true ∧ (!items.isEmpty) = true) :=
        fun dotted => no_dot ⟨dotted.1, dotted.2.1⟩
      rw [readItems.eq_2]
      simp only [skipped, if_neg not_dotted, read]

/-- The tail of a list is read and the list closed after it. -/
theorem readItems_dotted {c : Cursor} {next rest : List Char} {offset between fuel : Nat}
    {tail : Datum} {items : List Datum} (skipped : c.skip.1 = ⟨'.' :: next, offset⟩)
    (separates : isDotSeparator next.head? = true) (nonempty : items ≠ [])
    (read : readForm fuel ⟨next, offset + 1⟩ = .ok (tail, ⟨')' :: rest, between⟩)) :
    readItems (fuel + 1) c items = .ok (.listWithTail items.reverse tail, ⟨rest, between + 1⟩) := by
  have bumped : Cursor.bump ⟨'.' :: next, offset⟩ = ⟨next, offset + 1⟩ := rfl
  have dotted : '.' = '.' ∧ isDotSeparator next.head? = true ∧ (!items.isEmpty) = true := by
    rw [List.isEmpty_eq_false_iff.mpr nonempty]
    exact ⟨rfl, separates, rfl⟩
  rw [readItems.eq_2]
  simp only [skipped, bumped, read]
  exact if_pos dotted

mutual

/-- The reader makes the datum of a text that stands for it, and stops right after it. -/
theorem readForm_written {d : Datum} {text : List Char} (written : Written d text)
    {fuel : Nat} (enough : 2 * text.length ≤ fuel) (offset : Nat) {rest : List Char}
    (follows : Follows rest) :
    ∃ offset', readForm fuel ⟨text ++ rest, offset⟩ = .ok (d, ⟨rest, offset'⟩) := by
  cases written with
  | word isWord =>
      have long : text.length ≠ 0 := fun h => isWord.nonempty (List.length_eq_zero_iff.mp h)
      obtain ⟨fuel, rfl⟩ : ∃ n, fuel = n + 1 := ⟨fuel - 1, by omega⟩
      rw [readForm_word isWord follows]
      exact readAtom_word isWord follows offset
  | str text => exact readForm_quotedText text enough offset rest
  | quote inner =>
      rename_i d text
      rw [List.length_cons] at enough
      obtain ⟨fuel, rfl⟩ : ∃ n, fuel = n + 2 := ⟨fuel - 2, by omega⟩
      have inside : 2 * text.length ≤ fuel := by omega
      obtain ⟨offset', read⟩ := readForm_written inner inside (offset + 1) follows
      exact ⟨offset', readForm_quote ((Written.quote inner).startsForm follows) read⟩
  | function inner =>
      rename_i d text
      rw [List.length_cons, List.length_cons] at enough
      obtain ⟨fuel, rfl⟩ : ∃ n, fuel = n + 2 := ⟨fuel - 2, by omega⟩
      have inside : 2 * text.length ≤ fuel := by omega
      obtain ⟨offset', read⟩ := readForm_written inner inside (offset + 2) follows
      exact ⟨offset', readForm_function ((Written.function inner).startsForm follows) read⟩
  | list car cdr =>
      rename_i a b text more
      rw [List.length_cons, List.length_append] at enough
      obtain ⟨fuel, rfl⟩ : ∃ n, fuel = n + 2 := ⟨fuel - 2, by omega⟩
      have first : 2 * text.length ≤ fuel := by omega
      have others : 2 * more.length ≤ fuel := by omega
      obtain ⟨between, read⟩ := readForm_written car first (offset + 1) (cdr.follows rest)
      obtain ⟨offset', closed⟩ := readItems_written cdr others between rest
        (List.cons_ne_nil a [])
      refine ⟨offset', readForm_open ((Written.list car cdr).startsForm follows) ?_⟩
      have starts := car.startsForm (cdr.follows rest)
      show readItems (fuel + 1) ⟨text ++ more ++ rest, offset + 1⟩ [] = _
      rw [List.append_assoc, readItems_item [] (by rw [starts.skip]) starts read, closed]
      rfl
termination_by text.length
decreasing_by
  all_goals
    subst_vars
    show List.length _ < List.length _
    simp only [List.length_cons, List.length_append]
    omega

/-- The reader ends a list at the closing parenthesis of a text that stands for the rest of
it. -/
theorem readItems_written {d : Datum} {text : List Char} (written : WrittenRest d text)
    {fuel : Nat} (enough : 2 * text.length ≤ fuel) (offset : Nat) (rest : List Char)
    {items : List Datum} (nonempty : items ≠ []) :
    ∃ offset', readItems fuel ⟨text ++ rest, offset⟩ items =
      .ok (.listWithTail items.reverse d, ⟨rest, offset'⟩) := by
  cases written with
  | close =>
      obtain ⟨fuel, rfl⟩ : ∃ n, fuel = n + 1 := ⟨fuel - 1, by simp at enough; omega⟩
      refine ⟨offset + 1, ?_⟩
      rw [readItems.eq_2]
      rfl
  | next car cdr =>
      rename_i a b text more
      rw [List.length_cons, List.length_append] at enough
      obtain ⟨fuel, rfl⟩ : ∃ n, fuel = n + 1 := ⟨fuel - 1, by omega⟩
      have first : 2 * text.length ≤ fuel := by omega
      have others : 2 * more.length ≤ fuel := by omega
      obtain ⟨between, read⟩ := readForm_written car first (offset + 1) (cdr.follows rest)
      obtain ⟨offset', closed⟩ := readItems_written cdr others between rest
        (List.cons_ne_nil a items)
      refine ⟨offset', ?_⟩
      have starts := car.startsForm (cdr.follows rest)
      rw [List.cons_append, List.append_assoc,
        readItems_item items (by rw [starts.skip_blank]) starts read, closed]
      simp [Datum.listWithTail]
  | dotted inner =>
      rename_i text
      simp only [List.length_cons, List.length_append, List.length_nil] at enough
      obtain ⟨fuel, rfl⟩ : ∃ n, fuel = n + 2 := ⟨fuel - 2, by omega⟩
      have inside : 2 * text.length ≤ fuel + 1 := by omega
      obtain ⟨between, read⟩ :=
        readForm_written inner inside (offset + 3) (follows_close rest)
      have starts := inner.startsForm (follows_close rest)
      refine ⟨between + 1, ?_⟩
      have whole : ' ' :: '.' :: ' ' :: (text ++ [')']) ++ rest =
          ' ' :: '.' :: ' ' :: (text ++ ')' :: rest) := by
        simp
      have separates : isDotSeparator (some ' ') = true := by decide
      rw [whole]
      exact readItems_dotted rfl separates nonempty ((readForm_blank starts ..).trans read)
termination_by text.length
decreasing_by
  all_goals
    subst_vars
    show List.length _ < List.length _
    simp only [List.length_cons, List.length_append]
    omega

end

/-! ## Reading a whole text -/

/-- A text that stands for a datum is read as this datum and nothing else. -/
theorem readExpanded_written {d : Datum} {text : String} (written : Written d text.toList) :
    readExpanded text = .ok [d] := by
  have starts := written.startsForm follows_nil
  have enough : 2 * text.toList.length ≤ 2 * (text.toList ++ []).length + 2 := by
    rw [List.append_nil]
    omega
  obtain ⟨offset', read⟩ := readForm_written written enough 0 follows_nil
  have first : Cursor.readForm ⟨text.toList, 0⟩ = .ok (d, ⟨[], offset'⟩) := by
    rw [List.append_nil] at read
    exact read
  rw [List.append_nil] at starts
  unfold readExpanded Cursor.ofString
  rw [readAllFrom]
  simp only [starts.skip, first]
  cases text.length with
  | zero => rfl
  | succ n => rfl

end EditorLisp.Source
