import EditorLisp.Proofs.Source.Written

/-!
# Text that expansion leaves alone

Expansion looks at a text character by character and at what stands around each of them.
`Expands` says what is written for a text that comes after some character, token by token, and
`Plain` that every character of it is copied.

Most characters are copied wherever they stand.  A digit is copied inside a word and in a
numeral, and an opening parenthesis unless a call follows whose head has another name inside
the runtime.
-/

namespace EditorLisp.Source

open EditorLisp.Text

/-! ## Expanded texts -/

/-- What the pass writes for a text that comes after some character: the texts of its tokens, all of
which leave the pass in code and none of which is a bracket. -/
inductive Expands : Option Char → List Char → List Char → Prop where
  | nil (prev : Option Char) : Expands prev [] []
  | token {prev : Option Char} {c : Char} {rest out : List Char} {written : String} {used : Nat} :
      (∀ offset, expandToken offset prev (c :: rest) = (written, used, .code)) → 0 < used →
        c ≠ '[' → c ≠ ']' →
          Expands (lastOf used (c :: rest)) ((c :: rest).drop used) out →
            Expands prev (c :: rest) (written.toList ++ out)

theorem expandFrom_nil (fuel : Nat) (scan : Scan) : expandFrom fuel scan [] = .ok scan := by
  cases fuel <;> rfl

/-- The pass writes what the tokens become and stays in code. -/
theorem expandFrom_expands {prev : Option Char} {text out : List Char}
    (expands : Expands prev text out) (scan : Scan) (after : scan.prev = prev)
    (code : scan.mode = .code) (closed : scan.openBrackets = []) {fuel : Nat}
    (enough : text.length ≤ fuel) :
    ∃ final, expandFrom fuel scan text = .ok final ∧ final.mode = .code ∧
      final.openBrackets = [] ∧ final.out = scan.out ++ String.ofList out := by
  induction expands generalizing scan fuel with
  | nil => exact ⟨scan, expandFrom_nil fuel scan, code, closed, by simp⟩
  | @token prev c rest out written used token positive noOpen noClose _ ih =>
      obtain ⟨fuel, rfl⟩ : ∃ n, fuel = n + 1 := ⟨fuel - 1, by simp at enough; omega⟩
      have shorter : ((c :: rest).drop used).length ≤ fuel := by
        rw [List.length_drop]
        omega
      obtain ⟨final, run, mode, brackets, final_out⟩ :=
        ih { mode := .code, prev := lastOf used (c :: rest), offset := scan.offset + used,
             openBrackets := [], out := scan.out ++ written } rfl rfl rfl shorter
      refine ⟨final, ?_, mode, brackets, ?_⟩
      · rw [expandFrom]
        simp only [code, noClose, false_and, if_false, after, token, noOpen, closed]
        exact run
      · rw [final_out]
        apply String.toList_injective
        simp

theorem expand_expands {text out : List Char} (expands : Expands none text out) :
    expand (String.ofList text) = .ok (String.ofList out) := by
  rw [← String.toList_ofList (l := text)] at expands
  obtain ⟨final, run, mode, brackets, final_out⟩ :=
    expandFrom_expands expands {} rfl rfl rfl (Nat.le_refl _)
  unfold expand
  simp only [run, bind, Except.bind, mode, brackets]
  rw [final_out]
  exact congrArg Except.ok String.empty_append

/-- A character that is copied. -/
theorem Expands.copy {prev : Option Char} {c : Char} {rest out : List Char}
    (copied : ∀ offset, expandToken offset prev (c :: rest) = (c.toString, 1, .code))
    (noOpen : c ≠ '[') (noClose : c ≠ ']') (after : Expands (some c) rest out) :
    Expands prev (c :: rest) (c :: out) := by
  have single : c.toString.toList ++ out = c :: out := by simp
  exact single ▸ .token copied Nat.one_pos noOpen noClose after

/-! ## Copied texts -/

/-- A text that is copied when it comes after some character. -/
inductive Plain : Option Char → List Char → Prop where
  | nil (prev : Option Char) : Plain prev []
  | cons {prev : Option Char} {c : Char} {rest : List Char} :
      (∀ offset, expandToken offset prev (c :: rest) = (c.toString, 1, .code)) →
        c ≠ '[' → c ≠ ']' → Plain (some c) rest → Plain prev (c :: rest)

theorem Plain.expands {prev : Option Char} {text : List Char} (plain : Plain prev text) :
    Expands prev text text := by
  induction plain with
  | nil prev => exact .nil prev
  | cons copied noOpen noClose _ ih => exact .copy copied noOpen noClose ih

theorem expand_plain {text : String} (plain : Plain none text.toList) : expand text = .ok text := by
  have copied := expand_expands plain.expands
  rwa [String.ofList_toList] at copied

/-- A plain text is read as it is. -/
theorem readSource_plain {text : String} (plain : Plain none text.toList) :
    readSource text = readExpanded text := by
  unfold readSource
  rw [expand_plain plain]
  rfl

/-! ## Copied characters -/

/-- Characters that start a token of their own wherever they stand. -/
def heads : List Char := [';', '"', '#', '[', ']', '(']

/-- What becomes of a character that starts no token of its own. -/
theorem expandToken_other {c : Char} (other : c ∉ heads) (offset : Nat) (prev : Option Char)
    (rest : List Char) :
    expandToken offset prev (c :: rest) =
      if c = '\\' ∧ rest.head?.any (· ∈ ['?', '.', ',', '!']) then
        ("\"" ++ String.ofList (rest.take 1) ++ "\"", 2, .code)
      else if c = '1' ∧ rest.head?.any (· ∈ ['+', '-']) ∧ isDelimiter prev ∧
          isDelimiter rest.tail.head? then
        (if rest.head? = some '+' then "succ" else "pred", 2, .code)
      else if c = '?' ∧ isDelimiter prev then
        match characterLiteral? (c :: rest) with
        | some (code, used) => (Number.digits code, used, .code)
        | none => ("?", 1, .code)
      else if c.isDigit then
        match digitSymbol? prev (c :: rest) with
        | some word => ("n-" ++ String.ofList word, word.length, .code)
        | none => (c.toString, 1, .code)
      else (c.toString, 1, .code) := by
  unfold heads at other
  simp only [List.mem_cons, List.not_mem_nil, or_false, not_or] at other
  obtain ⟨h1, h2, h3, h4, h5, h6⟩ := other
  unfold expandToken
  split
  next h => cases h
  next h => cases h; exact absurd rfl h1
  next h => cases h; exact absurd rfl h2
  next h => cases h; exact absurd rfl h3
  next h => cases h; exact absurd rfl h3
  next h => cases h; exact absurd rfl h4
  next h => cases h; exact absurd rfl h5
  next h => cases h; exact absurd rfl h6
  next h =>
    obtain ⟨rfl, rfl⟩ := List.cons.inj h
    rfl

/-- Characters that mark something wherever they stand. -/
def marks : List Char := [';', '"', '#', '[', ']', '(', '\\', '?']

theorem expandToken_copy {c : Char} {prev : Option Char} {rest : List Char} (noMark : c ∉ marks)
    (noName : c = '1' → isDelimiter prev = true → rest.head?.any (· ∈ ['+', '-']) = false)
    (noSymbol : c.isDigit = true → digitSymbol? prev (c :: rest) = none) (offset : Nat) :
    expandToken offset prev (c :: rest) = (c.toString, 1, .code) := by
  have other : c ∉ heads := fun head => noMark (List.mem_append_left ['\\', '?'] head)
  have noEscape : c ≠ '\\' := by
    rintro rfl
    exact noMark (by decide)
  have noQuestion : c ≠ '?' := by
    rintro rfl
    exact noMark (by decide)
  have noIncrement : ¬(c = '1' ∧ rest.head?.any (· ∈ ['+', '-']) = true ∧ isDelimiter prev = true ∧
      isDelimiter rest.tail.head? = true) := by
    rintro ⟨one, sign, delimited, -⟩
    rw [noName one delimited] at sign
    cases sign
  rw [expandToken_other other, if_neg fun both => noEscape both.1, if_neg noIncrement,
    if_neg fun both => noQuestion both.1]
  split
  next digit => rw [noSymbol digit]
  next => rfl

variable {prev : Option Char} {c : Char} {rest word : List Char}

theorem ne_bracket_of_noMark (noMark : c ∉ marks) : c ≠ '[' ∧ c ≠ ']' := by
  constructor
  all_goals
    rintro rfl
    exact noMark (by decide)

/-- A character that is neither a mark nor a digit is copied wherever it stands. -/
theorem expandToken_character (noMark : c ∉ marks) (noDigit : c.isDigit = false)
    (prev : Option Char) (rest : List Char) (offset : Nat) :
    expandToken offset prev (c :: rest) = (c.toString, 1, .code) := by
  refine expandToken_copy noMark ?_ (fun digit => ?_) offset
  · rintro rfl
    exact absurd noDigit (by decide)
  · rw [noDigit] at digit
    cases digit

theorem Plain.character (noMark : c ∉ marks) (noDigit : c.isDigit = false)
    (after : Plain (some c) rest) : Plain prev (c :: rest) :=
  .cons (expandToken_character noMark noDigit prev rest) (ne_bracket_of_noMark noMark).1
    (ne_bracket_of_noMark noMark).2 after

theorem Expands.character {out : List Char} (noMark : c ∉ marks) (noDigit : c.isDigit = false)
    (after : Expands (some c) rest out) : Expands prev (c :: rest) (c :: out) :=
  .copy (expandToken_character noMark noDigit prev rest) (ne_bracket_of_noMark noMark).1
    (ne_bracket_of_noMark noMark).2 after

theorem digit_noMark (digit : c.isDigit = true) : c ∉ marks := by
  intro mark
  have noDigits : (marks.all fun d => !d.isDigit) = true := by decide
  have noDigit := List.all_eq_true.mp noDigits c mark
  rw [digit] at noDigit
  cases noDigit

theorem ne_bracket_of_isDigit (digit : c.isDigit = true) : c ≠ '[' ∧ c ≠ ']' :=
  ne_bracket_of_noMark (digit_noMark digit)

/-- A digit is copied where no name can start and where no name does. -/
theorem Plain.digit (digit : c.isDigit = true)
    (noName : isDelimiter prev = true → c = '1' → rest.head?.any (· ∈ ['+', '-']) = false)
    (noSymbol : isDelimiter prev = true →
      ((c :: rest).takeWhile isSymbolChar).any Char.isAlpha = false)
    (after : Plain (some c) rest) : Plain prev (c :: rest) := by
  refine .cons (expandToken_copy (digit_noMark digit)
    (fun one delimited => noName delimited one) ?_) (ne_bracket_of_isDigit digit).1
    (ne_bracket_of_isDigit digit).2 after
  · intro _
    unfold digitSymbol?
    cases delimited : isDelimiter prev with
    | false => rfl
    | true => simp [noSymbol delimited]

/-- An opening parenthesis is copied unless a call follows that is written differently. -/
theorem Plain.open (noCall : renamedCall? ('(' :: rest) = none) (after : Plain (some '(') rest) :
    Plain prev ('(' :: rest) := by
  refine .cons (fun offset => ?_) (by decide) (by decide) after
  unfold expandToken
  simp only [noCall]
  rfl

/-! ## Words -/

/-- The characters of a name of letters, digits and hyphens that starts with a letter. -/
def IsIdentifier (word : List Char) : Prop :=
  ∃ first rest, word = first :: rest ∧ first.isAlpha = true ∧
    ∀ c ∈ rest, c.isAlphanum = true ∨ c = '-'

theorem IsIdentifier.of_all {first : Char} {rest : List Char} (letter : first.isAlpha = true)
    (inside : (rest.all fun c => c.isAlphanum || c == '-') = true) :
    IsIdentifier (first :: rest) := by
  refine ⟨first, rest, rfl, letter, fun c member => ?_⟩
  have allowed := List.all_eq_true.mp inside c member
  rwa [Bool.or_eq_true, beq_iff_eq] at allowed

/-- Letters, digits and hyphens stand inside words and end nothing. -/
structure InWord (c : Char) : Prop where
  noMark : c ∉ marks
  symbolChar : isSymbolChar c = true
  noDelimiter : isDelimiter (some c) = false
  noBlank : isCallBlank c = false
  inAtom : endsAtom c = false
  noBackslash : c ≠ '\\'

/-- What is checked of the first 128 characters holds of letters and digits. -/
theorem of_isAlphanum {p : Char → Prop}
    (checked : ∀ n < 128, (Char.ofNat n).isAlphanum = true → p (Char.ofNat n)) {c : Char}
    (alphanum : c.isAlphanum = true) : p c := by
  have bounded := alphanum
  unfold Char.isAlphanum Char.isAlpha Char.isUpper Char.isLower Char.isDigit at bounded
  simp only [Bool.or_eq_true, Bool.and_eq_true, decide_eq_true_eq, ge_iff_le,
    UInt32.le_iff_toNat_le] at bounded
  have ascii : c.val.toNat < 128 := by
    rcases bounded with (⟨-, below⟩ | ⟨-, below⟩) | ⟨-, below⟩
    · exact Nat.lt_of_le_of_lt below (by decide)
    · exact Nat.lt_of_le_of_lt below (by decide)
    · exact Nat.lt_of_le_of_lt below (by decide)
  have found := checked c.toNat ascii
  rw [Char.ofNat_toNat] at found
  exact found alphanum

instance (c : Char) : Decidable (InWord c) :=
  decidable_of_iff
    (c ∉ marks ∧ isSymbolChar c = true ∧ isDelimiter (some c) = false ∧ isCallBlank c = false ∧
      endsAtom c = false ∧ c ≠ '\\')
    ⟨fun ⟨h1, h2, h3, h4, h5, h6⟩ => ⟨h1, h2, h3, h4, h5, h6⟩,
      fun ⟨h1, h2, h3, h4, h5, h6⟩ => ⟨h1, h2, h3, h4, h5, h6⟩⟩

theorem inWord_of_alphanum {c : Char} (inside : c.isAlphanum = true ∨ c = '-') : InWord c := by
  rcases inside with alphanum | rfl
  · exact of_isAlphanum (p := InWord) (by decide +kernel) alphanum
  · decide

theorem isAlpha_of_isDigit {c : Char} (digit : c.isDigit = true) : c.isAlpha = false := by
  refine of_isAlphanum (p := fun c => c.isDigit = true → c.isAlpha = false)
    (by decide +kernel) ?_ digit
  simp [Char.isAlphanum, digit]

theorem IsIdentifier.inWord (identifier : IsIdentifier word) : ∀ c ∈ word, InWord c := by
  obtain ⟨first, rest, rfl, letter, inside⟩ := identifier
  intro c member
  cases member with
  | head => exact inWord_of_alphanum (.inl (by simp [Char.isAlphanum, letter]))
  | tail _ later => exact inWord_of_alphanum (inside c later)

/-- The rest of a word is copied. -/
theorem Plain.inside (chars : ∀ c ∈ word, InWord c) (started : isDelimiter prev = false)
    (after : ∀ prev, Plain prev rest) : Plain prev (word ++ rest) := by
  induction word generalizing prev with
  | nil => exact after prev
  | cons c word ih =>
      have inWord := chars c (.head _)
      have later := ih (fun d member => chars d (.tail _ member)) inWord.noDelimiter
      cases digit : c.isDigit with
      | false => exact .character inWord.noMark digit later
      | true =>
          refine .digit digit (fun delimited => ?_) (fun delimited => ?_) later
          all_goals
            rw [started] at delimited
            cases delimited

theorem Plain.identifier (identifier : IsIdentifier word) (after : ∀ prev, Plain prev rest) :
    Plain prev (word ++ rest) := by
  have chars := identifier.inWord
  obtain ⟨first, others, rfl, letter, -⟩ := identifier
  have inWord := chars first (.head _)
  have noDigit : first.isDigit = false := by
    cases digit : first.isDigit with
    | false => rfl
    | true => rw [isAlpha_of_isDigit digit] at letter; cases letter
  exact .character inWord.noMark noDigit
    (.inside (fun c member => chars c (.tail _ member)) inWord.noDelimiter after)

/-! ## What ends a word -/

theorem blank_noAlphanum (blank : isBlank c = true) : c.isAlphanum = false := by
  cases alphanum : c.isAlphanum with
  | false => rfl
  | true =>
      have dark : isBlank c = false :=
        of_isAlphanum (p := fun c => isBlank c = false) (by decide +kernel) alphanum
      rw [blank] at dark
      cases dark

theorem blank_noSymbolChar (blank : isBlank c = true) : isSymbolChar c = false := by
  unfold isSymbolChar
  rw [blank_noAlphanum blank, Bool.false_or]
  refine decide_eq_false fun member => ?_
  have none : (['-', '_', ':', '/', '+', '*', '<', '>', '=', '?', '!', '$', '%', '&', '.',
    '~'].all fun d => !isBlank d) = true := by decide
  have dark := List.all_eq_true.mp none c member
  rw [blank] at dark
  cases dark

/-- What holds neither of blanks nor of a closing parenthesis does not hold of what follows a
form. -/
theorem Follows.stops {p : Char → Bool} (follows : Follows rest)
    (blanks : ∀ c, isBlank c = true → p c = false) (close : p ')' = false) :
    ∀ c ∈ rest.head?, p c = false := by
  intro c member
  obtain blank | rfl := follows c member
  · exact blanks c blank
  · exact close

/-- What a text stops at, it stops at whatever follows. -/
theorem takeWhile_stops {p : Char → Bool} (stops : ∀ c ∈ rest.head?, p c = false)
    (text : List Char) : (text ++ rest).takeWhile p = text.takeWhile p := by
  rw [List.takeWhile_append]
  split
  next all =>
    have none : rest.takeWhile p = [] := by
      cases rest with
      | nil => rfl
      | cons c rest => exact List.takeWhile_cons_of_neg (by simp [stops c rfl])
    have whole := (List.takeWhile_prefix p).eq_of_length all
    rw [none, List.append_nil, whole]
  next => rfl

theorem Follows.takeWhile_isSymbolChar (follows : Follows rest) (text : List Char) :
    (text ++ rest).takeWhile isSymbolChar = text.takeWhile isSymbolChar :=
  takeWhile_stops (follows.stops (fun _ => blank_noSymbolChar) (by decide)) text

/-- The first digit of a word of digits is copied wherever the word stands. -/
theorem expandToken_digits {digits : List Char} (all : ∀ d ∈ c :: digits, d.isDigit = true)
    (follows : Follows rest) (prev : Option Char) (offset : Nat) :
    expandToken offset prev (c :: (digits ++ rest)) = (c.toString, 1, .code) := by
  refine expandToken_copy (digit_noMark (all c (.head _))) (fun _ _ => ?_) (fun _ => ?_) offset
  · have noDigits : (['+', '-'].all fun d => !d.isDigit) = true := by decide
    have noSign {d : Char} (digit : d.isDigit = true) : decide (d ∈ ['+', '-']) = false := by
      refine decide_eq_false fun sign => ?_
      have noDigit := List.all_eq_true.mp noDigits d sign
      rw [digit] at noDigit
      cases noDigit
    cases digits with
    | cons d digits => exact noSign (all d (.tail _ (.head _)))
    | nil =>
        cases rest with
        | nil => rfl
        | cons d rest =>
            have sign (c : Char) (blank : isBlank c = true) : decide (c ∈ ['+', '-']) = false := by
              refine decide_eq_false fun sign => ?_
              simp only [List.mem_cons, List.not_mem_nil, or_false] at sign
              rcases sign with rfl | rfl
              · cases blank
              · cases blank
            exact follows.stops sign (by decide) d rfl
  · have symbols : ∀ d ∈ c :: digits, isSymbolChar d = true := fun d member =>
      (inWord_of_alphanum (.inl (by simp [Char.isAlphanum, all d member]))).symbolChar
    have ends : rest.takeWhile isSymbolChar = [] := follows.takeWhile_isSymbolChar []
    have word : (c :: (digits ++ rest)).takeWhile isSymbolChar = c :: digits := by
      rw [← List.cons_append, List.takeWhile_append_of_pos symbols, ends, List.append_nil]
    have noLetter : (c :: digits).any Char.isAlpha = false := by
      rw [List.any_eq_false]
      intro d member
      rw [isAlpha_of_isDigit (all d member)]
      exact Bool.false_ne_true
    unfold digitSymbol?
    simp only [word, noLetter, Bool.and_false, Bool.false_and, Bool.false_eq_true, if_false]

/-! ## Numerals -/

/-- Digits before a closing parenthesis are copied, also at the start of a word. -/
theorem Plain.digits {digits : List Char} (all : ∀ c ∈ digits, c.isDigit = true)
    (after : ∀ prev, Plain prev (')' :: rest)) : Plain prev (digits ++ ')' :: rest) := by
  induction digits generalizing prev with
  | nil => exact after prev
  | cons c digits ih =>
      have digit := all c (.head _)
      have noBracket := ne_bracket_of_isDigit digit
      exact .cons (expandToken_digits all (follows_close rest) prev) noBracket.1 noBracket.2
        (ih fun d member => all d (.tail _ member))

theorem Plain.numeral (n : Int) (after : ∀ prev, Plain prev (')' :: rest)) :
    Plain prev (Number.numeral n ++ ')' :: rest) := by
  unfold Number.numeral
  split
  · exact .character (by decide) (by decide) (.digits (fun _ => Number.isDigit_of_mem_digits) after)
  · exact .digits (fun _ => Number.isDigit_of_mem_digits) after

/-! ## Words in parentheses -/

/-- The head of a call that could be written differently. -/
theorem renamedCall?_word (chars : ∀ c ∈ word, InWord c) (rest : List Char) :
    renamedCall? ('(' :: (word ++ ')' :: rest)) =
      (renamedCalls.lookup (String.ofList word)).map fun replacement =>
        (replacement, 1 + word.length) := by
  have noBlanks : (word ++ ')' :: rest).takeWhile isCallBlank = [] := by
    cases word with
    | nil => rfl
    | cons c word => exact List.takeWhile_cons_of_neg (by simp [(chars c (.head _)).noBlank])
  have found : (word ++ ')' :: rest).takeWhile isSymbolChar = word := by
    rw [List.takeWhile_append_of_pos fun c member => (chars c member).symbolChar]
    exact List.append_nil _
  unfold renamedCall?
  simp only [List.drop_succ_cons, List.drop_zero, noBlanks, List.length_nil, found, Nat.zero_add,
    List.drop_left]
  rfl

/-- A name in parentheses is copied unless it is one that is written differently. -/
theorem Plain.parenthesised (identifier : IsIdentifier word)
    (other : String.ofList word ∉ renamedCalls.map Prod.fst)
    (after : ∀ prev, Plain prev (')' :: rest)) : Plain prev ('(' :: (word ++ ')' :: rest)) := by
  have absent : renamedCalls.lookup (String.ofList word) = none := by
    refine List.lookup_eq_none_iff.mpr fun entry member => bne_iff_ne.mpr ?_
    rintro same
    exact other (same ▸ List.mem_map_of_mem member)
  refine .open ?_ (.identifier identifier after)
  rw [renamedCall?_word identifier.inWord, absent, Option.map_none]

end EditorLisp.Source
