import EditorLisp.Proofs.Source.Plain

/-!
# Expansion step by step

One step of the pass takes one token of plain text, or one character of a comment or a string.
Two things are shown of every step, and by induction of every run.

What a step does is decided by the characters up to the next bar: no token looks past one.  So
the pass over a text that ends like a block comment is the same whatever follows, and goes on
with it.

Where a text stands decides nothing but offsets, as long as a token could start there just as
well.
-/

namespace EditorLisp.Source

/-! ## Single steps of the pass -/

/-- One step of the pass over a text: one token of plain text, or one character of a comment
or a string. -/
def Scan.step (scan : Scan) : List Char → Except Error (Scan × List Char)
  | [] => .ok (scan, [])
  | c :: rest =>
    match scan.mode with
    | .code =>
      if c = ']' ∧ scan.openBrackets = [] then
        .error ⟨.unmatchedClosingBracket, scan.offset⟩
      else
        let token := expandToken scan.offset scan.prev (c :: rest)
        let openBrackets :=
          if c = '[' then scan.offset :: scan.openBrackets
          else if c = ']' then scan.openBrackets.tail
          else scan.openBrackets
        .ok ({ mode := token.2.2, openBrackets, prev := lastOf token.2.1 (c :: rest),
               offset := scan.offset + token.2.1, out := scan.out ++ token.1 },
          (c :: rest).drop token.2.1)
    | mode =>
      .ok ({ scan with
               mode := mode.next c, prev := some c, offset := scan.offset + 1,
               out := scan.out.push c },
        rest)

/-- Outside of code a character is copied. -/
theorem Scan.step_outside {scan : Scan} (outside : scan.mode ≠ .code) (c : Char)
    (rest : List Char) :
    scan.step (c :: rest) =
      .ok ({ scan with
               mode := scan.mode.next c, prev := some c, offset := scan.offset + 1,
               out := scan.out.push c }, rest) := by
  unfold Scan.step
  cases mode : scan.mode with
  | code => exact absurd mode outside
  | comment => rfl
  | text start escaped => rfl

/-- The pass is made of its steps. -/
theorem expandFrom_cons (fuel : Nat) (scan : Scan) (c : Char) (rest : List Char) :
    expandFrom (fuel + 1) scan (c :: rest) =
      (scan.step (c :: rest)).bind fun next => expandFrom fuel next.1 next.2 := by
  rw [expandFrom, Scan.step]
  cases scan.mode with
  | code =>
      simp only
      split
      next => rfl
      next => rfl
  | comment => rfl
  | text start escaped => rfl

/-! ## Characters taken by a token -/

/-- A token takes at least one character and none that is not there. -/
def Takes (used : Nat) (text : List Char) : Prop := 1 ≤ used ∧ used ≤ text.length

theorem takes_one (c : Char) (rest : List Char) : Takes 1 (c :: rest) :=
  ⟨Nat.le_refl 1, Nat.succ_le_succ (Nat.zero_le _)⟩

theorem Takes.length_drop_le {used : Nat} {c : Char} {rest : List Char}
    (taken : Takes used (c :: rest)) : ((c :: rest).drop used).length ≤ rest.length := by
  obtain ⟨positive, -⟩ := taken
  rw [List.length_drop, List.length_cons]
  omega

theorem takes_two (c d : Char) (rest : List Char) : Takes 2 (c :: d :: rest) :=
  ⟨Nat.le_succ 1, Nat.succ_le_succ (Nat.succ_le_succ (Nat.zero_le _))⟩

theorem length_takeWhile_le (p : Char → Bool) (text : List Char) :
    (text.takeWhile p).length ≤ text.length :=
  (List.takeWhile_prefix p).length_le

theorem takes_radixLiteral {text : List Char} {value : Int64} {used : Nat}
    (found : radixLiteral? text = some (value, used)) : Takes used text := by
  unfold radixLiteral? at found
  split at found
  next mark rest =>
    obtain ⟨radix, -, found⟩ := Option.bind_eq_some_iff.mp found
    obtain ⟨value, -, pair⟩ := Option.map_eq_some_iff.mp found
    cases pair
    have shorter := length_takeWhile_le (Number.isDigit radix) rest
    simp only [Takes, List.length_cons]
    omega
  next => cases found

theorem takes_renamedCall {c : Char} {rest : List Char} {replacement : String} {used : Nat}
    (found : renamedCall? (c :: rest) = some (replacement, used)) : Takes used (c :: rest) := by
  unfold renamedCall? at found
  simp only [List.drop_succ_cons, List.drop_zero] at found
  split at found
  next =>
    obtain ⟨text, -, pair⟩ := Option.map_eq_some_iff.mp found
    cases pair
    have blanks := length_takeWhile_le isCallBlank rest
    have word := length_takeWhile_le isSymbolChar
      (rest.drop (rest.takeWhile isCallBlank).length)
    rw [List.length_drop] at word
    simp only [Takes, List.length_cons]
    omega
  next => cases found

theorem three_le_length_of_octalTriple? {text : List Char} {code : Nat}
    (found : octalTriple? text = some code) : 3 ≤ text.length := by
  unfold octalTriple? at found
  split at found
  next => simp
  next => cases found

theorem takes_characterLiteral {text : List Char} {code used : Nat}
    (found : characterLiteral? text = some (code, used)) : Takes used text := by
  unfold characterLiteral? at found
  split at found
  next rest =>
    split at found
    next octal =>
      cases found
      have long := three_le_length_of_octalTriple? octal
      simp only [Takes, List.length_cons]
      omega
    next => cases found
    next after _ =>
      obtain ⟨c, head, pair⟩ := Option.map_eq_some_iff.mp found
      cases pair
      cases after with
      | nil => cases head
      | cons d after => simp [Takes]
    next after _ =>
      obtain ⟨c, head, pair⟩ := Option.map_eq_some_iff.mp found
      cases pair
      cases after with
      | nil => cases head
      | cons d after => simp [Takes]
    all_goals
      cases found
      simp [Takes]
  next =>
    cases found
    exact takes_two _ _ _
  next => cases found

theorem takes_digitSymbol {prev : Option Char} {c : Char} {rest word : List Char}
    (digit : c.isDigit = true) (found : digitSymbol? prev (c :: rest) = some word) :
    Takes word.length (c :: rest) := by
  unfold digitSymbol? at found
  simp only at found
  split at found
  next =>
    cases found
    have symbol : isSymbolChar c = true := by
      have alphanum : c.isAlphanum = true := by simp [Char.isAlphanum, digit]
      simp [isSymbolChar, alphanum]
    refine ⟨?_, length_takeWhile_le isSymbolChar _⟩
    rw [List.takeWhile_cons_of_pos symbol]
    exact Nat.succ_le_succ (Nat.zero_le _)
  next => cases found

/-- Every token takes at least one character and none that is not there. -/
theorem takes_expandToken (offset : Nat) (prev : Option Char) (c : Char) (rest : List Char) :
    Takes (expandToken offset prev (c :: rest)).2.1 (c :: rest) := by
  unfold expandToken
  split
  next h => cases h
  next => exact takes_one _ _
  next => exact takes_one _ _
  next h => rw [h]; exact takes_two _ _ _
  next =>
    split
    next found => exact takes_radixLiteral found
    next => exact takes_one _ _
  next => exact takes_one _ _
  next => exact takes_one _ _
  next =>
    split
    next found => exact takes_renamedCall found
    next => exact takes_one _ _
  next h =>
    obtain ⟨rfl, rfl⟩ := List.cons.inj h
    split
    next escaped =>
      cases rest with
      | nil => cases escaped.2
      | cons d rest => exact takes_two _ _ _
    next =>
      split
      next increment =>
        cases rest with
        | nil => cases increment.2.1
        | cons d rest => exact takes_two _ _ _
      next =>
        split
        next =>
          split
          next found => exact takes_characterLiteral found
          next => exact takes_one _ _
        next =>
          split
          next digit =>
            split
            next found => exact takes_digitSymbol digit found
            next => exact takes_one _ _
          next => exact takes_one _ _

/-! ## A bar stops a token -/

section Bar

variable (pre rest : List Char)

theorem takeWhile_bar {p : Char → Bool} (stops : p '|' = false) :
    (pre ++ '|' :: rest).takeWhile p = pre.takeWhile p :=
  takeWhile_stops (fun _ bar => Option.some.inj bar ▸ stops) pre

theorem dropWhile_bar {p : Char → Bool} (stops : p '|' = false) :
    (pre ++ '|' :: rest).dropWhile p = pre.dropWhile p ++ '|' :: rest := by
  induction pre with
  | nil => rw [List.nil_append, List.dropWhile_cons_of_neg (by simp [stops])]; rfl
  | cons c pre ih =>
      rw [List.cons_append, List.dropWhile_cons, List.dropWhile_cons, ih]
      split
      next => rfl
      next => rfl

theorem head?_drop_bar {n : Nat} (inside : n ≤ pre.length) :
    ((pre ++ '|' :: rest).drop n).head? = ((pre ++ ['|']).drop n).head? := by
  rw [List.drop_append_of_le_length inside, List.drop_append_of_le_length inside]
  cases pre.drop n <;> rfl

theorem radixLiteral?_bar (c : Char) :
    radixLiteral? (c :: (pre ++ '|' :: rest)) = radixLiteral? (c :: pre) := by
  cases pre with
  | nil => rfl
  | cons mark pre =>
      have digits (radix : Nat) :
          (pre ++ '|' :: rest).takeWhile (Number.isDigit radix) =
            pre.takeWhile (Number.isDigit radix) :=
        takeWhile_bar pre rest rfl
      unfold radixLiteral?
      simp only [List.cons_append, digits]

theorem head?_bar_eq_some_iff {c : Char} (other : c ≠ '|') :
    (pre ++ '|' :: rest).head? = some c ↔ pre.head? = some c := by
  cases pre with
  | nil =>
      constructor
      · intro bar
        exact absurd (Option.some.inj bar).symm other
      · intro none
        cases none
  | cons d pre => exact Iff.rfl

theorem renamedCall?_bar (c : Char) :
    renamedCall? (c :: (pre ++ '|' :: rest)) = renamedCall? (c :: pre) := by
  have blanks : (pre ++ '|' :: rest).takeWhile isCallBlank = pre.takeWhile isCallBlank :=
    takeWhile_bar pre rest rfl
  have blanksInside := length_takeWhile_le isCallBlank pre
  have word :
      ((pre ++ '|' :: rest).drop (pre.takeWhile isCallBlank).length).takeWhile isSymbolChar =
      (pre.drop (pre.takeWhile isCallBlank).length).takeWhile isSymbolChar := by
    rw [List.drop_append_of_le_length blanksInside]
    exact takeWhile_bar _ rest rfl
  have wordInside := length_takeWhile_le isSymbolChar
    (pre.drop (pre.takeWhile isCallBlank).length)
  rw [List.length_drop] at wordInside
  unfold renamedCall?
  simp only [List.drop_succ_cons, List.drop_zero, blanks, word]
  rw [List.drop_append_of_le_length (by omega), dropWhile_bar _ rest rfl]
  have closes : ')' ≠ '|' := by decide
  simp only [head?_bar_eq_some_iff _ rest closes]

theorem octalTriple?_bar : octalTriple? (pre ++ '|' :: rest) = octalTriple? pre := by
  have noDigit : Number.isDigit 8 '|' = false := rfl
  match pre with
  | [] =>
      rcases rest with _ | ⟨b, _ | ⟨c, rest⟩⟩
      · rfl
      · rfl
      · simp [octalTriple?, noDigit]
  | [a] =>
      rcases rest with _ | ⟨c, rest⟩
      · rfl
      · simp [octalTriple?, noDigit]
  | [a, b] => simp [octalTriple?, noDigit]
  | a :: b :: c :: pre => rfl

theorem characterLiteral?_plain {d : Char} (plain : d ≠ '\\') (c : Char) (rest : List Char) :
    characterLiteral? (c :: d :: rest) = some (d.toNat, 2) := by
  unfold characterLiteral?
  split
  next h => cases h; exact absurd rfl plain
  next h => cases h; rfl
  next h => exact absurd rfl (h c d rest)

theorem characterLiteral?_escaped_bar (c : Char) :
    characterLiteral? (c :: '\\' :: (pre ++ '|' :: rest)) =
      characterLiteral? (c :: '\\' :: (pre ++ ['|'])) := by
  unfold characterLiteral?
  simp only [octalTriple?_bar]
  cases octalTriple? pre with
  | some code => rfl
  | none =>
      rcases pre with _ | ⟨e, pre⟩
      · rfl
      · by_cases control : e = 'C'
        · subst control
          rcases pre with _ | ⟨f, pre⟩
          · rfl
          · by_cases dash : f = '-'
            · subst dash
              cases pre <;> rfl
            · simp [dash]
        · by_cases caret : e = '^'
          · subst caret
            cases pre <;> rfl
          · by_cases space : e = 's'
            · subst space
              rcases pre with _ | ⟨f, pre⟩
              · rfl
              · by_cases dash : f = '-'
                · subst dash
                  rfl
                · simp [dash]
            · simp [control, space]

theorem characterLiteral?_bar (c : Char) :
    characterLiteral? (c :: (pre ++ '|' :: rest)) = characterLiteral? (c :: (pre ++ ['|'])) := by
  cases pre with
  | nil => rfl
  | cons d pre =>
      by_cases escaped : d = '\\'
      · subst escaped
        exact characterLiteral?_escaped_bar pre rest c
      · exact (characterLiteral?_plain escaped c _).trans (characterLiteral?_plain escaped c _).symm

theorem digitSymbol?_bar (prev : Option Char) (c : Char) :
    digitSymbol? prev (c :: (pre ++ '|' :: rest)) = digitSymbol? prev (c :: (pre ++ ['|'])) := by
  have word (rest : List Char) : (c :: (pre ++ '|' :: rest)).takeWhile isSymbolChar =
      (c :: pre).takeWhile isSymbolChar :=
    takeWhile_bar (c :: pre) rest rfl
  have after := head?_drop_bar (c :: pre) rest (length_takeWhile_le isSymbolChar (c :: pre))
  unfold digitSymbol?
  simp only [word]
  rw [← List.cons_append, after]
  rfl

theorem expandToken_number (offset : Nat) (prev : Option Char) {text : List Char}
    (unquoted : text.head? ≠ some '\'') :
    expandToken offset prev ('#' :: text) =
      match radixLiteral? ('#' :: text) with
      | some (value, used) =>
        (toString value.toInt ++
          if (('#' :: text).drop used).head?.any Char.isAlphanum then " " else "", used, .code)
      | none => ("#", 1, .code) := by
  unfold expandToken
  split
  next h => cases h
  next h => cases h
  next h => cases h
  next h => cases h; exact absurd rfl unquoted
  next h => cases h; rfl
  next h => cases h
  next h => cases h
  next h => cases h
  next number _ _ _ h =>
    cases h
    exact absurd rfl number

theorem expandToken_number_bar (offset : Nat) (prev : Option Char) :
    expandToken offset prev ('#' :: (pre ++ '|' :: rest)) =
      expandToken offset prev ('#' :: (pre ++ ['|'])) := by
  have head : (pre ++ '|' :: rest).head? = (pre ++ ['|']).head? := by cases pre <;> rfl
  by_cases quoted : (pre ++ ['|']).head? = some '\''
  · rcases pre with _ | ⟨d, pre⟩
    · cases quoted
    · cases quoted
      rfl
  · rw [expandToken_number offset prev (head ▸ quoted), expandToken_number offset prev quoted,
      radixLiteral?_bar, radixLiteral?_bar]
    cases found : radixLiteral? ('#' :: pre) with
    | none => rfl
    | some literal =>
        obtain ⟨value, used⟩ := literal
        have inside : used ≤ ('#' :: pre).length := (takes_radixLiteral found).2
        have after := head?_drop_bar ('#' :: pre) rest inside
        simp only [List.cons_append] at after
        simp only [after]

/-- A token that starts before a bar does not depend on what follows the bar. -/
theorem expandToken_bar (offset : Nat) (prev : Option Char) (c : Char) :
    expandToken offset prev (c :: (pre ++ '|' :: rest)) =
      expandToken offset prev (c :: (pre ++ ['|'])) := by
  have head : (pre ++ '|' :: rest).head? = (pre ++ ['|']).head? := by cases pre <;> rfl
  by_cases mark : c ∈ heads
  · simp only [heads, List.mem_cons, List.not_mem_nil, or_false] at mark
    rcases mark with rfl | rfl | rfl | rfl | rfl | rfl
    · rfl
    · rfl
    · exact expandToken_number_bar pre rest offset prev
    · rfl
    · rfl
    · unfold expandToken
      simp only [renamedCall?_bar]
  · have first : (pre ++ '|' :: rest).take 1 = (pre ++ ['|']).take 1 := by cases pre <;> rfl
    have second : c = '1' ∧ (pre ++ ['|']).head?.any (· ∈ ['+', '-']) = true ∧
        isDelimiter prev = true ∧ isDelimiter (pre ++ '|' :: rest).tail.head? = true ↔
          c = '1' ∧ (pre ++ ['|']).head?.any (· ∈ ['+', '-']) = true ∧
        isDelimiter prev = true ∧ isDelimiter (pre ++ ['|']).tail.head? = true := by
      cases pre with
      | nil =>
          constructor
          · rintro ⟨-, sign, -⟩
            cases sign
          · rintro ⟨-, sign, -⟩
            cases sign
      | cons d pre => cases pre <;> exact Iff.rfl
    rw [expandToken_other mark, expandToken_other mark, characterLiteral?_bar, digitSymbol?_bar,
      head, first]
    simp only [second]

end Bar

/-! ## The pass over a text in two parts -/

/-- What ends a block comment. -/
def closing : List Char := ['|', '#', '\n']

/-- A text that goes on up to the end of a block comment. -/
def UpToClosing (text : List Char) : Prop := ∃ body, text <:+ body ++ closing

theorem UpToClosing.drop {text : List Char} (closes : UpToClosing text) (n : Nat) :
    UpToClosing (text.drop n) := by
  obtain ⟨body, suffix⟩ := closes
  exact ⟨body, (List.drop_suffix n text).trans suffix⟩

/-- A bar is still ahead, or what ends the comment has begun. -/
theorem UpToClosing.cases {c : Char} {rest : List Char} (closes : UpToClosing (c :: rest)) :
    c :: rest ∈ [['|', '#', '\n'], ['#', '\n'], ['\n']] ∨
      ∃ pre, rest = pre ++ '|' :: ['#', '\n'] := by
  obtain ⟨body, suffix⟩ := closes
  rcases List.suffix_or_suffix_of_suffix suffix (List.suffix_append body closing) with
    inside | ⟨pre, whole⟩
  · left
    rcases List.suffix_cons_iff.mp inside with same | inside
    · simp [same]
    · rcases List.suffix_cons_iff.mp inside with same | inside
      · simp [same]
      · rcases List.suffix_cons_iff.mp inside with same | inside
        · simp [same]
        · cases List.suffix_nil.mp inside
  · cases pre with
    | nil => exact .inl (whole ▸ .head _)
    | cons d pre => exact .inr ⟨pre, (List.cons.inj whole).2.symm⟩

/-- A token inside a block comment does not depend on what follows the comment. -/
theorem UpToClosing.expandToken_append {c : Char} {rest : List Char}
    (closes : UpToClosing (c :: rest)) (offset : Nat) (prev : Option Char) (more : List Char) :
    expandToken offset prev (c :: (rest ++ more)) = expandToken offset prev (c :: rest) := by
  have copied {d : Char} (last : d ∈ ['|', '\n']) (rest : List Char) :
      expandToken offset prev (d :: rest) = (d.toString, 1, .code) := by
    have harmless : d ∉ marks ∧ d.isDigit = false := by
      simp only [List.mem_cons, List.not_mem_nil, or_false] at last
      rcases last with rfl | rfl <;> decide
    exact expandToken_character harmless.1 harmless.2 prev rest offset
  rcases closes.cases with last | ⟨pre, rfl⟩
  · simp only [List.mem_cons, List.not_mem_nil, or_false, List.cons.injEq] at last
    rcases last with ⟨rfl, rfl⟩ | ⟨rfl, rfl⟩ | ⟨rfl, rfl⟩
    · rw [copied (by decide), copied (by decide)]
    · rfl
    · rw [copied (by decide), copied (by decide)]
  · rw [List.append_assoc, List.cons_append, expandToken_bar, expandToken_bar pre ['#', '\n']]

theorem lastOf_append {n : Nat} {text : List Char} (taken : Takes n text) (more : List Char) :
    lastOf n (text ++ more) = lastOf n text := by
  obtain ⟨positive, inside⟩ := taken
  exact List.getElem?_append_left (by omega)

theorem Takes.drop_append {n : Nat} {text : List Char} (taken : Takes n text) (more : List Char) :
    (text ++ more).drop n = text.drop n ++ more :=
  List.drop_append_of_le_length taken.2

/-- A step inside a block comment does not depend on what follows the comment. -/
theorem UpToClosing.step_append {scan : Scan} {c : Char} {rest : List Char}
    (closes : UpToClosing (c :: rest)) (more : List Char) :
    scan.step (c :: (rest ++ more)) =
      (scan.step (c :: rest)).map fun next => (next.1, next.2 ++ more) := by
  have token := closes.expandToken_append scan.offset scan.prev more
  have taken := takes_expandToken scan.offset scan.prev c rest
  unfold Scan.step
  cases scan.mode with
  | code =>
      simp only [token]
      generalize expandToken scan.offset scan.prev (c :: rest) = written at taken
      rw [← List.cons_append, lastOf_append taken, taken.drop_append]
      split
      next => rfl
      next => rfl
  | comment => rfl
  | text start escaped => rfl

/-- Only a semicolon starts a comment. -/
theorem mode_expandToken {offset : Nat} {prev : Option Char} {c : Char} {rest : List Char}
    (starts : (expandToken offset prev (c :: rest)).2.2 = .comment) : c = ';' := by
  unfold expandToken at starts
  split at starts
  next h => cases h
  next h => exact (List.cons.inj h).1
  all_goals
    repeat' split at starts
    all_goals cases starts

/-- Neither a string nor its end starts a comment, and the end of a line ends one. -/
theorem ScanMode.ne_newline_of_next {mode : ScanMode} {c : Char} (starts : mode.next c = .comment) :
    c ≠ '\n' := by
  rintro rfl
  cases mode with
  | code => cases starts
  | comment => cases starts
  | text start escaped => cases escaped <;> cases starts

/-- What one step does to a text: some characters at its front are taken, the last of them is
remembered, and a comment does not go on after the end of a line. -/
theorem Scan.exists_taken {scan next : Scan} {c : Char} {rest left : List Char}
    (step : scan.step (c :: rest) = .ok (next, left)) :
    ∃ used, Takes used (c :: rest) ∧ left = (c :: rest).drop used ∧
      next.prev = lastOf used (c :: rest) ∧ (next.mode = .comment → next.prev ≠ some '\n') := by
  by_cases code : scan.mode = .code
  · simp only [Scan.step, code] at step
    split at step
    next => cases step
    next =>
      cases step
      refine ⟨_, takes_expandToken scan.offset scan.prev c rest, rfl, rfl, fun starts => ?_⟩
      obtain rfl := mode_expandToken starts
      show some ';' ≠ some '\n'
      decide
  · rw [Scan.step_outside code] at step
    cases step
    refine ⟨1, takes_one c rest, rfl, rfl, fun starts newline => ?_⟩
    exact ScanMode.ne_newline_of_next starts (Option.some.inj newline)

theorem expandFrom_cons_eq_ok {fuel : Nat} {scan final : Scan} {c : Char} {rest : List Char}
    (run : expandFrom (fuel + 1) scan (c :: rest) = .ok final) :
    ∃ next left, scan.step (c :: rest) = .ok (next, left) ∧
      expandFrom fuel next left = .ok final := by
  rw [expandFrom_cons] at run
  cases step : scan.step (c :: rest) with
  | error e =>
      rw [step] at run
      cases run
  | ok next =>
      rw [step] at run
      exact ⟨next.1, next.2, rfl, run⟩

/-- The pass over a text that ends like a block comment goes on with what follows it. -/
theorem expandFrom_append {fuel big : Nat} {scan final : Scan} {text : List Char}
    (closes : UpToClosing text) (more : List Char) (enough : text.length ≤ fuel)
    (enough' : (text ++ more).length ≤ big) (run : expandFrom fuel scan text = .ok final) :
    ∃ left, more.length ≤ left ∧
      expandFrom big scan (text ++ more) = expandFrom left final more := by
  induction fuel generalizing big scan text with
  | zero =>
      obtain rfl : text = [] := List.length_eq_zero_iff.mp (Nat.le_zero.mp enough)
      cases run
      exact ⟨big, enough', rfl⟩
  | succ fuel ih =>
      cases text with
      | nil =>
          rw [expandFrom_nil] at run
          cases run
          exact ⟨big, enough', rfl⟩
      | cons c rest =>
          obtain ⟨next, left, step, run⟩ := expandFrom_cons_eq_ok run
          obtain ⟨used, taken, rfl, -, -⟩ := Scan.exists_taken step
          have shorter := taken.length_drop_le
          simp only [List.cons_append, List.length_cons, List.length_append] at enough enough'
          obtain ⟨big, rfl⟩ : ∃ n, big = n + 1 := ⟨big - 1, by omega⟩
          have less : ((c :: rest).drop used).length ≤ fuel := by omega
          have less' : ((c :: rest).drop used ++ more).length ≤ big := by
            rw [List.length_append]
            omega
          rw [List.cons_append, expandFrom_cons, closes.step_append more, step]
          exact ih (closes.drop used) less less' run

/-- After a text the pass remembers the last character of it. -/
theorem expandFrom_ends {fuel : Nat} {scan final : Scan} {c : Char} {rest : List Char}
    (enough : (c :: rest).length ≤ fuel) (run : expandFrom fuel scan (c :: rest) = .ok final) :
    final.prev = (c :: rest).getLast? ∧ (final.mode = .comment → final.prev ≠ some '\n') := by
  induction fuel generalizing scan c rest with
  | zero => exact absurd enough (Nat.not_succ_le_zero _)
  | succ fuel ih =>
      obtain ⟨next, left, step, run⟩ := expandFrom_cons_eq_ok run
      obtain ⟨used, ⟨positive, inside⟩, rfl, remembered, comment⟩ := Scan.exists_taken step
      cases left : (c :: rest).drop used with
      | nil =>
          rw [left, expandFrom_nil] at run
          cases run
          have all : used = (c :: rest).length :=
            Nat.le_antisymm inside (List.drop_eq_nil_iff.mp left)
          refine ⟨?_, comment⟩
          rw [remembered, all, List.getLast?_eq_getElem?]
          rfl
      | cons d left' =>
          rw [left] at run
          have same : (c :: rest).getLast? = (d :: left').getLast? := by
            rw [← left, List.getLast?_drop, if_neg]
            intro short
            rw [List.drop_eq_nil_of_le short] at left
            cases left
          rw [same]
          refine ih ?_ run
          rw [← left, List.length_drop]
          omega

/-! ## The pass over a text that stands further on -/

/-- The mode of a text that stands further on. -/
def ScanMode.moved (k : Nat) : ScanMode → ScanMode
  | .text start escaped => .text (start + k) escaped
  | mode => mode

theorem ScanMode.next_moved (k : Nat) (mode : ScanMode) (c : Char) :
    (mode.moved k).next c = (mode.next c).moved k := by
  cases mode with
  | code => rfl
  | comment =>
      unfold moved next
      simp only
      split
      next => rfl
      next => rfl
  | text start escaped =>
      cases escaped with
      | true => rfl
      | false =>
          unfold moved next
          simp only
          split
          next => rfl
          next =>
            split
            next => rfl
            next => rfl

theorem ScanMode.moved_eq_code_iff {k : Nat} {mode : ScanMode} :
    mode.moved k = .code ↔ mode = .code := by
  cases mode <;> simp [moved]

/-- One pass stands where the other one does, but further on, and has written something
before. -/
structure Scan.Behind (k : Nat) (before : String) (a b : Scan) : Prop where
  mode : b.mode = a.mode.moved k
  prev : isDelimiter b.prev = isDelimiter a.prev
  offset : b.offset = a.offset + k
  openBrackets : b.openBrackets = a.openBrackets.map (· + k)
  out : b.out = before ++ a.out

theorem expandToken_moved (k offset : Nat) {prev prev' : Option Char}
    (same : isDelimiter prev' = isDelimiter prev) (text : List Char) :
    expandToken (offset + k) prev' text =
      ((expandToken offset prev text).1, (expandToken offset prev text).2.1,
        (expandToken offset prev text).2.2.moved k) := by
  cases text with
  | nil => rfl
  | cons c rest =>
      by_cases mark : c ∈ heads
      · simp only [heads, List.mem_cons, List.not_mem_nil, or_false] at mark
        rcases mark with rfl | rfl | rfl | rfl | rfl | rfl
        · rfl
        · rfl
        · by_cases quoted : rest.head? = some '\''
          · cases rest with
            | nil => cases quoted
            | cons d rest =>
                cases quoted
                rfl
          · rw [expandToken_number _ _ quoted, expandToken_number _ _ quoted]
            split
            next => rfl
            next => rfl
        · rfl
        · rfl
        · unfold expandToken
          simp only
          split
          next => rfl
          next => rfl
      · have symbol : digitSymbol? prev' (c :: rest) = digitSymbol? prev (c :: rest) := by
          unfold digitSymbol?
          rw [same]
        simp only [expandToken_other mark, same, symbol]
        repeat' split
        all_goals rfl

variable {k : Nat} {before : String} {a a' b : Scan}

theorem Scan.Behind.step {c : Char} {rest left : List Char} (behind : Behind k before a b)
    (step : a.step (c :: rest) = .ok (a', left)) :
    ∃ b', b.step (c :: rest) = .ok (b', left) ∧ Behind k before a' b' := by
  obtain ⟨mode, prev, offset, openBrackets, out⟩ := behind
  by_cases code : a.mode = .code
  · have code' : b.mode = .code := by rw [mode, ScanMode.moved_eq_code_iff, code]
    have closed : b.openBrackets = [] ↔ a.openBrackets = [] := by
      rw [openBrackets, List.map_eq_nil_iff]
    have token := expandToken_moved k a.offset prev (c :: rest)
    rw [← offset] at token
    simp only [Scan.step, code] at step
    simp only [Scan.step, code', closed, token]
    split at step
    next => cases step
    next notClosing =>
      cases step
      rw [if_neg notClosing]
      refine ⟨_, rfl, rfl, rfl, ?_, ?_, ?_⟩
      · rw [offset, Nat.add_right_comm]
      · split
        next => rw [offset, openBrackets]; rfl
        next =>
          split
          next => rw [openBrackets, List.map_tail]
          next => exact openBrackets
      · rw [out, String.append_assoc]
  · have outside : b.mode ≠ .code := by rwa [mode, Ne, ScanMode.moved_eq_code_iff]
    rw [Scan.step_outside code] at step
    cases step
    refine ⟨_, Scan.step_outside outside c rest, ?_, rfl, ?_, openBrackets, ?_⟩
    · rw [mode]
      exact ScanMode.next_moved k a.mode c
    · rw [offset, Nat.add_right_comm]
    · rw [out]
      apply String.toList_injective
      simp

theorem Scan.Behind.expandFrom {fuel fuel' : Nat} {text : List Char} (behind : Behind k before a b)
    (enough : text.length ≤ fuel) (enough' : text.length ≤ fuel')
    (run : Source.expandFrom fuel a text = .ok a') :
    ∃ b', Source.expandFrom fuel' b text = .ok b' ∧ Behind k before a' b' := by
  induction fuel generalizing fuel' a b text with
  | zero =>
      obtain rfl : text = [] := List.length_eq_zero_iff.mp (Nat.le_zero.mp enough)
      cases run
      exact ⟨b, expandFrom_nil fuel' b, behind⟩
  | succ fuel ih =>
      cases text with
      | nil =>
          rw [expandFrom_nil] at run
          cases run
          exact ⟨b, expandFrom_nil fuel' b, behind⟩
      | cons c rest =>
          obtain ⟨next, left, step, run⟩ := expandFrom_cons_eq_ok run
          obtain ⟨used, taken, rfl, -, -⟩ := Scan.exists_taken step
          have shorter := taken.length_drop_le
          simp only [List.length_cons] at enough enough'
          obtain ⟨fuel', rfl⟩ : ∃ n, fuel' = n + 1 := ⟨fuel' - 1, by omega⟩
          have less : ((c :: rest).drop used).length ≤ fuel := by omega
          have less' : ((c :: rest).drop used).length ≤ fuel' := by omega
          obtain ⟨next', step', behind'⟩ := behind.step step
          rw [expandFrom_cons, step']
          exact ih behind' less less' run

end EditorLisp.Source
