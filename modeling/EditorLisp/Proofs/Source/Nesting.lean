import EditorLisp.Proofs.Source.Comment
import Mathlib.Data.List.TakeWhile

/-!
# Nesting of parentheses and brackets

Brackets are matched twice.  The pass that writes shorthand out keeps count of the brackets that
are open, and writes all of them as parentheses; the reader then matches the parentheses that it
is given.  So what is read of a text of names, blanks and delimiters is decided by two counts:
that of the brackets alone, and that of parentheses and brackets taken alike.  Neither count goes
below zero in a text that is read, and both end there.  That a parenthesis closes a parenthesis
and a bracket a bracket is enough for it, but not needed.
-/

namespace EditorLisp.Source

open EditorLisp.Text

/-! ## Counting what is open -/

section Level

variable {opening closing : List Char} {n : Nat} {text rest : List Char} {c : Char}

/-- The number of delimiters that are open after one more character, if there was one open for
it to close. -/
def rise (opening closing : List Char) (n : Nat) (c : Char) : Option Nat :=
  if c ∈ opening then some (n + 1)
  else if c ∈ closing then if n = 0 then none else some (n - 1)
  else some n

/-- The number of delimiters that are open after a text, if none of them closes what is not
open. -/
def level (opening closing : List Char) (n : Nat) (text : List Char) : Option Nat :=
  text.foldlM (rise opening closing) n

theorem level_cons : level opening closing n (c :: rest) =
    (rise opening closing n c).bind fun m => level opening closing m rest := rfl

theorem level_append : level opening closing n (text ++ rest) =
    (level opening closing n text).bind fun m => level opening closing m rest :=
  List.foldlM_append

theorem level_of_others (others : ∀ c ∈ text, c ∉ opening ∧ c ∉ closing) :
    level opening closing n text = some n := by
  induction text with
  | nil => rfl
  | cons c text ih =>
      obtain ⟨noOpening, noClosing⟩ := others c (.head _)
      rw [level_cons, rise, if_neg noOpening, if_neg noClosing]
      exact ih fun d member => others d (.tail _ member)

end Level

/-! ## What closes a list -/

section Reading

variable {n fuel : Nat} {text rest left : List Char} {c : Char}

/-- What is left of a text after the parenthesis that closes a list some levels up. -/
def afterClose : Nat → List Char → Option (List Char)
  | _, [] => none
  | n, c :: rest =>
    if c = '(' then afterClose (n + 1) rest
    else if c = ')' then if n = 0 then some rest else afterClose (n - 1) rest
    else afterClose n rest

theorem afterClose_other (noOpen : c ≠ '(') (noClose : c ≠ ')') :
    afterClose n (c :: rest) = afterClose n rest := by
  rw [afterClose, if_neg noOpen, if_neg noClose]

theorem suffix_of_afterClose (closed : afterClose n text = some left) : left <:+ text := by
  induction text generalizing n with
  | nil => cases closed
  | cons c text ih =>
      rw [afterClose] at closed
      split at closed
      next => exact (ih closed).trans (List.suffix_cons c text)
      next =>
        split at closed
        next =>
          split at closed
          next =>
            cases closed
            exact List.suffix_cons _ _
          next => exact (ih closed).trans (List.suffix_cons c text)
        next => exact (ih closed).trans (List.suffix_cons c text)

/-- A list is closed after the lists in it. -/
theorem afterClose_succ (n : Nat) (text : List Char) :
    afterClose (n + 1) text = (afterClose n text).bind (afterClose 0) := by
  induction text generalizing n with
  | nil => rfl
  | cons c text ih =>
      rw [afterClose, afterClose]
      split
      next => exact ih (n + 1)
      next =>
        split
        next =>
          rw [if_neg n.succ_ne_zero]
          cases n with
          | zero => rfl
          | succ n => exact ih n
        next => exact ih n

/-- Lists that are open are closed one after the other. -/
theorem level_succ_eq_some_zero_iff (n : Nat) (text : List Char) :
    level ['('] [')'] (n + 1) text = some 0 ↔
      ∃ left, afterClose n text = some left ∧ level ['('] [')'] 0 left = some 0 := by
  induction text generalizing n with
  | nil =>
      constructor
      · exact nofun
      · rintro ⟨left, closed, -⟩
        cases closed
  | cons c text ih =>
      rw [level_cons, rise, afterClose]
      simp only [List.mem_singleton]
      split
      next => exact ih (n + 1)
      next =>
        split
        next =>
          rw [if_neg n.succ_ne_zero]
          cases n with
          | zero => simp
          | succ n => exact ih n
        next => exact ih n

/-! ## Readable texts -/

/-- Characters that are read one by one: parentheses, blanks and what stands in names. -/
def Readable (c : Char) : Prop := c ∈ ['(', ')', ' '] ∨ c.isAlpha = true ∨ c = '-'

/-- What a letter or a hyphen is not. -/
structure InName (c : Char) : Prop extends InWord c where
  noDot : c ≠ '.'

theorem inName_of_readable (name : c.isAlpha = true ∨ c = '-') : InName c where
  toInWord := inWord_of_alphanum (name.imp_left fun letter => by simp [Char.isAlphanum, letter])
  noDot := by
    rintro rfl
    rcases name with letter | hyphen
    · exact absurd letter (by decide)
    · exact absurd hyphen (by decide)

namespace InName

variable (name : InName c)
include name

theorem noneOf : c ∉ ['(', ')', '[', ']', '\'', '`', ',', '"', ';'] ∧ isBlank c = false := by
  have inside := name.inAtom
  unfold endsAtom at inside
  rw [Bool.or_eq_false_iff] at inside
  exact ⟨of_decide_eq_false inside.2, inside.1⟩

theorem startsForm : StartsForm (c :: rest) := by
  obtain ⟨noMark, visible⟩ := name.noneOf
  refine ⟨visible, ?_, ?_, ?_, fun dot => name.noDot dot.1⟩
  · rintro rfl
    exact noMark (by decide)
  · rintro rfl
    exact noMark (by decide)
  · rintro ⟨rfl, -⟩
    exact name.noMark (by decide)

end InName

/-- What is left of a text by what is read of it. -/
def leftOf : Except Error (Datum × Cursor) → Option (List Char)
  | .ok (_, after) => some after.rest
  | .error _ => none

/-- What is left of a text after the form at its front, unless the text starts with a blank or a
list ends there. -/
def afterForm : List Char → Option (List Char)
  | [] => none
  | c :: rest => if c = '(' then afterClose 0 rest else some (rest.dropWhile fun c => !endsAtom c)

theorem skip_space (rest : List Char) (offset : Nat) :
    Cursor.skip ⟨' ' :: rest, offset⟩ = Cursor.skip ⟨rest, offset + 1⟩ :=
  Cursor.skipFrom_blanks_cons offset (by decide) (fun _ number => absurd number (by decide))

theorem skip_close (rest : List Char) (offset : Nat) :
    Cursor.skip ⟨')' :: rest, offset⟩ = (⟨')' :: rest, offset⟩, true) :=
  Cursor.skipFrom_blanks_cons offset (by decide) (fun _ number => absurd number (by decide))

theorem readable_of_mem_suffix (readable : ∀ d ∈ text, Readable d) (suffix : left <:+ text) :
    ∀ d ∈ left, Readable d := fun d member => readable d (suffix.mem member)

theorem suffix_of_afterForm (formed : afterForm (c :: rest) = some left) : left <:+ rest := by
  rw [afterForm] at formed
  split at formed
  next => exact suffix_of_afterClose formed
  next =>
    cases formed
    exact List.dropWhile_suffix _

theorem ne_of_endsAtom (inside : endsAtom c = false) : c ≠ '(' ∧ c ≠ ')' := by
  constructor
  · rintro rfl
    cases inside
  · rintro rfl
    cases inside

/-- The rest of a name closes nothing. -/
theorem afterClose_dropWhile (n : Nat) (text : List Char) :
    afterClose n (text.dropWhile fun c => !endsAtom c) = afterClose n text := by
  induction text with
  | nil => rfl
  | cons c text ih =>
      cases inside : endsAtom c with
      | true => rw [List.dropWhile_cons_of_neg (by simp [inside])]
      | false =>
          obtain ⟨noOpen, noClose⟩ := ne_of_endsAtom inside
          rw [List.dropWhile_cons_of_pos (by simp [inside]), ih, afterClose_other noOpen noClose]

theorem level_dropWhile (n : Nat) (text : List Char) :
    level ['('] [')'] n (text.dropWhile fun c => !endsAtom c) = level ['('] [')'] n text := by
  induction text with
  | nil => rfl
  | cons c text ih =>
      cases inside : endsAtom c with
      | true => rw [List.dropWhile_cons_of_neg (by simp [inside])]
      | false =>
          obtain ⟨noOpen, noClose⟩ := ne_of_endsAtom inside
          rw [List.dropWhile_cons_of_pos (by simp [inside]), ih, level_cons, rise,
            if_neg (mt List.mem_singleton.mp noOpen), if_neg (mt List.mem_singleton.mp noClose)]
          rfl

/-- A list is closed after the form at the front of its rest. -/
theorem afterClose_form (noClose : c ≠ ')') :
    afterClose 0 (c :: rest) = (afterForm (c :: rest)).bind (afterClose 0) := by
  rw [afterForm]
  split
  next parenthesis =>
    subst parenthesis
    exact afterClose_succ 0 rest
  next noOpen =>
    rw [afterClose_other noOpen noClose]
    exact (afterClose_dropWhile 0 rest).symm

theorem level_form_eq_some_zero_iff (noClose : c ≠ ')') :
    level ['('] [')'] 0 (c :: rest) = some 0 ↔
      ∃ left, afterForm (c :: rest) = some left ∧ level ['('] [')'] 0 left = some 0 := by
  rw [afterForm]
  split
  next parenthesis =>
    subst parenthesis
    exact level_succ_eq_some_zero_iff 0 rest
  next noOpen =>
    rw [level_cons, rise, if_neg (by simpa using noOpen), if_neg (by simpa using noClose)]
    show level ['('] [')'] 0 rest = some 0 ↔ _
    simp [level_dropWhile]

theorem unquoted_of_readable (readable : ∀ d ∈ text, Readable d) :
    '\\' ∉ text.takeWhile fun c => !endsAtom c := by
  intro member
  rcases readable _ ((List.takeWhile_prefix _).subset member) with delimiter | letter | hyphen
  · exact absurd delimiter (by decide)
  · exact absurd letter (by decide)
  · exact absurd hyphen (by decide)

theorem leftOf_readForm_name (name : InName c) (readable : ∀ d ∈ c :: rest, Readable d)
    (offset : Nat) :
    leftOf (readForm (fuel + 1) ⟨c :: rest, offset⟩) =
      some (rest.dropWhile fun c => !endsAtom c) := by
  have noFunction : ¬(c = '#' ∧ rest.head? = some '\'') := by
    rintro ⟨rfl, -⟩
    exact name.noMark (by decide)
  have atom : readForm (fuel + 1) ⟨c :: rest, offset⟩ = readAtom ⟨c :: rest, offset⟩ :=
    readForm_atom name.startsForm name.noneOf.1 noFunction fuel offset
  obtain ⟨offset', read⟩ := atomText_unquoted (unquoted_of_readable readable) offset []
  rw [List.takeWhile_cons_of_pos (by simp [name.inAtom]),
    List.dropWhile_cons_of_pos (by simp [name.inAtom])] at read
  rw [atom, readAtom]
  simp only [read]
  rfl

theorem startsForm_of_readable (readable : Readable c) (noSpace : c ≠ ' ') (noClose : c ≠ ')') :
    StartsForm (c :: rest) := by
  rcases readable with delimiter | name
  · rcases List.mem_cons.mp delimiter with rfl | others
    · exact startsForm_of_mark (by decide)
    · rcases List.mem_cons.mp others with rfl | space
      · exact absurd rfl noClose
      · exact absurd (List.mem_singleton.mp space) noSpace
  · exact (inName_of_readable name).startsForm

theorem leftOf_readItems_cons (starts : StartsForm (c :: rest)) (offset : Nat)
    (items : List Datum) :
    leftOf (readItems (fuel + 1) ⟨c :: rest, offset⟩ items) =
      match readForm fuel ⟨c :: rest, offset⟩ with
      | .error _ => none
      | .ok (item, after) => leftOf (readItems fuel after (item :: items)) := by
  cases read : readForm fuel ⟨c :: rest, offset⟩ with
  | ok result =>
      obtain ⟨item, after⟩ := result
      rw [readItems_item items (congrArg Prod.fst (starts.skip offset)) starts read]
  | error e =>
      have skipped := starts.skip offset
      obtain ⟨-, -, no_close, -, no_dot⟩ := starts
      have not_dotted : ¬(c = '.' ∧ isDotSeparator rest.head? = true ∧ (!items.isEmpty) = true) :=
        fun dotted => no_dot ⟨dotted.1, dotted.2.1⟩
      rw [readItems.eq_2]
      simp only [skipped, if_neg not_dotted, read]
      rfl

mutual

/-- A form is read up to its end, if it has one. -/
theorem leftOf_readForm {fuel : Nat} {c : Char} {rest : List Char}
    (readable : ∀ d ∈ c :: rest, Readable d) (noSpace : c ≠ ' ') (noClose : c ≠ ')')
    (enough : 2 * (rest.length + 1) ≤ fuel) (offset : Nat) :
    leftOf (readForm fuel ⟨c :: rest, offset⟩) = afterForm (c :: rest) := by
  obtain ⟨fuel, rfl⟩ : ∃ f, fuel = f + 1 := ⟨fuel - 1, by omega⟩
  by_cases parenthesis : c = '('
  · subst parenthesis
    have opens :
        readForm (fuel + 1) ⟨'(' :: rest, offset⟩ = readItems fuel ⟨rest, offset + 1⟩ [] := by
      rw [readForm.eq_2, (startsForm_of_readable (readable _ (.head _)) noSpace noClose).skip]
      rfl
    rw [opens, afterForm, if_pos rfl]
    exact leftOf_readItems (fun d member => readable d (.tail _ member)) (by omega) _ []
  · have name : InName c := inName_of_readable <| (readable c (.head _)).resolve_left
      fun delimiter => by simp [parenthesis, noSpace, noClose] at delimiter
    rw [leftOf_readForm_name name readable, afterForm, if_neg parenthesis]
termination_by fuel + (rest.length + 1)
decreasing_by
  all_goals
    subst_vars
    omega

/-- A list is read up to the parenthesis that closes it, if there is one. -/
theorem leftOf_readItems {fuel : Nat} {text : List Char} (readable : ∀ d ∈ text, Readable d)
    (enough : 2 * text.length + 1 ≤ fuel) (offset : Nat) (items : List Datum) :
    leftOf (readItems fuel ⟨text, offset⟩ items) = afterClose 0 text := by
  obtain ⟨fuel, rfl⟩ : ∃ f, fuel = f + 1 := ⟨fuel - 1, by omega⟩
  cases text with
  | nil =>
      rw [readItems.eq_2]
      rfl
  | cons c rest =>
      have later : ∀ d ∈ rest, Readable d := fun d member => readable d (.tail _ member)
      rw [List.length_cons] at enough
      by_cases space : c = ' '
      -- a blank is skipped with the counter unchanged, so the recursion is on the text as well
      · subst space
        have skipped : readItems (fuel + 1) ⟨' ' :: rest, offset⟩ items =
            readItems (fuel + 1) ⟨rest, offset + 1⟩ items := by
          rw [readItems.eq_2, readItems.eq_2, skip_space]
        rw [skipped, afterClose_other (by decide) (by decide)]
        exact leftOf_readItems later (by omega) _ items
      · by_cases close : c = ')'
        · subst close
          rw [readItems.eq_2, skip_close]
          rfl
        · have starts : StartsForm (c :: rest) :=
            startsForm_of_readable (readable c (.head _)) space close
          have formed := leftOf_readForm readable space close (by omega : _ ≤ fuel) offset
          rw [leftOf_readItems_cons starts, afterClose_form close, ← formed]
          cases read : readForm fuel ⟨c :: rest, offset⟩ with
          | error e => rfl
          | ok result =>
              obtain ⟨item, after⟩ := result
              rw [read] at formed
              have suffix : after.rest <:+ rest := suffix_of_afterForm formed.symm
              have shorter := suffix.length_le
              exact leftOf_readItems (readable_of_mem_suffix later suffix) (by omega)
                after.offset (item :: items)
termination_by fuel + text.length
decreasing_by
  all_goals
    subst_vars
    simp only [List.length_cons]
    omega

end

theorem readAllFrom_space (rest : List Char) (offset : Nat) (forms : List Datum) :
    readAllFrom (fuel + 1) ⟨' ' :: rest, offset⟩ forms =
      readAllFrom (fuel + 1) ⟨rest, offset + 1⟩ forms := by
  rw [readAllFrom, readAllFrom, skip_space]

theorem readAllFrom_cons {offset : Nat} {forms : List Datum}
    (visible : Cursor.skip ⟨c :: rest, offset⟩ = (⟨c :: rest, offset⟩, true)) :
    readAllFrom (fuel + 1) ⟨c :: rest, offset⟩ forms =
      (Cursor.readForm ⟨c :: rest, offset⟩).bind fun read =>
        readAllFrom fuel read.2 (read.1 :: forms) := by
  rw [readAllFrom, visible]
  simp only
  cases Cursor.readForm ⟨c :: rest, offset⟩ <;> rfl

/-- A readable text is read if all lists in it are closed and nothing else is. -/
theorem readAllFrom_ok_iff {fuel : Nat} {text : List Char} (readable : ∀ d ∈ text, Readable d)
    (enough : text.length < fuel) (offset : Nat) (forms : List Datum) :
    (∃ all, readAllFrom fuel ⟨text, offset⟩ forms = .ok all) ↔
      level ['('] [')'] 0 text = some 0 := by
  obtain ⟨fuel, rfl⟩ : ∃ f, fuel = f + 1 := ⟨fuel - 1, by omega⟩
  cases text with
  | nil => exact ⟨fun _ => rfl, fun _ => ⟨forms.reverse, rfl⟩⟩
  | cons c rest =>
      have later : ∀ d ∈ rest, Readable d := fun d member => readable d (.tail _ member)
      rw [List.length_cons] at enough
      by_cases space : c = ' '
      · subst space
        rw [readAllFrom_space, level_cons]
        exact readAllFrom_ok_iff later (by omega) (offset + 1) forms
      · by_cases close : c = ')'
        · subst close
          have fails : Cursor.readForm ⟨')' :: rest, offset⟩ = .error ⟨.unexpectedClose, offset⟩ := by
            unfold Cursor.readForm
            rw [readForm.eq_2, skip_close]
            rfl
          rw [readAllFrom_cons (skip_close rest offset), fails]
          exact ⟨nofun, nofun⟩
        · have starts : StartsForm (c :: rest) :=
            startsForm_of_readable (readable c (.head _)) space close
          have formed := leftOf_readForm readable space close
            (Nat.le_add_right (2 * (c :: rest).length) 2) offset
          rw [readAllFrom_cons (starts.skip offset), level_form_eq_some_zero_iff close, ← formed]
          unfold Cursor.readForm
          cases read : readForm (2 * (c :: rest).length + 2) ⟨c :: rest, offset⟩ with
          | error e => simp [leftOf, Except.bind]
          | ok result =>
              obtain ⟨form, after⟩ := result
              rw [read] at formed
              have suffix : after.rest <:+ rest := suffix_of_afterForm formed.symm
              have shorter := suffix.length_le
              have others := readAllFrom_ok_iff (readable_of_mem_suffix later suffix)
                (by omega : _ < fuel) after.offset (form :: forms)
              simpa [leftOf, Except.bind] using others
termination_by fuel + text.length
decreasing_by
  all_goals
    subst_vars
    simp only [List.length_cons]
    omega

end Reading

/-! ## What the pass writes -/

section Passing

variable {text rest : List Char} {c : Char} {scan : Scan} {fuel : Nat}

/-- Characters of a text of letters, blanks and delimiters. -/
def Delimited (c : Char) : Prop := c ∈ ['(', ')', '[', ']', ' '] ∨ c.isAlpha = true

/-- Whether a text is one of these can be computed. -/
theorem delimited_of_all
    (all : (text.all fun c => c ∈ ['(', ')', '[', ']', ' '] || c.isAlpha) = true) :
    ∀ c ∈ text, Delimited c := by
  intro c member
  have allowed := List.all_eq_true.mp all c member
  rwa [Bool.or_eq_true, decide_eq_true_eq] at allowed

theorem readable_of_expanded {written : String}
    (all : (written.toList.all fun c => c ∈ ['(', ')', ' '] || c.isAlpha || c == '-') = true) :
    ∀ d ∈ written.toList, Readable d := by
  intro d member
  have allowed := List.all_eq_true.mp all d member
  simpa [Readable, or_assoc] using allowed

theorem Delimited.isAlpha (delimited : Delimited c) (symbol : isSymbolChar c = true) :
    c.isAlpha = true := by
  refine delimited.resolve_left fun mark => ?_
  have none : (['(', ')', '[', ']', ' '].all fun c => !isSymbolChar c) = true := by decide
  have noSymbol := List.all_eq_true.mp none c mark
  rw [symbol] at noSymbol
  cases noSymbol

theorem Delimited.eq_space (delimited : Delimited c) (blank : isCallBlank c = true) : c = ' ' := by
  rcases delimited with mark | letter
  · have only : (['(', ')', '[', ']', ' '].all fun c => !isCallBlank c || c == ' ') = true := by
      decide
    have isSpace := List.all_eq_true.mp only c mark
    rw [blank] at isSpace
    exact beq_iff_eq.mp isSpace
  · have noBlank := (inName_of_readable (.inl letter)).noBlank
    rw [blank] at noBlank
    cases noBlank

/-- A name of letters is written differently in one call only. -/
theorem eq_of_lookup_renamedCalls {word replacement : String} (noHyphen : '-' ∉ word.toList)
    (known : renamedCalls.lookup word = some replacement) : replacement = "(el-point" := by
  obtain ⟨before, after, entries, -⟩ := List.lookup_eq_some_iff.mp known
  have member : (word, replacement) ∈ renamedCalls := by
    rw [entries]
    exact List.mem_append_right _ List.mem_cons_self
  simp only [renamedCalls, List.mem_cons, List.not_mem_nil, or_false, Prod.mk.injEq] at member
  rcases member with ⟨-, rfl⟩ | ⟨rfl, -⟩
  · rfl
  · exact absurd (by decide) noHyphen

theorem take_append_of_prefix {α : Type} {front next all : List α} (first : front <+: all)
    (second : next <+: all.drop front.length) :
    all.take (front.length + next.length) = front ++ next := by
  rw [List.take_add, ← List.prefix_iff_eq_take.mp first, ← List.prefix_iff_eq_take.mp second]

/-- A call that is written differently is one of a name of letters. -/
theorem renamedCall?_delimited (delimited : ∀ d ∈ rest, Delimited d) {replacement : String}
    {used : Nat} (found : renamedCall? ('(' :: rest) = some (replacement, used)) :
    replacement = "(el-point" ∧
      ∃ skipped, ('(' :: rest).take used = '(' :: skipped ∧
        ∀ d ∈ skipped, d = ' ' ∨ d.isAlpha = true := by
  unfold renamedCall? at found
  simp only [List.drop_succ_cons, List.drop_zero] at found
  split at found
  next =>
    obtain ⟨text, known, pair⟩ := Option.map_eq_some_iff.mp found
    cases pair
    generalize blanks_eq : rest.takeWhile isCallBlank = blanks at known ⊢
    generalize word_eq : (rest.drop blanks.length).takeWhile isSymbolChar = word at known ⊢
    have blanksFront : blanks <+: rest := blanks_eq ▸ List.takeWhile_prefix _
    have wordFront : word <+: rest.drop blanks.length := word_eq ▸ List.takeWhile_prefix _
    have spaces : ∀ d ∈ blanks, d = ' ' := fun d member =>
      (delimited d (blanksFront.subset member)).eq_space
        (List.mem_takeWhile_imp (blanks_eq ▸ member))
    have letters : ∀ d ∈ word, d.isAlpha = true := fun d member =>
      (delimited d (List.mem_of_mem_drop (wordFront.subset member))).isAlpha
        (List.mem_takeWhile_imp (word_eq ▸ member))
    refine ⟨?_, blanks ++ word, ?_, fun d member => ?_⟩
    · refine eq_of_lookup_renamedCalls (fun hyphen => ?_) known
      rw [String.toList_ofList] at hyphen
      exact absurd (letters '-' hyphen) (by decide)
    · rw [Nat.add_assoc, Nat.add_comm 1, List.take_succ_cons,
        take_append_of_prefix blanksFront wordFront]
    · exact (List.mem_append.mp member).imp (spaces d) (letters d)
  next => cases found

/-- What is copied is readable. -/
theorem copied_of_delimited (delimited : Delimited c) (noParenthesis : c ≠ '(')
    (noOpen : c ≠ '[') (noClose : c ≠ ']') : Readable c ∧ c ∉ marks ∧ c.isDigit = false := by
  rcases delimited with mark | letter
  · simp only [List.mem_cons, List.not_mem_nil, noParenthesis, noOpen, noClose, or_false,
      false_or] at mark
    rcases mark with rfl | rfl
    · exact ⟨.inl (by decide), by decide, by decide⟩
    · exact ⟨.inl (by decide), by decide, by decide⟩
  · refine ⟨.inr (.inl letter), (inName_of_readable (.inl letter)).noMark, ?_⟩
    cases digit : c.isDigit with
    | false => rfl
    | true => rw [isAlpha_of_isDigit digit] at letter; cases letter

/-- What a token of such a text becomes: readable text that opens and closes as many parentheses
as the token does parentheses and brackets.  The token is one character and perhaps a name after
it. -/
theorem expandToken_delimited (delimited : ∀ d ∈ c :: rest, Delimited d) (offset : Nat)
    (prev : Option Char) :
    ∃ written used skipped, expandToken offset prev (c :: rest) = (written, used, .code) ∧
      Takes used (c :: rest) ∧ (c :: rest).take used = c :: skipped ∧
      (∀ d ∈ skipped, d = ' ' ∨ d.isAlpha = true) ∧ (∀ d ∈ written.toList, Readable d) ∧
      ∀ n, level ['('] [')'] n written.toList = rise ['(', '['] [')', ']'] n c := by
  have later : ∀ d ∈ rest, Delimited d := fun d member => delimited d (.tail _ member)
  by_cases parenthesis : c = '('
  · subst parenthesis
    cases found : renamedCall? ('(' :: rest) with
    | none =>
        refine ⟨"(", 1, [], ?_, takes_one _ _, rfl, by simp, readable_of_expanded (by decide), ?_⟩
        · unfold expandToken
          simp only [found]
        · exact fun n => rfl
    | some call =>
        obtain ⟨replacement, used⟩ := call
        obtain ⟨rfl, skipped, taken, name⟩ := renamedCall?_delimited later found
        refine ⟨"(el-point", used, skipped, ?_, takes_renamedCall found, taken, name,
          readable_of_expanded (by decide), fun n => rfl⟩
        unfold expandToken
        simp only [found]
  · by_cases bracket : c = '[' ∨ c = ']'
    · rcases bracket with rfl | rfl
      · exact ⟨"(vector-literal ", 1, [], rfl, takes_one _ _, rfl, by simp,
          readable_of_expanded (by decide), fun n => rfl⟩
      · refine ⟨")", 1, [], rfl, takes_one _ _, rfl, by simp, readable_of_expanded (by decide), ?_⟩
        rintro (_ | n)
        · rfl
        · rfl
    · obtain ⟨noOpen, noClose⟩ := not_or.mp bracket
      obtain ⟨readable, noMark, noDigit⟩ :=
        copied_of_delimited (delimited c (.head _)) parenthesis noOpen noClose
      have copied := expandToken_character noMark noDigit prev rest offset
      refine ⟨c.toString, 1, [], copied, takes_one _ _, rfl, by simp, ?_, fun n => ?_⟩
      · intro d member
        rw [Char.toString_eq_singleton, String.toList_singleton, List.mem_singleton] at member
        rwa [member]
      · rw [Char.toString_eq_singleton, String.toList_singleton, level_cons, rise, rise]
        simp [parenthesis, noOpen, noClose, level]

/-- The brackets that are open after a token. -/
def Scan.opened (scan : Scan) (c : Char) : List Nat :=
  if c = '[' then scan.offset :: scan.openBrackets
  else if c = ']' then scan.openBrackets.tail
  else scan.openBrackets

theorem Scan.rise_openBrackets (matched : ¬(c = ']' ∧ scan.openBrackets = [])) :
    rise ['['] [']'] scan.openBrackets.length c = some (scan.opened c).length := by
  unfold rise opened
  simp only [List.mem_singleton]
  split
  next => rfl
  next =>
    split
    next close =>
      have some_open : scan.openBrackets ≠ [] := fun none => matched ⟨close, none⟩
      rw [if_neg (mt List.length_eq_zero_iff.mp some_open), List.length_tail]
    next => rfl

theorem Scan.step_code (code : scan.mode = .code) (matched : ¬(c = ']' ∧ scan.openBrackets = []))
    {written : String} {used : Nat}
    (token : expandToken scan.offset scan.prev (c :: rest) = (written, used, .code)) :
    scan.step (c :: rest) =
      .ok ({ mode := .code, openBrackets := scan.opened c, prev := lastOf used (c :: rest),
             offset := scan.offset + used, out := scan.out ++ written },
        (c :: rest).drop used) := by
  unfold Scan.step
  simp only [code, if_neg matched, token]
  rfl

/-- What is known of the pass over a text of letters, blanks and delimiters. -/
structure Counts (scan : Scan) (text : List Char) (result : Except Error Scan) : Prop where
  /-- It gets through if no bracket closes what is not open. -/
  brackets : result.toOption.map (fun final => final.openBrackets.length) =
    level ['['] [']'] scan.openBrackets.length text
  /-- What it writes is readable and opens and closes as many parentheses as the text does
  parentheses and brackets. -/
  writes : ∀ final, result = .ok final → final.mode = .code ∧
    ∃ written, final.out.toList = scan.out.toList ++ written ∧ (∀ d ∈ written, Readable d) ∧
      ∀ n, level ['('] [')'] n written = level ['(', '['] [')', ']'] n text

theorem Counts.nil (code : scan.mode = .code) : Counts scan [] (.ok scan) where
  brackets := rfl
  writes final same := by
    cases same
    exact ⟨code, [], (List.append_nil _).symm, nofun, fun _ => rfl⟩

/-- Of a token only the first character counts. -/
theorem level_token {opening closing skipped : List Char} {used : Nat}
    (front : (c :: rest).take used = c :: skipped)
    (name : ∀ d ∈ skipped, d = ' ' ∨ d.isAlpha = true)
    (delimiters : ((opening ++ closing).all fun d => d != ' ' && !d.isAlpha) = true) (n : Nat) :
    level opening closing n (c :: rest) = (rise opening closing n c).bind fun m =>
      level opening closing m ((c :: rest).drop used) := by
  have others : ∀ d ∈ skipped, d ∉ opening ∧ d ∉ closing := by
    intro d member
    have no (delimiter : d ∈ opening ++ closing) : False := by
      have checked := List.all_eq_true.mp delimiters d delimiter
      rw [Bool.and_eq_true, bne_iff_ne, Bool.not_eq_true'] at checked
      rcases name d member with space | letter
      · exact checked.1 space
      · rw [checked.2] at letter
        cases letter
    exact ⟨fun inside => no (List.mem_append_left _ inside),
      fun inside => no (List.mem_append_right _ inside)⟩
  have parts : c :: rest = c :: (skipped ++ (c :: rest).drop used) := by
    rw [← List.cons_append, ← front, List.take_append_drop]
  calc level opening closing n (c :: rest)
      = level opening closing n (c :: (skipped ++ (c :: rest).drop used)) :=
        congrArg (level opening closing n) parts
    _ = (rise opening closing n c).bind fun m =>
          level opening closing m (skipped ++ (c :: rest).drop used) := rfl
    _ = _ := by
        refine Option.bind_congr fun m _ => ?_
        rw [level_append, level_of_others others]
        rfl

/-- The pass gets through a text of letters, blanks and delimiters if no bracket closes what is
not open, and counts what it writes. -/
theorem counts_expandFrom (delimited : ∀ d ∈ text, Delimited d) (enough : text.length ≤ fuel)
    (code : scan.mode = .code) : Counts scan text (expandFrom fuel scan text) := by
  induction fuel generalizing text scan with
  | zero =>
      obtain rfl := List.length_eq_zero_iff.mp (Nat.le_zero.mp enough)
      exact .nil code
  | succ fuel ih =>
      cases text with
      | nil => exact .nil code
      | cons c rest =>
          rw [expandFrom_cons]
          by_cases unmatched : c = ']' ∧ scan.openBrackets = []
          · have fails : scan.step (c :: rest) =
                .error ⟨.unmatchedClosingBracket, scan.offset⟩ := by
              unfold Scan.step
              simp only [code, if_pos unmatched]
            rw [fails]
            obtain ⟨rfl, none⟩ := unmatched
            refine ⟨?_, nofun⟩
            rw [none]
            rfl
          · obtain ⟨written, used, skipped, token, taken, front, name, readable, counts⟩ :=
              expandToken_delimited delimited scan.offset scan.prev
            have left := taken.length_drop_le
            have later : ∀ d ∈ (c :: rest).drop used, Delimited d :=
              fun d member => delimited d (List.mem_of_mem_drop member)
            rw [Scan.step_code code unmatched token]
            -- the counts of the text are those of the token and of what is left after it
            let next : Scan :=
              { mode := .code, openBrackets := scan.opened c, prev := lastOf used (c :: rest),
                offset := scan.offset + used, out := scan.out ++ written }
            have goesOn : next.mode = .code := rfl
            obtain ⟨brackets, writes⟩ :=
              ih later (left.trans (Nat.le_of_succ_le_succ enough)) goesOn
            refine ⟨?_, fun final run => ?_⟩
            · rw [level_token front name (by decide), Scan.rise_openBrackets unmatched]
              exact brackets
            · obtain ⟨mode, more, out, readableMore, countsMore⟩ := writes final run
              refine ⟨mode, written.toList ++ more, ?_, ?_, fun n => ?_⟩
              · rw [out, String.toList_append, List.append_assoc]
              · intro d member
                exact (List.mem_append.mp member).elim (readable d) (readableMore d)
              · rw [level_append, counts, level_token front name (by decide)]
                exact Option.bind_congr fun m _ => countsMore m

end Passing

/-! ## What is read -/

/-- The delimiters of a text are nested, after some that are still open, innermost first. -/
def nestedFrom : List Char → List Char → Bool
  | opened, [] => opened.isEmpty
  | opened, c :: rest =>
    if c = '(' ∨ c = '[' then nestedFrom (c :: opened) rest
    else if c = ')' then opened.head? == some '(' && nestedFrom opened.tail rest
    else if c = ']' then opened.head? == some '[' && nestedFrom opened.tail rest
    else nestedFrom opened rest

/-- Every delimiter that closes closes the last one that was left open, which is of its kind, and
in the end none is left open. -/
def nested (text : List Char) : Bool := nestedFrom [] text

/-- In a nested text both counts go on to zero. -/
theorem levels_of_nestedFrom {opened text : List Char} (nested : nestedFrom opened text = true) :
    level ['(', '['] [')', ']'] opened.length text = some 0 ∧
      level ['['] [']'] (opened.count '[') text = some 0 := by
  induction text generalizing opened with
  | nil =>
      obtain rfl := List.isEmpty_iff.mp nested
      exact ⟨rfl, rfl⟩
  | cons c text ih =>
      rw [nestedFrom] at nested
      rw [level_cons, level_cons]
      split at nested
      next opens =>
        obtain ⟨both, brackets⟩ := ih nested
        rcases opens with rfl | rfl
        · rw [List.count_cons_of_ne (by decide)] at brackets
          exact ⟨both, brackets⟩
        · rw [List.count_cons_self] at brackets
          exact ⟨both, brackets⟩
      next other =>
        obtain ⟨noParenthesis, noBracket⟩ := not_or.mp other
        split at nested
        next close =>
          subst close
          rw [Bool.and_eq_true, beq_iff_eq] at nested
          obtain ⟨last, nested⟩ := nested
          obtain ⟨opened, rfl⟩ := List.head?_eq_some_iff.mp last
          exact ih nested
        next noClose =>
          split at nested
          next close =>
            subst close
            rw [Bool.and_eq_true, beq_iff_eq] at nested
            obtain ⟨last, nested⟩ := nested
            obtain ⟨opened, rfl⟩ := List.head?_eq_some_iff.mp last
            rw [List.count_cons_self]
            exact ih nested
          next noClosing =>
            have unchanged : rise ['(', '['] [')', ']'] opened.length c = some opened.length := by
              simp [rise, noParenthesis, noBracket, noClose, noClosing]
            have unchanged' : rise ['['] [']'] (opened.count '[') c = some (opened.count '[') := by
              simp [rise, noBracket, noClosing]
            rw [unchanged, unchanged']
            exact ih nested

/-- What is read is decided by two counts. -/
theorem readSource_ok_iff {source : String} (delimited : ∀ c ∈ source.toList, Delimited c) :
    (∃ forms, readSource source = .ok forms) ↔
      level ['(', '['] [')', ']'] 0 source.toList = some 0 ∧
        level ['['] [']'] 0 source.toList = some 0 := by
  have counts : Counts {} source.toList (expandFrom source.toList.length {} source.toList) :=
    counts_expandFrom delimited (Nat.le_refl _) rfl
  obtain ⟨brackets, writes⟩ := counts
  have read {out : String} (readable : ∀ d ∈ out.toList, Readable d) :
      (∃ forms, readExpanded out = .ok forms) ↔ level ['('] [')'] 0 out.toList = some 0 :=
    readAllFrom_ok_iff readable (by rw [String.length_toList]; exact Nat.lt_succ_self _) 0 []
  constructor
  · rintro ⟨forms, ok⟩
    obtain ⟨out, expanded, ok⟩ := readSource_eq_ok_iff.mp ok
    obtain ⟨final, run, -, closed, rfl⟩ := expand_eq_ok_iff.mp expanded
    obtain ⟨-, written, out_eq, readable, same⟩ := writes final run
    rw [show ({} : Scan).out.toList ++ written = written from rfl] at out_eq
    rw [run] at brackets
    refine ⟨?_, brackets.symm.trans ?_⟩
    · rw [← same, ← out_eq]
      exact (read (out_eq ▸ readable)).mp ⟨forms, ok⟩
    · show some final.openBrackets.length = some 0
      rw [closed, List.length_nil]
  · rintro ⟨both, closed⟩
    rw [show ({} : Scan).openBrackets.length = 0 from rfl, closed] at brackets
    cases run : expandFrom source.toList.length {} source.toList with
    | error e =>
        rw [run] at brackets
        cases brackets
    | ok final =>
        obtain ⟨code, written, out_eq, readable, same⟩ := writes final run
        rw [show ({} : Scan).out.toList ++ written = written from rfl] at out_eq
        rw [run] at brackets
        have closed : final.openBrackets = [] :=
          List.length_eq_zero_iff.mp (Option.some.inj brackets)
        have expanded := expand_eq_ok_iff.mpr ⟨final, run, .inl code, closed, rfl⟩
        obtain ⟨forms, ok⟩ := (read (out_eq ▸ readable)).mpr (by rw [out_eq, same, both])
        exact ⟨forms, readSource_eq_ok_iff.mpr ⟨final.out, expanded, ok⟩⟩

/-- A text of letters, blanks and delimiters is read if and only if parentheses and brackets taken
alike are nested and the brackets alone are nested too.  So every text is read in which each
delimiter closes one of its kind. -/
theorem readSource_ok_iff_levels {source : String} (delimited : ∀ c ∈ source.toList, Delimited c) :
    ((∃ forms, readSource source = .ok forms) ↔
      level ['(', '['] [')', ']'] 0 source.toList = some 0 ∧
        level ['['] [']'] 0 source.toList = some 0) ∧
      (nested source.toList = true → ∃ forms, readSource source = .ok forms) := by
  have iff := readSource_ok_iff delimited
  exact ⟨iff, fun nested => iff.mpr (levels_of_nestedFrom nested)⟩

/-- Names, a call that is written differently, and all delimiters in each other. -/
theorem readSource_nested :
    (∀ c ∈ "(a [b (point)] []) c".toList, Delimited c) ∧
      ∃ forms, readSource "(a [b (point)] []) c" = .ok forms := by
  have delimited : ∀ c ∈ "(a [b (point)] []) c".toList, Delimited c :=
    delimited_of_all (by decide)
  exact ⟨delimited, (readSource_ok_iff_levels delimited).2 (by decide)⟩

/-- A bracket and a parenthesis that cross are read, although neither closes the delimiter that
was opened last. -/
theorem readSource_crossed :
    (∀ c ∈ "([)]".toList, Delimited c) ∧ nested "([)]".toList = false ∧
      ∃ forms, readSource "([)]" = .ok forms := by
  have delimited : ∀ c ∈ "([)]".toList, Delimited c := delimited_of_all (by decide)
  exact ⟨delimited, by decide, (readSource_ok_iff delimited).mpr (by decide)⟩

end EditorLisp.Source
