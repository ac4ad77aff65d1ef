import EditorLisp.Proofs.Number.Numeral
import EditorLisp.Proofs.Primitives.Literal

/-!
# Integers formatted and read back

The directive of an integer lays out a sign and a word of digits: the precision puts zeros before
the digits, and the width fills what is left with zeros behind the sign or with blanks on either
side.  Whatever the flags are, the text still shows the integer, so that reading the number at its
front gives the integer back, the least one included, and the text is as long as the width asks for
unless it is longer without one.

A width or a precision that does not fit a machine word is passed over.  One that fits but asks for
a text of more than `Format.maxLength` characters ends the run.
-/

namespace EditorLisp.Format

open Number

theorem ok_of_toOption {ε α : Type} {result : Except ε α} {a : α}
    (returned : result.toOption = some a) : result = .ok a := by
  cases result with
  | error fault => cases returned
  | ok b => rw [Option.some.inj returned]

/-! ## Layout -/

section Layout

variable {d : Directive} {n : Int64} {z : Int} {m radix : Nat} {letter : Char} {body : String}
  {word : List Char} {negative : Bool}

/-- The letters of the directives for integers, with their radices. -/
inductive IntegerLetter : Char → Nat → Prop where
  | decimal : IntegerLetter 'd' 10
  | octal : IntegerLetter 'o' 8
  | hexadecimal : IntegerLetter 'x' 16
  | capital : IntegerLetter 'X' 16

/-- The digits are written in some form that keeps their values. -/
theorem IntegerLetter.exists_form (isLetter : IntegerLetter letter radix) :
    ∃ form : Char → Char, (∀ d < radix, digitValue? radix (form d.digitChar) = some d) ∧
      ∀ m, (digitsIn letter m).toList = (Nat.toDigits radix m).map form := by
  have plain (base : Nat) (small : base ≤ 16) :
      ∀ d < base, digitValue? base (id d.digitChar) = some d := fun d below =>
    (digitValue?_digitChar base small d below).1
  have written (base m : Nat) :
      (String.ofList (Nat.toDigits base m)).toList = (Nat.toDigits base m).map id := by
    rw [String.toList_ofList, List.map_id]
  cases isLetter with
  | decimal => exact ⟨id, plain 10 (by decide), written 10⟩
  | octal => exact ⟨id, plain 8 (by decide), written 8⟩
  | hexadecimal => exact ⟨id, plain 16 (by decide), written 16⟩
  | capital =>
      exact ⟨Char.toUpper, fun d below => (digitValue?_digitChar 16 (by decide) d below).2,
        fun m => String.toList_ofList⟩

theorem IntegerLetter.spells (isLetter : IntegerLetter letter radix) (m : Nat) :
    Spells radix (digitsIn letter m).toList m := by
  obtain ⟨form, kept, written⟩ := isLetter.exists_form
  have large : 1 < radix := by cases isLetter <;> decide
  rw [written]
  exact spells_map_toDigits large kept m

theorem IntegerLetter.length_digitsIn (isLetter : IntegerLetter letter radix) (m : Nat) :
    (digitsIn letter m).length = (Nat.toDigits radix m).length := by
  obtain ⟨form, -, written⟩ := isLetter.exists_form
  rw [← String.length_toList, written, List.length_map]

/-- The sign of a number is one that a reader knows or the blank in place of a plus sign. -/
theorem Directive.sign_cases (d : Directive) (negative : Bool) :
    IsSign negative (d.sign negative).toList ∨
      negative = false ∧ (d.sign negative).toList = [' '] := by
  unfold sign
  cases negative with
  | true =>
      rw [if_pos rfl]
      exact .inl .minus
  | false =>
      rw [if_neg Bool.false_ne_true]
      split
      next => exact .inl .plus
      next =>
        split
        next => exact .inr ⟨rfl, rfl⟩
        next => exact .inl .none

theorem Directive.shows_sign (d : Directive) (spells : Spells radix word z.natAbs) :
    Shows radix z ((d.sign (decide (z < 0))).toList ++ word) := by
  obtain signed | ⟨positive, blank⟩ := d.sign_cases (decide (z < 0))
  · have shows : Shows radix z _ := .intro 0 0 signed spells
    rwa [List.replicate_zero, List.nil_append, List.append_nil] at shows
  · have unsigned : IsSign (decide (z < 0)) [] := positive ▸ .none
    have shows : Shows radix z _ := .intro 1 0 unsigned spells
    rw [blank]
    rwa [List.replicate_zero, List.nil_append, List.append_nil] at shows

/-- Filling with zeros, a number is taken apart into its sign and its digits. -/
theorem splitSign_sign (d : Directive) (negative : Bool) (spells : Spells radix word m) :
    splitSign ((d.sign negative).toList ++ word) = ((d.sign negative).toList, word) := by
  obtain signed | ⟨-, blank⟩ := d.sign_cases negative
  · generalize (d.sign negative).toList = sign at signed
    cases signed with
    | minus => rfl
    | plus => rfl
    | none =>
        obtain ⟨c, word, rfl, digit⟩ := spells.exists_cons
        have ordinary := ne_sign_of_isDigit digit
        unfold splitSign
        split
        next h => exact absurd (List.cons.inj h).1 ordinary.1
        next h => exact absurd (List.cons.inj h).1 ordinary.2
        next h =>
          rw [(List.cons.inj h).1, not_isDigit_blank] at digit
          exact absurd digit Bool.false_ne_true
        next => rfl
  · rw [blank]
    rfl

theorem toList_copies (c : Char) (count : Nat) : (copies c count).toList = List.replicate count c :=
  String.toList_ofList

theorem length_copies (c : Char) (count : Nat) : (copies c count).length = count := by
  rw [← String.length_toList, toList_copies, List.length_replicate]

/-- All characters that a number is written with take one byte. -/
theorem utf8Size_of_shows {text : List Char} (shows : Shows radix z text) :
    ∀ c ∈ text, c.utf8Size = 1 := by
  obtain ⟨front, back, signed, spells⟩ := shows
  have blanks (count : Nat) : ∀ c ∈ List.replicate count ' ', c.utf8Size = 1 := by
    intro c member
    rw [List.eq_of_mem_replicate member]
    rfl
  intro c member
  simp only [List.mem_append] at member
  rcases member with blank | inSign | digit | blank
  · exact blanks front c blank
  · generalize decide (z < 0) = negative at signed
    cases signed with
    | none => cases inSign
    | _ =>
        rw [List.mem_singleton.mp inSign]
        rfl
  · have small : c.toNat ≤ 127 := (toNat_of_isDigit (spells.digits c digit)).2.trans (by decide)
    exact Char.utf8Size_eq_one_iff.mpr (UInt32.le_iff_toNat_le.mpr small)
  · exact blanks back c blank

theorem utf8ByteSize_of_shows (shows : Shows radix z body.toList) :
    body.utf8ByteSize = body.length := by
  rw [← String.ofList_toList (s := body), ← Text.byteLength_eq,
    Text.byteLength_eq_length (utf8Size_of_shows shows), String.length_ofList]

/-- A number that is filled up to the width is still the number, and as long as the width if it was
shorter. -/
theorem Directive.exists_pad (d : Directive)
    (laid : body.toList = (d.sign (decide (z < 0))).toList ++ word)
    (spells : Spells radix word z.natAbs) (fits : d.width.getD 0 ≤ maxLength) :
    ∃ out, d.pad body true = .ok out ∧ Shows radix z out.toList ∧
      out.length = max (d.width.getD 0) body.length := by
  have shows : Shows radix z body.toList := laid ▸ d.shows_sign spells
  unfold pad
  extract_lets fill
  have fill_eq : fill = d.width.getD 0 - body.length := rfl
  clear_value fill
  by_cases full : fill = 0
  · rw [if_pos full]
    exact ⟨body, rfl, shows, by omega⟩
  have bounded : ¬maxLength < fill + body.utf8ByteSize := by
    rw [utf8ByteSize_of_shows shows]
    omega
  rw [if_neg full, if_neg bounded]
  by_cases left : d.left = true
  · rw [if_pos left]
    refine ⟨_, rfl, ?_, ?_⟩
    · rw [String.toList_append, toList_copies]
      exact shows.trailing fill
    · rw [String.length_append, length_copies]
      omega
  rw [if_neg left]
  by_cases zero : d.zero = true
  · rw [if_pos (by rw [zero]; rfl), laid, splitSign_sign d _ spells]
    refine ⟨_, rfl, ?_, ?_⟩
    · rw [String.toList_append, String.toList_append, String.toList_ofList, String.toList_ofList,
        toList_copies, List.append_assoc]
      exact d.shows_sign (spells.zeros fill)
    · have length := congrArg List.length laid
      rw [List.length_append, String.length_toList] at length
      rw [String.length_append, String.length_append, String.length_ofList, String.length_ofList,
        length_copies]
      omega
  · rw [if_neg (by rw [Bool.and_true]; exact zero)]
    refine ⟨_, rfl, ?_, ?_⟩
    · rw [String.toList_append, toList_copies]
      exact shows.leading fill
    · rw [String.length_append, length_copies]
      omega

/-- The digits of a number, with zeros before them up to the precision. -/
def preciseDigits (d : Directive) (m : Nat) (letter : Char) : String :=
  copies '0' (d.precision.getD 0 - (digitsIn letter m).length) ++ digitsIn letter m

/-- An integer under a directive, before it is filled up to the width. -/
def integerBody (d : Directive) (n : Int64) (letter : Char) : String :=
  d.sign (decide (n.toInt < 0)) ++ preciseDigits d n.toInt.natAbs letter

theorem IntegerLetter.spells_preciseDigits (isLetter : IntegerLetter letter radix) (d : Directive)
    (m : Nat) : Spells radix (preciseDigits d m letter).toList m := by
  rw [preciseDigits, String.toList_append, toList_copies]
  exact (isLetter.spells m).zeros _

/-- The length of an integer under a directive, before it is filled up to the width. -/
theorem length_integerBody (d : Directive) (n : Int64) (letter : Char) :
    (integerBody d n letter).length = (d.sign (decide (n.toInt < 0))).length +
      max (d.precision.getD 0) (digitsIn letter n.toInt.natAbs).length := by
  unfold integerBody preciseDigits
  rw [String.length_append, String.length_append, length_copies]
  omega

theorem IntegerLetter.shows_integerBody (isLetter : IntegerLetter letter radix) (d : Directive)
    (n : Int64) : Shows radix n.toInt (integerBody d n letter).toList := by
  rw [integerBody, String.toList_append]
  exact d.shows_sign (isLetter.spells_preciseDigits d n.toInt.natAbs)

theorem integerText_eq (short : (integerBody d n letter).length ≤ maxLength) :
    integerText d n letter = d.pad (integerBody d n letter) true := by
  have bounded : ¬maxLength < (d.sign (decide (n.toInt < 0))).length +
      (d.precision.getD 0 - (digitsIn letter n.toInt.natAbs).length) +
        (digitsIn letter n.toInt.natAbs).length := by
    rw [length_integerBody] at short
    omega
  unfold integerText integerBody preciseDigits
  dsimp only
  rw [if_neg bounded, ← String.append_assoc]

/-- A width beyond what can be written is refused. -/
theorem IntegerLetter.integerText_tooLong (isLetter : IntegerLetter letter radix)
    (short : (integerBody d n letter).length ≤ maxLength) (beyond : maxLength < d.width.getD 0) :
    integerText d n letter = .error .tooLong := by
  have unfilled : d.width.getD 0 - (integerBody d n letter).length ≠ 0 := by omega
  rw [integerText_eq short, Directive.pad]
  dsimp only
  rw [if_neg unfilled, utf8ByteSize_of_shows (isLetter.shows_integerBody d n), if_pos (by omega)]

/-- An integer under a directive shows the integer, and is as long as the width if it is shorter
without it. -/
theorem IntegerLetter.exists_integerText (isLetter : IntegerLetter letter radix)
    (short : (integerBody d n letter).length ≤ maxLength) (columns : d.width.getD 0 ≤ maxLength) :
    ∃ out, integerText d n letter = .ok out ∧ Shows radix n.toInt out.toList ∧
      out.length = max (d.width.getD 0) (integerBody d n letter).length := by
  have laid : (integerBody d n letter).toList = (d.sign (decide (n.toInt < 0))).toList ++
      (preciseDigits d n.toInt.natAbs letter).toList := String.toList_append
  have spells := isLetter.spells_preciseDigits d n.toInt.natAbs
  rw [integerText_eq short]
  exact d.exists_pad laid spells columns

end Layout

/-! ## Control strings -/

/-- The flags of a directive. -/
def flagCharacters : List Char := ['-', '0', '+', ' ', '#']

/-- The options of a directive as they are written: flags, the digits of a width if there is one,
and the digits of a precision if there is a point.  A zero before a width would be a flag. -/
structure Options where
  flags : List Char
  width : List Char
  precision : Option (List Char)
  areFlags : flags.all (· ∈ flagCharacters) = true
  widthDigits : width.all Char.isDigit = true
  widthLeading : width.head? ≠ some '0'
  precisionDigits : (precision.getD []).all Char.isDigit = true

/-- A count that is read into a machine word; one that does not fit is passed over. -/
def inWord (n : Nat) : Nat := if n < twoTo 64 then n else 0

namespace Options

variable (o : Options)

/-- The width that is asked for, zero if there is none. -/
def columns : Nat := inWord (Nat.ofDigitChars 10 o.width 0)

/-- The least number of digits that is asked for, zero if there is none. -/
def places : Nat := inWord (Nat.ofDigitChars 10 (o.precision.getD []) 0)

/-- The same options without a width. -/
def withoutWidth : Options :=
  { o with
    width := []
    widthDigits := rfl
    widthLeading := by decide }

/-- The point and what is behind it. -/
def point : List Char :=
  match o.precision with
  | some word => '.' :: word
  | none => []

/-- A directive with these options. -/
def control (letter : Char) : String :=
  String.ofList ('%' :: (o.flags ++ (o.width ++ (o.point ++ [letter]))))

/-- What the options mean. -/
def directive : Directive :=
  { (readFlags {} o.flags).1 with
    width := count? o.width
    precision := o.precision.map fun word => (count? word).getD 0 }

end Options

section Control

variable {d : Directive} {o : Options} {letter c : Char} {radix : Nat} {flags word rest : List Char}

theorem getD_count? (word : List Char) :
    (count? word).getD 0 = inWord (Nat.ofDigitChars 10 word 0) := by
  have value : word.foldl (fun n c => 10 * n + (c.toNat - '0'.toNat)) 0 =
      Nat.ofDigitChars 10 word 0 := rfl
  unfold count? inWord
  rw [value]
  by_cases fits : Nat.ofDigitChars 10 word 0 < twoTo 64
  · cases word with
    | nil => rfl
    | cons c rest =>
        rw [if_pos fits, if_neg (by simpa using fits)]
        rfl
  · rw [if_neg fits, if_pos (.inr (Nat.le_of_not_lt fits))]
    rfl

theorem Options.getD_width (o : Options) : o.directive.width.getD 0 = o.columns :=
  getD_count? o.width

theorem Options.getD_precision (o : Options) : o.directive.precision.getD 0 = o.places := by
  unfold places directive
  cases o.precision with
  | some word => exact getD_count? word
  | none => rfl

theorem Options.columns_withoutWidth (o : Options) : o.withoutWidth.columns = 0 := rfl

/-- Flags are read up to the first character that is none. -/
theorem readFlags_append (areFlags : ∀ c ∈ flags, c ∈ flagCharacters)
    (ordinary : ∀ c ∈ rest.head?, c ∉ flagCharacters) (d : Directive) :
    readFlags d (flags ++ rest) = ((readFlags d flags).1, rest) := by
  induction flags generalizing d with
  | nil =>
      cases rest with
      | nil => rfl
      | cons c rest =>
          have none : c ∉ flagCharacters := ordinary c rfl
          unfold flagCharacters at none
          rw [List.nil_append]
          unfold readFlags
          split <;> simp_all
  | cons c flags ih =>
      have later := ih fun d member => areFlags d (.tail _ member)
      have isFlag : c ∈ flagCharacters := areFlags c (.head _)
      unfold flagCharacters at isFlag
      simp only [List.mem_cons, List.not_mem_nil, or_false] at isFlag
      rcases isFlag with rfl | rfl | rfl | rfl | rfl <;> exact later _

/-- Flags leave the precision alone. -/
theorem readFlags_precision (d : Directive) (flags : List Char) :
    (readFlags d flags).1.precision = d.precision := by
  fun_induction readFlags d flags <;> simp_all

/-- A word of decimal digits ends at the first character that is none. -/
theorem span_isDigit (digits : ∀ c ∈ word, c.isDigit = true) (stop : ¬c.isDigit = true)
    (rest : List Char) :
    (word ++ c :: rest).takeWhile Char.isDigit = word ∧
      (word ++ c :: rest).dropWhile Char.isDigit = c :: rest := by
  rw [List.takeWhile_append_of_pos digits, List.takeWhile_cons_of_neg stop, List.append_nil,
    List.dropWhile_append_of_pos digits, List.dropWhile_cons_of_neg stop]
  exact ⟨rfl, rfl⟩

theorem IntegerLetter.not_isDigit (isLetter : IntegerLetter letter radix) :
    ¬letter.isDigit = true := by
  cases isLetter <;> decide

/-- A character that is neither a zero nor another flag. -/
theorem not_mem_flagCharacters_of_isDigit (digit : c.isDigit = true) (nonzero : c ≠ '0') :
    c ∉ flagCharacters := by
  unfold flagCharacters
  simp only [List.mem_cons, List.not_mem_nil, or_false]
  rintro (rfl | rfl | rfl | rfl | rfl)
  · exact absurd digit (by decide)
  · exact nonzero rfl
  all_goals exact absurd digit (by decide)

/-- The flags end where the width, the point or the letter stands. -/
theorem IntegerLetter.flags_end (isLetter : IntegerLetter letter radix) (o : Options) :
    ∀ c ∈ (o.width ++ (o.point ++ [letter])).head?, c ∉ flagCharacters := by
  have notFlag : letter ∉ flagCharacters := by cases isLetter <;> decide
  intro c head
  cases width : o.width with
  | nil =>
      rw [width, List.nil_append, Options.point] at head
      split at head
      · obtain rfl : '.' = c := Option.some.inj head
        decide
      · obtain rfl : letter = c := Option.some.inj head
        exact notFlag
  | cons d rest =>
      rw [width] at head
      obtain rfl : d = c := Option.some.inj head
      have digit : d.isDigit = true :=
        List.all_eq_true.mp o.widthDigits d (width ▸ .head _)
      have nonzero : d ≠ '0' := fun zero => o.widthLeading (by rw [width, zero]; rfl)
      exact not_mem_flagCharacters_of_isDigit digit nonzero

theorem IntegerLetter.readDirective_eq (isLetter : IntegerLetter letter radix) (o : Options) :
    readDirective (o.flags ++ (o.width ++ (o.point ++ [letter]))) = (o.directive, [letter]) := by
  have areFlags : ∀ c ∈ o.flags, c ∈ flagCharacters := fun c member =>
    of_decide_eq_true (List.all_eq_true.mp o.areFlags c member)
  have widthDigits := List.all_eq_true.mp o.widthDigits
  unfold readDirective
  rw [readFlags_append areFlags (isLetter.flags_end o)]
  dsimp only
  cases precision : o.precision with
  | some word =>
      have point : o.point = '.' :: word := by rw [Options.point, precision]
      have wordDigits : word.all Char.isDigit = true := by
        have digits := o.precisionDigits
        rwa [precision] at digits
      have width := span_isDigit widthDigits (by decide : ¬ '.'.isDigit = true) (word ++ [letter])
      have places := span_isDigit (List.all_eq_true.mp wordDigits) isLetter.not_isDigit []
      rw [point, List.cons_append, width.1, width.2]
      simp only [places.1, places.2, Options.directive, precision, Option.map_some]
  | none =>
      have point : o.point = [] := by rw [Options.point, precision]
      have width := span_isDigit widthDigits isLetter.not_isDigit []
      have kept := readFlags_precision {} o.flags
      rw [point, List.nil_append, width.1, width.2, Options.directive, precision]
      cases isLetter <;> simp [kept]

theorem IntegerLetter.convert_eq (isLetter : IntegerLetter letter radix)
    (print : Bool → Value → String) (d : Directive) (n : Int64) :
    convert print d letter (.int n) = integerText d n letter := by
  have others : ¬(letter = 's' ∨ letter = 'S') ∧ letter ≠ 'c' ∧
      ¬(letter = 'f' ∨ letter = 'e' ∨ letter = 'g') := by
    cases isLetter <;> decide
  unfold convert
  rw [if_neg others.1, if_neg others.2.1, if_neg others.2.2]

theorem expand_nil (print : Bool → Value → String) (fuel : Nat) (args : List Value) (out : String) :
    expand print fuel args [] out = .ok out := by
  cases fuel <;> rfl

/-- A control string that is a directive for an integer. -/
theorem IntegerLetter.format_eq (isLetter : IntegerLetter letter radix)
    (print : Bool → Value → String) (o : Options) (n : Int64) :
    format print (o.control letter) [.int n] = integerText o.directive n letter := by
  have percent : letter ≠ '%' := by cases isLetter <;> decide
  have isKnown : letter ∈ letters := by cases isLetter <;> decide
  unfold format
  rw [Options.control, String.toList_ofList]
  simp only [expand, isLetter.readDirective_eq, percent, isKnown, if_false, if_true,
    isLetter.convert_eq]
  cases integerText o.directive n letter with
  | error fault => rfl
  | ok out =>
      show expand print _ [] [] ("" ++ out) = _
      rw [String.empty_append, expand_nil]

end Control

end EditorLisp.Format

namespace EditorLisp.Primitives

open Eval Format Number

variable {s : Session} {letter : Char} {radix : Nat} {n : Int64} {control out : String}
  {handle : Nat} {base : List Value}

/-- A text that shows an integer is read as the integer. -/
theorem numberIn_eq (shows : Shows radix n.toInt out.toList) : numberIn out radix = .int n := by
  unfold numberIn
  generalize out.toList = chars at shows
  obtain ⟨front, back, signed, spells⟩ := shows
  simp only [dropWhile_isBlank_leading front signed spells]
  split
  next decimal =>
    subst decimal
    rw [parseDecimal_eq signed spells]
  next => rw [parseRadix_eq signed spells]

/-- The argument that makes numbers be read in a radix; it is left out for ten. -/
def radixArgument (radix : Nat) : List Value := if radix = 10 then [] else [.ofNat radix]

theorem stringToNumber_eq (I : Interp) (isLetter : IntegerLetter letter radix)
    (shows : Shows radix n.toInt out.toList) (handle : Nat) (s : Session) :
    callPrimitive I "string-to-number" (.str handle out :: radixArgument radix) s =
      .ok (.int n) s := by
  have counted : between "string-to-number" (.str handle out :: radixArgument radix) 1 2 s =
      .ok () s := by
    cases isLetter <;> rfl
  have base : integerOr 10 (given? (.str handle out :: radixArgument radix) 1) s =
      .ok (Int64.ofNat radix) s := by
    cases isLetter <;> rfl
  have radix_eq : (Int64.ofNat radix).toInt = radix := by cases isLetter <;> decide
  have valid : 2 ≤ (Int64.ofNat radix).toInt ∧ (Int64.ofNat radix).toInt ≤ 16 := by
    cases isLetter <;> decide
  rw [callPrimitive_of_arithmetic I rfl]
  unfold stringToNumber
  refine (bind_of_ok _ counted).trans ((bind_of_ok _ rfl).trans ((bind_of_ok _ base).trans ?_))
  rw [if_pos valid, radix_eq, Int.toNat_natCast, numberIn_eq shows]
  rfl

theorem formatted_of_ok {args : List Value}
    (made : Format.format (printed s) control args = .ok out) :
    formatted control args s = .ok out s := by
  unfold formatted
  refine (bind_of_ok _ rfl).trans ?_
  rw [made]
  rfl

theorem formatted_of_tooLong {args : List Value}
    (refused : Format.format (printed s) control args = .error .tooLong) :
    formatted control args s = .crashed s := by
  unfold formatted
  refine (bind_of_ok _ rfl).trans ?_
  rw [refused]
  rfl

theorem format_of_ok (I : Interp) (isLetter : IntegerLetter letter radix) (o : Options)
    (made : integerText o.directive n letter = .ok out) (handle : Nat) (s : Session) :
    callPrimitive I "format" [.str handle (o.control letter), .int n] s = text out s := by
  have expanded : formatted (o.control letter) [.int n] s = .ok out s :=
    formatted_of_ok ((isLetter.format_eq _ o n).trans made)
  rw [callPrimitive_of_strings I rfl]
  unfold format
  exact (bind_of_ok _ rfl).trans ((bind_of_ok _ rfl).trans (bind_of_ok _ expanded))

theorem format_of_tooLong (I : Interp) (isLetter : IntegerLetter letter radix) (o : Options)
    (refused : integerText o.directive n letter = .error .tooLong) (handle : Nat) (s : Session) :
    callPrimitive I "format" [.str handle (o.control letter), .int n] s = .crashed s := by
  have crashed : formatted (o.control letter) [.int n] s = .crashed s :=
    formatted_of_tooLong ((isLetter.format_eq _ o n).trans refused)
  rw [callPrimitive_of_strings I rfl]
  unfold format
  refine (bind_of_ok _ rfl).trans ((bind_of_ok _ rfl).trans ?_)
  show Eval.bind (formatted (o.control letter) [.int n]) _ s = _
  rw [Eval.bind, crashed]

/-- A control string makes a text of an integer, and reading the number at the front of the text in
a radix gives the integer back. -/
def ReadsBack (I : Interp) (s : Session) (control : String) (radix : Nat) (n : Int64)
    (out : String) : Prop :=
  ∀ handle, ∃ handle' t,
    callPrimitive I "format" [.str handle control, .int n] s = .ok (.str handle' out) t ∧
    callPrimitive I "string-to-number" (.str handle' out :: radixArgument radix) t = .ok (.int n) t

theorem readsBack_of_shows (I : Interp) (isLetter : IntegerLetter letter radix) (o : Options)
    (made : integerText o.directive n letter = .ok out) (shows : Shows radix n.toInt out.toList) :
    ReadsBack I s (o.control letter) radix n out := fun handle =>
  ⟨_, _, format_of_ok I isLetter o made handle s, stringToNumber_eq I isLetter shows _ _⟩

/-- The text of an integer is read back as the integer, whatever the flags, the width and the
precision are, and it is as long as the width or, if that is longer, as the text without a width;
provided that the sign and the digits are no more characters than can be written.  A width beyond
that ends the run. -/
theorem readsBack_format (I : Interp) (s : Session) (isLetter : IntegerLetter letter radix)
    (o : Options) (n : Int64)
    (places : (o.directive.sign (decide (n.toInt < 0))).length +
      max o.places (Nat.toDigits radix n.toInt.natAbs).length ≤ maxLength) :
    ∃ out, ReadsBack I s (o.withoutWidth.control letter) radix n out ∧
      (o.columns ≤ maxLength →
        ∃ padded, ReadsBack I s (o.control letter) radix n padded ∧
          padded.length = max o.columns out.length) ∧
      (maxLength < o.columns → ∀ handle,
        callPrimitive I "format" [.str handle (o.control letter), .int n] s = .crashed s) := by
  have short : (integerBody o.directive n letter).length ≤ maxLength := by
    rwa [length_integerBody, o.getD_precision, isLetter.length_digitsIn]
  have narrow : o.withoutWidth.directive.width.getD 0 = 0 :=
    o.withoutWidth.getD_width.trans o.columns_withoutWidth
  obtain ⟨out, made, shows, length⟩ :=
    isLetter.exists_integerText (d := o.withoutWidth.directive) short (narrow ▸ Nat.zero_le _)
  have bare : out.length = (integerBody o.directive n letter).length := by
    rw [length, narrow, Nat.zero_max]
    rfl
  refine ⟨out, readsBack_of_shows I isLetter _ made shows, fun columns => ?_, fun beyond => ?_⟩
  · rw [bare, ← o.getD_width] at *
    obtain ⟨padded, made', shows', length'⟩ := isLetter.exists_integerText short columns
    exact ⟨padded, readsBack_of_shows I isLetter o made' shows', length'⟩
  · rw [← o.getD_width] at beyond
    exact fun handle =>
      format_of_tooLong I isLetter o (isLetter.integerText_tooLong short beyond) handle s

/-- The least integer, whose magnitude is no integer, with zeros between its sign and its capital
digits. -/
theorem readsBack_format_least :
    let o : Options :=
      { flags := ['+', '0'], width := ['2', '0'], precision := none, areFlags := by decide,
        widthDigits := by decide, widthLeading := by decide, precisionDigits := by decide }
    let s := sessionOf "" 0
    o.control 'X' = "%+020X" ∧
      (o.directive.sign true).length +
        max o.places (Nat.toDigits 16 Int64.minValue.toInt.natAbs).length ≤ maxLength ∧
      callPrimitive .top "format" [.str 0 "%+020X", .int Int64.minValue] s =
        text "-0008000000000000000" s ∧
      ∃ out, ReadsBack .top s (o.withoutWidth.control 'X') 16 Int64.minValue out ∧
        ∃ padded, ReadsBack .top s "%+020X" 16 Int64.minValue padded ∧
          padded.length = max 20 out.length := by
  intro o s
  have written : o.control 'X' = "%+020X" := by decide +kernel
  have places : (o.directive.sign true).length +
      max o.places (Nat.toDigits 16 Int64.minValue.toInt.natAbs).length ≤ maxLength := by
    decide +kernel
  have columns : o.columns = 20 := by decide +kernel
  have made : integerText o.directive Int64.minValue 'X' = .ok "-0008000000000000000" :=
    ok_of_toOption (by decide +kernel)
  obtain ⟨out, bare, filled, -⟩ := readsBack_format .top s .capital o Int64.minValue places
  rw [columns, written] at filled
  have called := format_of_ok .top .capital o made 0 s
  rw [written] at called
  exact ⟨written, places, called, out, bare, filled (by decide)⟩

/-- A width that does not fit a machine word is passed over, and one that fits may end the run. -/
theorem not_readsBack_format :
    let s := sessionOf "" 0
    callPrimitive .top "format" [.str 0 "%d", .int 5] s = text "5" s ∧
      callPrimitive .top "format" [.str 0 "%18446744073709551616d", .int 5] s = text "5" s ∧
      "5".length ≠ max 18446744073709551616 "5".length ∧
      callPrimitive .top "format" [.str 0 "%9223372036854775808d", .int 5] s = .crashed s := by
  intro s
  let beyond : Options :=
    { flags := [], width := "18446744073709551616".toList, precision := none, areFlags := by decide,
      widthDigits := by decide, widthLeading := by decide, precisionDigits := by decide }
  let unwritable : Options :=
    { beyond with
      width := "9223372036854775808".toList, widthDigits := by decide, widthLeading := by decide }
  have bare : integerText beyond.withoutWidth.directive 5 'd' = .ok "5" :=
    ok_of_toOption (by decide +kernel)
  have passedOver : integerText beyond.directive 5 'd' = .ok "5" :=
    ok_of_toOption (by decide +kernel)
  have refused : integerText unwritable.directive 5 'd' = .error .tooLong :=
    IntegerLetter.decimal.integerText_tooLong (by decide +kernel) (by decide +kernel)
  have calledBare := format_of_ok .top .decimal beyond.withoutWidth bare 0 s
  have called := format_of_ok .top .decimal beyond passedOver 0 s
  have crashed := format_of_tooLong .top .decimal unwritable refused 0 s
  have writtenBare : beyond.withoutWidth.control 'd' = "%d" := by decide +kernel
  have written : beyond.control 'd' = "%18446744073709551616d" := by decide +kernel
  have written' : unwritable.control 'd' = "%9223372036854775808d" := by decide +kernel
  rw [writtenBare] at calledBare
  rw [written] at called
  rw [written'] at crashed
  exact ⟨calledBare, called, by decide, crashed⟩

end EditorLisp.Primitives
