import EditorLisp.Number.Fixnum
import EditorLisp.Text.Blank

/-!
# Integers as they are written

The decimal numeral of an integer is read as that integer, the least and the greatest of
the sixty-four bit ones included.

An integer can be written in any radix up to sixteen, with small letters or capitals for the
digits above nine, with zeros before its digits, with a plus sign, and with blanks on either side.
However that is done, the number at the front of the text is the integer: the blanks before it are
passed over, zeros add nothing to the value of a word of digits, and the word ends at the first
blank after it.
-/

namespace EditorLisp.Number

variable {radix m n : Nat} {c : Char} {word : List Char}

/-! ## Words of digits -/

/-- A word of digits of a radix, and its value. -/
structure Spells (radix : Nat) (word : List Char) (m : Nat) : Prop where
  nonempty : word ≠ []
  digits : ∀ c ∈ word, isDigit radix c = true
  value : digitsValue radix word = m

theorem Spells.exists_cons (spells : Spells radix word m) :
    ∃ c rest, word = c :: rest ∧ isDigit radix c = true := by
  obtain _ | ⟨c, rest⟩ := word
  · exact absurd rfl spells.nonempty
  · exact ⟨c, rest, rfl, spells.digits c (.head _)⟩

theorem pos_of_isDigit (digit : isDigit radix c = true) : 0 < radix := by
  obtain ⟨n, value⟩ := Option.isSome_iff_exists.mp digit
  unfold digitValue? at value
  have below := (Option.filter_eq_some_iff.mp value).2
  exact Nat.zero_lt_of_lt (of_decide_eq_true below)

theorem digitsValue_concat (word : List Char) (c : Char) :
    digitsValue radix (word ++ [c]) =
      digitsValue radix word * radix + (digitValue? radix c).getD 0 := by
  unfold digitsValue
  rw [List.foldl_append, List.foldl_cons, List.foldl_nil]

theorem isDigit_of_digitValue? (value : digitValue? radix c = some n) : isDigit radix c = true := by
  unfold isDigit
  rw [value]
  rfl

theorem Spells.digit (value : digitValue? radix c = some n) : Spells radix [c] n where
  nonempty := List.cons_ne_nil _ _
  digits d member := by
    rw [List.mem_singleton.mp member]
    exact isDigit_of_digitValue? value
  value := by
    have single : digitsValue radix [c] = 0 * radix + (digitValue? radix c).getD 0 :=
      digitsValue_concat [] c
    rw [single, value, Nat.zero_mul, Nat.zero_add]
    rfl

theorem Spells.concat (spells : Spells radix word m) (value : digitValue? radix c = some n) :
    Spells radix (word ++ [c]) (m * radix + n) where
  nonempty := List.append_ne_nil_of_left_ne_nil spells.nonempty _
  digits d member := by
    obtain member | rfl := (List.mem_append.mp member).imp_right List.mem_singleton.mp
    · exact spells.digits d member
    · exact isDigit_of_digitValue? value
  value := by
    rw [digitsValue_concat, spells.value, value]
    rfl

theorem digitValue?_zero (positive : 0 < radix) : digitValue? radix '0' = some 0 := by
  have zero : '0' ≤ '0' ∧ '0' ≤ '9' := by decide
  unfold digitValue?
  rw [if_pos zero]
  exact if_pos (decide_eq_true positive)

theorem digitsValue_zero_cons (positive : 0 < radix) (word : List Char) :
    digitsValue radix ('0' :: word) = digitsValue radix word := by
  unfold digitsValue
  rw [List.foldl_cons, digitValue?_zero positive, Nat.zero_mul]
  rfl

/-- Zeros before a word of digits do not change its value. -/
theorem Spells.zeros (spells : Spells radix word m) (count : Nat) :
    Spells radix (List.replicate count '0' ++ word) m := by
  obtain ⟨c, rest, -, digit⟩ := spells.exists_cons
  have positive := pos_of_isDigit digit
  induction count with
  | zero => exact spells
  | succ count ih =>
      rw [List.replicate_succ, List.cons_append]
      exact {
        nonempty := List.cons_ne_nil _ _
        digits := List.forall_mem_cons.mpr
          ⟨isDigit_of_digitValue? (digitValue?_zero positive), ih.digits⟩
        value := (digitsValue_zero_cons positive _).trans ih.value }

/-- The digits of a number, each in any form that has the same value, spell the number. -/
theorem spells_map_toDigits (large : 1 < radix) {form : Char → Char}
    (kept : ∀ d < radix, digitValue? radix (form d.digitChar) = some d) (n : Nat) :
    Spells radix ((Nat.toDigits radix n).map form) n := by
  induction n using Nat.strongRecOn with
  | ind n ih =>
      rw [Nat.toDigits_eq_if large]
      split
      next below => exact .digit (kept n below)
      next above =>
        have positive : 0 < n := by omega
        have front := ih (n / radix) (Nat.div_lt_self positive large)
        have last := kept (n % radix) (Nat.mod_lt n (by omega))
        rw [List.map_append]
        have whole := front.concat last
        rwa [Nat.mul_comm, Nat.div_add_mod] at whole

/-- Every digit has its value in each radix up to sixteen, as a small letter and as a capital. -/
theorem digitValue?_digitChar :
    ∀ radix ≤ 16, ∀ d < radix, digitValue? radix d.digitChar = some d ∧
      digitValue? radix d.digitChar.toUpper = some d := by
  decide +kernel

theorem spells_toDigits (large : 1 < radix) (small : radix ≤ 16) (n : Nat) :
    Spells radix (Nat.toDigits radix n) n := by
  have plain : Spells radix ((Nat.toDigits radix n).map id) n :=
    spells_map_toDigits large (fun d below => (digitValue?_digitChar radix small d below).1) n
  rwa [List.map_id] at plain

/-! ## Signs and blanks -/

/-- A sign of a number, negative or not, as a reader knows it. -/
inductive IsSign : Bool → List Char → Prop where
  | minus : IsSign true ['-']
  | plus : IsSign false ['+']
  | none : IsSign false []

/-- A text consists of an integer in a radix with blanks on either side. -/
inductive Shows (radix : Nat) (n : Int) : List Char → Prop where
  | intro (front back : Nat) {sign word : List Char} (signed : IsSign (decide (n < 0)) sign)
    (spells : Spells radix word n.natAbs) :
    Shows radix n (List.replicate front ' ' ++ (sign ++ (word ++ List.replicate back ' ')))

variable {z : Int} {i : Int64} {text sign : List Char} {negative : Bool}

theorem Shows.leading (shows : Shows radix z text) (count : Nat) :
    Shows radix z (List.replicate count ' ' ++ text) := by
  obtain ⟨front, back, signed, spells⟩ := shows
  rw [← List.append_assoc, List.replicate_append_replicate]
  exact ⟨_, _, signed, spells⟩

theorem Shows.trailing (shows : Shows radix z text) (count : Nat) :
    Shows radix z (text ++ List.replicate count ' ') := by
  obtain ⟨front, back, signed, spells⟩ := shows
  rw [List.append_assoc, List.append_assoc, List.append_assoc, List.replicate_append_replicate]
  exact ⟨_, _, signed, spells⟩

theorem not_isDigit_blank : isDigit radix ' ' = false := rfl

theorem toNat_of_isDigit (digit : isDigit radix c = true) : 48 ≤ c.toNat ∧ c.toNat ≤ 122 := by
  unfold isDigit digitValue? at digit
  have between {low high : Char} (within : low ≤ c ∧ c ≤ high) :
      low.toNat ≤ c.toNat ∧ c.toNat ≤ high.toNat := within
  split at digit
  next within =>
    have bounds : 48 ≤ c.toNat ∧ c.toNat ≤ 57 := between within
    omega
  next =>
    split at digit
    next within =>
      have bounds : 97 ≤ c.toNat ∧ c.toNat ≤ 122 := between within
      omega
    next =>
      split at digit
      next within =>
        have bounds : 65 ≤ c.toNat ∧ c.toNat ≤ 90 := between within
        omega
      next => cases digit

theorem isBlank_of_isDigit (digit : isDigit radix c = true) : Text.isBlank c = false := by
  have bounds := toNat_of_isDigit digit
  unfold Text.isBlank
  simp only [Bool.or_eq_false_iff, Bool.and_eq_false_iff, decide_eq_false_iff_not,
    beq_eq_false_iff_ne]
  omega

/-- A digit is a letter or one of the ten figures. -/
theorem isAlphanum_of_isDigit (digit : isDigit radix c = true) : c.isAlphanum = true := by
  unfold isDigit digitValue? at digit
  unfold Char.isAlphanum Char.isAlpha Char.isUpper Char.isLower Char.isDigit
  have between {low high : Char} (within : low ≤ c ∧ c ≤ high) :
      low.val ≤ c.val ∧ c.val ≤ high.val := within
  split at digit
  next within =>
    have bounds : 48 ≤ c.val ∧ c.val ≤ 57 := between within
    simp [bounds]
  next =>
    split at digit
    next within =>
      have bounds : 97 ≤ c.val ∧ c.val ≤ 122 := between within
      simp [bounds]
    next =>
      split at digit
      next within =>
        have bounds : 65 ≤ c.val ∧ c.val ≤ 90 := between within
        simp [bounds]
      next => cases digit

theorem isDigit_of_decimal (digit : isDigit 10 c = true) : c.isDigit = true := by
  obtain ⟨n, value⟩ := Option.isSome_iff_exists.mp digit
  unfold digitValue? at value
  obtain ⟨value, below⟩ := Option.filter_eq_some_iff.mp value
  have small : n < 10 := of_decide_eq_true below
  split at value
  next within =>
    have bounds : 48 ≤ c.val ∧ c.val ≤ 57 := within
    simp [Char.isDigit, bounds]
  next =>
    split at value
    next =>
      have large : c.toNat - 97 + 10 = n := Option.some.inj value
      omega
    next =>
      split at value
      next =>
        have large : c.toNat - 65 + 10 = n := Option.some.inj value
        omega
      next => cases value

/-- A digit is no sign. -/
theorem ne_sign_of_isDigit (digit : isDigit radix c = true) : c ≠ '-' ∧ c ≠ '+' := by
  constructor
  · rintro rfl
    exact Bool.false_ne_true digit
  · rintro rfl
    exact Bool.false_ne_true digit

theorem splitSign_append (signed : IsSign negative sign) (spells : Spells radix word m)
    (rest : List Char) : splitSign (sign ++ (word ++ rest)) = (negative, word ++ rest) := by
  cases signed with
  | minus => rfl
  | plus => rfl
  | none =>
      obtain ⟨c, word, rfl, digit⟩ := spells.exists_cons
      have ordinary := ne_sign_of_isDigit digit
      unfold splitSign
      split
      next h => exact absurd (List.cons.inj h).1 ordinary.1
      next h => exact absurd (List.cons.inj h).1 ordinary.2
      next => rfl

/-- A word of digits ends at the first blank after it. -/
theorem Spells.takeWhile (spells : Spells radix word m) (count : Nat) :
    (word ++ List.replicate count ' ').takeWhile (isDigit radix) = word := by
  rw [List.takeWhile_append_of_pos spells.digits]
  cases count with
  | zero => rw [List.replicate_zero, List.takeWhile_nil, List.append_nil]
  | succ count =>
      rw [List.replicate_succ, List.takeWhile_cons_of_neg (by rw [not_isDigit_blank]; decide),
        List.append_nil]

theorem fixed?_toInt (n : Int64) : fixed? n.toInt = some n := by
  unfold fixed?
  rw [if_pos ⟨n.minValue_le_toInt, n.toInt_le⟩, Int64.ofInt_toInt]

theorem fixed?_eq_some_iff {n : Int} {x : Int64} : fixed? n = some x ↔ n = x.toInt := by
  constructor
  · intro fits
    unfold fixed? at fits
    split at fits
    next inside =>
        obtain rfl := Option.some.inj fits
        rw [Int64.toInt_ofInt_of_le inside.1 (Int.lt_add_one_of_le inside.2)]
    next => cases fits
  · rintro rfl
    exact fixed?_toInt x

theorem fixed?_eq_none_iff {n : Int} :
    fixed? n = none ↔ n < Int64.minValue.toInt ∨ Int64.maxValue.toInt < n := by
  unfold fixed?
  by_cases inside : Int64.minValue.toInt ≤ n ∧ n ≤ Int64.maxValue.toInt
  · rw [if_pos inside]
    exact ⟨nofun, fun outside => by omega⟩
  · rw [if_neg inside]
    exact ⟨fun _ => by omega, fun _ => rfl⟩

/-- An integer within the bounds of machine words is one. -/
theorem exists_fixed? {n : Int} (lower : Int64.minValue.toInt ≤ n)
    (upper : n ≤ Int64.maxValue.toInt) : ∃ x, fixed? n = some x ∧ x.toInt = n := by
  have fits : fixed? n = some (Int64.ofInt n) := if_pos ⟨lower, upper⟩
  exact ⟨_, fits, (fixed?_eq_some_iff.mp fits).symm⟩

theorem fixed?_signed (i : Int64) :
    fixed? (if decide (i.toInt < 0) then -(i.toInt.natAbs : Int) else i.toInt.natAbs) = some i := by
  have signed : (if decide (i.toInt < 0) then -(i.toInt.natAbs : Int) else i.toInt.natAbs) =
      i.toInt := by
    simp only [decide_eq_true_eq]
    split <;> omega
  rw [signed]
  exact fixed?_toInt i

/-! ## The number at the front of a text -/

theorem parseRadix_eq (signed : IsSign (decide (i.toInt < 0)) sign)
    (spells : Spells radix word i.toInt.natAbs) (back : Nat) :
    parseRadix radix (sign ++ (word ++ List.replicate back ' ')) = i := by
  unfold parseRadix
  simp only [splitSign_append signed spells, spells.takeWhile, spells.value, fixed?_signed,
    Option.getD_some]

theorem intLiteral?_append (signed : IsSign negative sign) (spells : Spells radix word m) :
    intLiteral? radix (sign ++ word) = fixed? (if negative then -(m : Int) else m) := by
  have split : splitSign (sign ++ word) = (negative, word) := by
    have bare := splitSign_append signed spells []
    rwa [List.append_nil] at bare
  have digits : (word.isEmpty || !word.all (isDigit radix)) = false := by
    rw [Bool.or_eq_false_iff, Bool.not_eq_false', List.isEmpty_eq_false_iff]
    exact ⟨spells.nonempty, List.all_eq_true.mpr spells.digits⟩
  unfold intLiteral?
  simp only [split, digits, spells.value, Bool.false_eq_true, if_false]

theorem intLiteral?_eq (signed : IsSign (decide (i.toInt < 0)) sign)
    (spells : Spells radix word i.toInt.natAbs) : intLiteral? radix (sign ++ word) = some i :=
  (intLiteral?_append signed spells).trans (fixed?_signed i)

/-- A decimal number without a point or an exponent after it is read as an integer. -/
theorem parseDecimal_eq (signed : IsSign (decide (i.toInt < 0)) sign)
    (spells : Spells 10 word i.toInt.natAbs) (back : Nat) :
    parseDecimal (sign ++ (word ++ List.replicate back ' ')) = .int i := by
  unfold parseDecimal
  extract_lets mark body whole rest fraction after exponent
  have marked : mark = sign := by
    generalize decide (i.toInt < 0) = negative at signed
    cases signed with
    | minus => rfl
    | plus => rfl
    | none =>
        obtain ⟨c, word, rfl, digit⟩ := spells.exists_cons
        have ordinary := ne_sign_of_isDigit digit
        exact if_neg (not_or.mpr ⟨ordinary.2, ordinary.1⟩)
  have body_eq : body = word ++ List.replicate back ' ' := by
    show List.drop mark.length _ = _
    rw [marked, List.drop_left]
  have whole_eq : whole = word := by
    show body.takeWhile (isDigit 10) = word
    rw [body_eq, spells.takeWhile]
  have rest_eq : rest = List.replicate back ' ' := by
    show body.drop whole.length = _
    rw [body_eq, whole_eq, List.drop_left]
  have noFraction : fraction = [] := by
    unfold fraction
    rw [rest_eq]
    cases back <;> rfl
  have noExponent : exponent = [] := by
    unfold exponent after
    rw [whole_eq, noFraction, rest_eq, List.isEmpty_eq_false_iff.mpr spells.nonempty]
    cases back <;> rfl
  rw [noFraction, noExponent, whole_eq, marked, intLiteral?_eq signed spells,
    List.isEmpty_eq_false_iff.mpr spells.nonempty]
  rfl

theorem dropWhile_isBlank_leading (front : Nat) (signed : IsSign negative sign)
    (spells : Spells radix word m) (rest : List Char) :
    (List.replicate front ' ' ++ (sign ++ (word ++ rest))).dropWhile Text.isBlank =
      sign ++ (word ++ rest) := by
  rw [List.dropWhile_append_of_pos fun c member => by rw [List.eq_of_mem_replicate member]; rfl]
  cases signed with
  | minus => rfl
  | plus => rfl
  | none =>
      obtain ⟨c, word, rfl, digit⟩ := spells.exists_cons
      have dark : ¬Text.isBlank c = true := by
        rw [isBlank_of_isDigit digit]
        exact Bool.false_ne_true
      exact List.dropWhile_cons_of_neg dark

/-! ## Numerals -/

theorem isDigit_of_mem_digits {n : Nat} {c : Char} (member : c ∈ Nat.toDigits 10 n) :
    c.isDigit = true :=
  Nat.isDigit_of_mem_toDigits (by decide) (by decide) member

/-- The characters of the decimal numeral of an integer. -/
def numeral (n : Int) : List Char :=
  if n < 0 then '-' :: Nat.toDigits 10 n.natAbs else Nat.toDigits 10 n.natAbs

theorem exists_sign_numeral (n : Int) :
    ∃ sign, IsSign (decide (n < 0)) sign ∧ numeral n = sign ++ Nat.toDigits 10 n.natAbs := by
  unfold numeral
  split
  next negative => exact ⟨['-'], decide_eq_true negative ▸ .minus, rfl⟩
  next positive => exact ⟨[], decide_eq_false positive ▸ .none, rfl⟩

theorem numeral_natCast (n : Nat) : numeral n = Nat.toDigits 10 n :=
  if_neg (Int.not_lt.mpr (Int.natCast_nonneg n))

theorem toList_toString (n : Int) : (toString n).toList = numeral n := by
  unfold numeral
  cases n with
  | ofNat m =>
      have positive : ¬Int.ofNat m < 0 := Int.not_lt.mpr (Int.natCast_nonneg m)
      rw [if_neg positive]
      exact Nat.toList_repr
  | negSucc m =>
      rw [if_pos (Int.negSucc_lt_zero m)]
      show ("-" ++ Nat.repr (m + 1)).toList = _
      rw [String.toList_append, Nat.toList_repr]
      rfl

theorem mem_numeral {n : Int} {c : Char} (member : c ∈ numeral n) :
    c = '-' ∨ c.isDigit = true := by
  unfold numeral at member
  split at member
  · cases member with
    | head => exact .inl rfl
    | tail _ later => exact .inr (isDigit_of_mem_digits later)
  · exact .inr (isDigit_of_mem_digits member)

theorem splitSign_numeral (n : Int) :
    splitSign (numeral n) = (decide (n < 0), Nat.toDigits 10 n.natAbs) := by
  obtain ⟨sign, signed, eq⟩ := exists_sign_numeral n
  have spells := spells_toDigits (by decide : 1 < 10) (by decide) n.natAbs
  have split := splitSign_append signed spells []
  rwa [List.append_nil, ← eq] at split

/-- A numeral of a machine integer is read as that integer. -/
theorem intLiteral?_numeral (n : Int64) : intLiteral? 10 (numeral n.toInt) = some n := by
  obtain ⟨sign, signed, eq⟩ := exists_sign_numeral n.toInt
  rw [eq]
  exact intLiteral?_eq signed (spells_toDigits (by decide) (by decide) _)

end EditorLisp.Number
