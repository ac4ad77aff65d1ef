import EditorLisp.Store.Printer
import EditorLisp.Proofs.Source.Written

/-!
# Printed values are read back

What is printed of a value that is a finite tree of atoms and pairs is a text that stands
for the same tree, so the reader makes that tree of it.  Names have to be plain: the
printer writes a name as it is, and there is no way to write one that the reader would
take for something else.
-/

namespace EditorLisp

open EditorLisp.Source

/-! ## Values as trees -/

/-- A value of a store is a tree, whatever its pairs share. -/
inductive Store.Holds (s : Store) : Value → Datum → Prop where
  | nil : Holds s .nil .nil
  | t : Holds s .t .t
  | int (n : Int64) : Holds s (.int n) (.int n)
  | symbol (name : String) : Holds s (.symbol name) (.symbol name)
  | keyword (name : String) : Holds s (.keyword name) (.keyword name)
  | str (id : Nat) (text : String) : Holds s (.str id text) (.str text)
  | cons {ref : Nat} {p : Pair} {car cdr : Datum} :
      s.pairs[ref]? = some p → Holds s p.car car → Holds s p.cdr cdr →
        Holds s (.cons ref) (.cons car cdr)

namespace Store.Holds

variable {s : Store} {v : Value} {d : Datum}

theorem of_isNil (holds : s.Holds v d) (empty : v.isNil = true) : d = .nil := by
  cases holds with
  | nil => rfl
  | _ => cases empty

theorem of_isCons (holds : s.Holds v d) (pair : v.isCons = true) :
    ∃ ref p car cdr, v = .cons ref ∧ d = .cons car cdr ∧ s.pairs[ref]? = some p ∧
      s.Holds p.car car ∧ s.Holds p.cdr cdr := by
  cases holds with
  | cons there car cdr => exact ⟨_, _, _, _, rfl, rfl, there, car, cdr⟩
  | _ => cases pair

end Store.Holds

/-- A name without blanks and punctuation that the reader takes for neither a comment, a
number nor a truth value. -/
structure PlainName (name : String) : Prop where
  plain : ∀ c ∈ name.toList, endsAtom c = false ∧ c ≠ '\\'
  not_dot : name ≠ "."
  no_comment : ¬['#', '|'] <+: name.toList
  not_int : ∀ n, atomDatum name.toList ≠ .int n
  not_float : ∀ x, atomDatum name.toList ≠ .float x
  not_nil : atomDatum name.toList ≠ .nil
  not_t : atomDatum name.toList ≠ .t

namespace Datum

/-- All names are plain, and those of keywords are spelled like keywords. -/
def PlainNames : Datum → Prop
  | .symbol name => PlainName name
  | .keyword name => PlainName name ∧ ofName name = .keyword name
  | .cons car cdr => car.PlainNames ∧ cdr.PlainNames
  | _ => True

/-- No symbol has an empty name or is spelled like a keyword. -/
def SymbolsSpelled : Datum → Prop
  | .symbol name => name ≠ "" ∧ ∀ other, ofName name ≠ .keyword other
  | .cons car cdr => car.SymbolsSpelled ∧ cdr.SymbolsSpelled
  | _ => True

/-- How deep lists are nested. -/
def nesting : Datum → Nat
  | .cons car cdr => max (car.nesting + 1) cdr.nesting
  | _ => 0

/-- All lists are short enough to be printed in full. -/
def ShortLists : Datum → Prop
  | .cons car cdr =>
    (Datum.cons car cdr).spine.1.length < Store.printLimit ∧ car.ShortLists ∧ cdr.ShortLists
  | _ => True

/-- A tree with plain names that is printed in full. -/
structure Printable (d : Datum) : Prop where
  names : d.PlainNames
  short : d.ShortLists
  shallow : d.nesting < Store.printLimit

end Datum

/-- A value of a name that stands for a symbol is this symbol. -/
theorem Store.Holds.of_isNamed {s : Store} {v : Value} {d : Datum} (holds : s.Holds v d)
    (names : d.PlainNames) {name : String} (stands : Datum.ofName name = .symbol name)
    (named : v.isNamed name = true) : d = .symbol name := by
  have same : v.symbolName? = some name := beq_iff_eq.mp named
  cases holds with
  | nil => cases same; cases stands
  | t => cases same; cases stands
  | symbol other => cases same; rfl
  | keyword other =>
      cases same
      rw [names.2] at stands
      cases stands
  | _ => cases same

/-! ## Atoms -/

theorem PlainName.atomDatum_eq {name : String} (plainName : PlainName name) :
    atomDatum name.toList = .ofName name := by
  have int := plainName.not_int
  have float := plainName.not_float
  unfold atomDatum at int float ⊢
  split
  next n read =>
    rw [read] at int
    exact absurd rfl (int n)
  next unread =>
    rw [unread] at float
    split
    next x read =>
      simp only [read] at float
      exact absurd rfl (float x)
    next => rw [String.ofList_toList]

theorem PlainName.isWord {name : String} (plainName : PlainName name) (nonempty : name ≠ "") :
    IsWord name.toList where
  nonempty empty := nonempty (String.toList_eq_nil_iff.mp empty)
  plain := plainName.plain
  not_dot dot := plainName.not_dot (String.toList_injective dot)
  no_comment := plainName.no_comment

theorem written_name {name : String} (plainName : PlainName name) (nonempty : name ≠ "") :
    Written (.ofName name) name.toList := by
  rw [← plainName.atomDatum_eq]
  exact .word (plainName.isWord nonempty)

theorem PlainName.ofName_eq {name : String} (plainName : PlainName name)
    (spelled : ∀ other, Datum.ofName name ≠ .keyword other) : Datum.ofName name = .symbol name := by
  have ne_nil : name ≠ "nil" := by
    rintro rfl
    exact plainName.not_nil plainName.atomDatum_eq
  have ne_t : name ≠ "t" := by
    rintro rfl
    exact plainName.not_t plainName.atomDatum_eq
  unfold Datum.ofName at spelled ⊢
  rw [if_neg ne_nil, if_neg ne_t] at spelled ⊢
  split
  next colon =>
    rw [if_pos colon] at spelled
    exact absurd rfl (spelled name)
  next => rfl

/-- The characters of numerals stand inside words. -/
theorem plain_of_mem_numeral {n : Int} {c : Char} (member : c ∈ Number.numeral n) :
    endsAtom c = false ∧ c ≠ '\\' ∧ c ≠ '.' ∧ c ≠ '#' := by
  have digits : ∀ m < 10, endsAtom (Char.ofNat (48 + m)) = false ∧ Char.ofNat (48 + m) ≠ '\\' ∧
      Char.ofNat (48 + m) ≠ '.' ∧ Char.ofNat (48 + m) ≠ '#' := by
    decide
  rcases Number.mem_numeral member with rfl | digit
  · decide
  · obtain ⟨above, below⟩ := Char.isDigit_iff_toNat.mp digit
    have zero : '0'.toNat = 48 := rfl
    have nine : '9'.toNat = 57 := rfl
    have found := digits (c.toNat - 48) (by omega)
    rwa [show 48 + (c.toNat - 48) = c.toNat by omega, Char.ofNat_toNat] at found

theorem isWord_numeral (n : Int) : IsWord (Number.numeral n) where
  nonempty empty := by
    have digits := Number.splitSign_numeral n
    rw [empty] at digits
    exact Nat.toDigits_ne_nil (Prod.mk.inj digits).2.symm
  plain c member := ⟨(plain_of_mem_numeral member).1, (plain_of_mem_numeral member).2.1⟩
  not_dot dot := by
    have member : '.' ∈ Number.numeral n := by
      rw [dot]
      exact List.mem_cons_self
    exact (plain_of_mem_numeral member).2.2.1 rfl
  no_comment comment := by
    have member : '#' ∈ Number.numeral n := comment.subset List.mem_cons_self
    exact (plain_of_mem_numeral member).2.2.2 rfl

theorem written_numeral (n : Int64) : Written (.int n) (Number.numeral n.toInt) := by
  have read : atomDatum (Number.numeral n.toInt) = .int n := by
    unfold atomDatum
    rw [Number.intLiteral?_numeral]
  rw [← read]
  exact .word (isWord_numeral n.toInt)

theorem written_nil : Written .nil ['n', 'i', 'l'] :=
  @Written.word ['n', 'i', 'l'] ⟨by decide, plain_of_all rfl, by decide, by decide⟩

theorem written_t : Written .t ['t'] :=
  @Written.word ['t'] ⟨by decide, plain_of_all rfl, by decide, by decide⟩

/-! ## Printing -/

namespace Store

theorem toList_writeQuoted (out text : String) :
    (writeQuoted out text).toList = out.toList ++ quotedText text.toList := by
  let append (out : String) (c : Char) : String :=
    if c = '"' then out ++ "\\\"" else if c = '\\' then out ++ "\\\\" else out.push c
  have append_char (out : String) (c : Char) :
      (append out c).toList = out.toList ++ quotedChar c := by
    unfold append quotedChar
    split
    · rw [String.toList_append]
      rfl
    · split
      · rw [String.toList_append]
        rfl
      · exact String.toList_push c
  have append_all (chars : List Char) (out : String) :
      (chars.foldl append out).toList = out.toList ++ quotedChars chars := by
    induction chars generalizing out with
    | nil => exact (List.append_nil _).symm
    | cons c rest ih =>
        rw [List.foldl_cons, ih, append_char, List.append_assoc]
        rfl
  unfold writeQuoted quotedText
  rw [String.foldl_eq_foldl_toList, String.toList_push, append_all, String.toList_push,
    List.append_assoc, List.append_assoc]
  rfl

variable {s : Store} {v : Value} {d : Datum}

/-- The text of an atom stands for it. -/
theorem written_write_atom (holds : s.Holds v d) (atom : v.isCons = false) (names : d.PlainNames)
    (spelled : d.SymbolsSpelled) (room : Nat) (out : String) :
    ∃ text, Written d text ∧ (s.write {} (room + 1) out v).toList = out.toList ++ text := by
  cases holds with
  | nil =>
      refine ⟨_, written_nil, ?_⟩
      rw [write, String.toList_append]
      rfl
  | t =>
      refine ⟨_, written_t, ?_⟩
      rw [write, String.toList_append]
      rfl
  | int n =>
      refine ⟨_, written_numeral n, ?_⟩
      rw [write, String.toList_append, Number.toList_toString]
  | symbol name =>
      refine ⟨name.toList, ?_, ?_⟩
      · rw [← names.ofName_eq spelled.2]
        exact written_name names spelled.1
      · rw [write, String.toList_append]
  | keyword name =>
      have nonempty : name ≠ "" := by
        rintro rfl
        cases names.2
      refine ⟨name.toList, ?_, ?_⟩
      · rw [← names.2]
        exact written_name names.1 nonempty
      · rw [write, String.toList_append]
  | str id text =>
      refine ⟨_, .str text, ?_⟩
      rw [write]
      exact toList_writeQuoted out text
  | cons there car cdr => cases atom

theorem car_of_there {ref : Nat} {p : Pair} (there : s.pairs[ref]? = some p) :
    s.car (.cons ref) = p.car := by
  show (s.pairs[ref]?).elim .nil Pair.car = p.car
  rw [there]
  rfl

theorem cdr_of_there {ref : Nat} {p : Pair} (there : s.pairs[ref]? = some p) :
    s.cdr (.cons ref) = p.cdr := by
  show (s.pairs[ref]?).elim .nil Pair.cdr = p.cdr
  rw [there]
  rfl

section Lists

variable {ref room limit : Nat} {p : Pair} (there : s.pairs[ref]? = some p) (out : String)

/-- The mark that stands for a list, if it has two elements and the first one is known. -/
def listMark? (s : Store) (p : Pair) : Option String :=
  if p.cdr.isCons && (s.cdr p.cdr).isNil then quoteMark? p.car else none

include there

theorem write_marked {mark : String} (marked : s.listMark? p = some mark) :
    s.write {} (room + 1) out (.cons ref) = s.write {} room (out ++ mark) (s.car p.cdr) := by
  rw [write, cdr_of_there there, car_of_there there]
  unfold listMark? at marked
  rw [marked]

theorem write_unmarked (unmarked : s.listMark? p = none) :
    s.write {} (room + 1) out (.cons ref) =
      (s.writeElements (s.write {} room) (printLimit - 1) false
        (s.write {} room (out.push '(') p.car) p.cdr).push ')' := by
  rw [write, cdr_of_there there, car_of_there there]
  unfold listMark? at unmarked
  rw [unmarked]
  show (s.writeElements (s.write {} room) (printLimit - 1 + 1) true (out.push '(')
    (.cons ref)).push ')' = _
  rw [writeElements, cdr_of_there there, car_of_there there]
  rfl

theorem writeElements_cons (write : String → Value → String) :
    s.writeElements write (limit + 1) false out (.cons ref) =
      s.writeElements write limit false (write (out.push ' ') p.car) p.cdr := by
  rw [writeElements, cdr_of_there there, car_of_there there]
  rfl

omit there

theorem writeElements_nil (write : String → Value → String) :
    s.writeElements write limit false out .nil = out := by
  rw [writeElements]

theorem writeElements_atom (write : String → Value → String) (pair : v.isCons = false)
    (some_tail : v.isNil = false) :
    s.writeElements write limit false out v = write (out ++ " . ") v := by
  rw [writeElements.eq_def]
  cases v with
  | nil => cases some_tail
  | cons ref => cases pair
  | _ => rfl

end Lists

/-- A list that a mark stands for is a quoted form or a quoted function. -/
theorem listMark?_cases {p : Pair} {car cdr : Datum} (holds_car : s.Holds p.car car)
    (holds_cdr : s.Holds p.cdr cdr) (names : car.PlainNames) {mark : String}
    (marked : s.listMark? p = some mark) :
    ∃ d, cdr = .cons d .nil ∧ s.Holds (s.car p.cdr) d ∧
      ((car = .symbol "quote" ∧ mark = "'") ∨ (car = .symbol "function" ∧ mark = "#'")) := by
  unfold listMark? at marked
  split at marked
  next two =>
    rw [Bool.and_eq_true] at two
    obtain ⟨ref, q, d, rest, pair, rfl, there, holds_d, holds_rest⟩ := holds_cdr.of_isCons two.1
    have single := two.2
    rw [pair, cdr_of_there there] at single
    cases holds_rest.of_isNil single
    refine ⟨d, rfl, ?_, ?_⟩
    · rw [pair, car_of_there there]
      exact holds_d
    · unfold quoteMark? at marked
      split at marked
      next named => exact .inl ⟨holds_car.of_isNamed names rfl named, (Option.some.inj marked).symm⟩
      next =>
        split at marked
        next named =>
          exact .inr ⟨holds_car.of_isNamed names rfl named, (Option.some.inj marked).symm⟩
        next => cases marked
  next => cases marked

mutual

/-- What is printed of a tree stands for it, if its names are plain and it is neither too
long nor too deep to be printed in full. -/
theorem written_write {v : Value} {d : Datum} (holds : s.Holds v d) (names : d.PlainNames)
    (spelled : d.SymbolsSpelled) (short : d.ShortLists) {room : Nat} (deep : d.nesting < room)
    (out : String) :
    ∃ text, Written d text ∧ (s.write {} room out v).toList = out.toList ++ text := by
  obtain ⟨room, rfl⟩ : ∃ n, room = n + 1 := ⟨room - 1, by omega⟩
  cases pair : v.isCons with
  | false => exact written_write_atom holds pair names spelled room out
  | true =>
      obtain ⟨ref, p, car, cdr, rfl, rfl, there, holds_car, holds_cdr⟩ := holds.of_isCons pair
      obtain ⟨fits, short_car, short_cdr⟩ := short
      have deep_both : car.nesting < room ∧ cdr.nesting ≤ room := by
        simp only [Datum.nesting] at deep
        omega
      cases marked : s.listMark? p with
      | some mark =>
          obtain ⟨d, rfl, holds_d, which⟩ := listMark?_cases holds_car holds_cdr names.1 marked
          have deep_d : d.nesting < room := by
            have within := deep_both.2
            simp only [Datum.nesting] at within
            omega
          obtain ⟨text, written, printed⟩ := written_write holds_d names.2.1 spelled.2.1
            short_cdr.2.1 deep_d (out ++ mark)
          rw [write_marked there out marked, printed, String.toList_append, List.append_assoc]
          rcases which with ⟨rfl, rfl⟩ | ⟨rfl, rfl⟩
          · exact ⟨_, .quote written, rfl⟩
          · exact ⟨_, .function written, rfl⟩
      | none =>
          have fits_cdr : cdr.spine.1.length ≤ printLimit - 1 :=
            Nat.le_sub_one_of_lt (Nat.lt_of_succ_lt fits)
          obtain ⟨first, written, printed⟩ := written_write holds_car names.1 spelled.1 short_car
            deep_both.1 (out.push '(')
          obtain ⟨rest, written_rest, printed_rest⟩ := writtenRest_writeElements holds_cdr names.2
            spelled.2 short_cdr deep_both.2 (Nat.zero_lt_of_lt deep_both.1) fits_cdr
            (s.write {} room (out.push '(') p.car)
          refine ⟨_, .list written written_rest, ?_⟩
          rw [write_unmarked there out marked, printed_rest, printed, String.toList_push]
          simp
termination_by sizeOf d
decreasing_by
  all_goals
    subst_vars
    show sizeOf _ < sizeOf _
    simp only [Datum.cons.sizeOf_spec]
    omega

/-- What is printed of the elements of a list after the first one, with the parenthesis that
closes it. -/
theorem writtenRest_writeElements {v : Value} {d : Datum} (holds : s.Holds v d)
    (names : d.PlainNames) (spelled : d.SymbolsSpelled) (short : d.ShortLists) {room : Nat}
    (deep : d.nesting ≤ room) (positive : 0 < room) {limit : Nat}
    (fits : d.spine.1.length ≤ limit) (out : String) :
    ∃ text, WrittenRest d text ∧
      ((s.writeElements (s.write {} room) limit false out v).push ')').toList =
        out.toList ++ text := by
  cases pair : v.isCons with
  | true =>
      obtain ⟨ref, p, car, cdr, rfl, rfl, there, holds_car, holds_cdr⟩ := holds.of_isCons pair
      have deep_both : car.nesting < room ∧ cdr.nesting ≤ room := by
        simp only [Datum.nesting] at deep
        omega
      have fits_cdr : cdr.spine.1.length + 1 ≤ limit := fits
      obtain ⟨limit, rfl⟩ : ∃ n, limit = n + 1 := ⟨limit - 1, by omega⟩
      obtain ⟨next, written, printed⟩ := written_write holds_car names.1 spelled.1 short.2.1
        deep_both.1 (out.push ' ')
      obtain ⟨rest, written_rest, printed_rest⟩ := writtenRest_writeElements holds_cdr names.2
        spelled.2 short.2.2 deep_both.2 positive (Nat.le_of_succ_le_succ fits_cdr)
        (s.write {} room (out.push ' ') p.car)
      refine ⟨_, .next written written_rest, ?_⟩
      rw [writeElements_cons there, printed_rest, printed, String.toList_push]
      simp
  | false =>
      cases empty : v.isNil with
      | true =>
          cases holds.of_isNil empty
          cases holds
          refine ⟨_, .close, ?_⟩
          rw [writeElements_nil, String.toList_push]
      | false =>
          obtain ⟨room, rfl⟩ : ∃ n, room = n + 1 := ⟨room - 1, by omega⟩
          obtain ⟨tail, written, printed⟩ :=
            written_write_atom holds pair names spelled room (out ++ " . ")
          refine ⟨_, .dotted written, ?_⟩
          rw [writeElements_atom out _ pair empty, String.toList_push, printed,
            String.toList_append]
          simp
termination_by sizeOf d
decreasing_by
  all_goals
    subst_vars
    show sizeOf _ < sizeOf _
    simp only [Datum.cons.sizeOf_spec]
    omega

end

/-! ## Reading back -/

/-- Making a pair leaves the ones that are there as they are. -/
theorem cons_of_there {ref : Nat} {p : Pair} (there : s.pairs[ref]? = some p) (car cdr : Value) :
    (s.cons car cdr).2.pairs[ref]? = some p := by
  obtain ⟨bound, -⟩ := Array.getElem?_eq_some_iff.mp there
  show (s.pairs.push ⟨car, cdr⟩)[ref]? = some p
  rw [Array.getElem?_push_lt bound, ← there, Array.getElem?_eq_getElem bound]

theorem Holds.mono {s' : Store} (holds : s.Holds v d)
    (kept : ∀ (ref : Nat) (p : Pair), s.pairs[ref]? = some p → s'.pairs[ref]? = some p) : s'.Holds v d := by
  induction holds with
  | cons there car cdr ihCar ihCdr => exact .cons (kept _ _ there) ihCar ihCdr
  | _ => constructor

/-- The value that a tree makes in a store is this tree, and what was in the store stays. -/
theorem holds_enter {s₀ : Store} (holds : s₀.Holds v d) (s : Store) :
    (s.enter d).2.Holds (s.enter d).1 d ∧
      ∀ (ref : Nat) (p : Pair), s.pairs[ref]? = some p → (s.enter d).2.pairs[ref]? = some p := by
  induction holds generalizing s with
  | @cons ref p car cdr there _ _ ihCar ihCdr =>
      obtain ⟨holds_cdr, kept_cdr⟩ := ihCdr s
      obtain ⟨holds_car, kept_car⟩ := ihCar (s.enter cdr).2
      have kept (ref : Nat) (p : Pair) :
          ((s.enter cdr).2.enter car).2.pairs[ref]? = some p →
            (s.enter (.cons car cdr)).2.pairs[ref]? = some p :=
        fun there => cons_of_there there ..
      refine ⟨.cons Array.getElem?_push_size ?_ ?_, ?_⟩
      · exact holds_car.mono kept
      · exact (holds_cdr.mono kept_car).mono kept
      · exact fun ref p there => kept ref p (kept_car ref p (kept_cdr ref p there))
  | _ => exact ⟨by constructor, fun _ _ there => there⟩

/-- What is printed of a value is read as exactly one form, and the value that this form
makes is the same tree as the one that was printed. -/
def ReadsBack (s : Store) (v : Value) : Prop :=
  ∃ form, readExpanded (s.print v) = .ok [form] ∧
    ∃ d, (s.enter form).2.Holds v d ∧ (s.enter form).2.Holds (s.enter form).1 d

/-- A value that is a tree of atoms and pairs is read back as it was printed, if its names
are plain and its lists neither too long nor too deep to be printed in full.  A symbol must
not have the empty name or one that is spelled like a keyword, because names are printed as
they are. -/
theorem readsBack_of_holds (holds : s.Holds v d) (printable : d.Printable)
    (spelled : d.SymbolsSpelled) : s.ReadsBack v := by
  have deep_enough : d.nesting < printLimit + 1 := Nat.lt_succ_of_lt printable.shallow
  obtain ⟨text, written, printed⟩ :=
    written_write holds printable.names spelled printable.short deep_enough ""
  have whole : (s.print v).toList = text := printed
  rw [← whole] at written
  obtain ⟨made, kept⟩ := holds_enter holds s
  exact ⟨d, readExpanded_written written, d, holds.mono kept, made⟩

end Store

/-- A name whose word is read as the symbol of this name is plain. -/
theorem PlainName.of_atomDatum {name : String}
    (plain : ∀ c ∈ name.toList, endsAtom c = false ∧ c ≠ '\\') (not_dot : name ≠ ".")
    (no_comment : ¬['#', '|'] <+: name.toList) {d : Datum} (read : atomDatum name.toList = d)
    (named : d = .symbol name ∨ d = .keyword name) : PlainName name where
  plain := plain
  not_dot := not_dot
  no_comment := no_comment
  not_int n int := by rcases named with rfl | rfl <;> cases read.symm.trans int
  not_float x float := by rcases named with rfl | rfl <;> cases read.symm.trans float
  not_nil empty := by rcases named with rfl | rfl <;> cases read.symm.trans empty
  not_t truth := by rcases named with rfl | rfl <;> cases read.symm.trans truth

namespace Store

/-- A quoted symbol in front of the least integer. -/
theorem readsBack_quoted :
    let s : Store :=
      { pairs := #[⟨.symbol "x", .nil⟩, ⟨.symbol "quote", .cons 0⟩, ⟨.cons 1, .int Int64.minValue⟩] }
    s.print (.cons 2) = "('x . -9223372036854775808)" ∧ s.ReadsBack (.cons 2) := by
  intro s
  have holds : s.Holds (.cons 2)
      (.cons (.ofList [.symbol "quote", .symbol "x"]) (.int Int64.minValue)) :=
    .cons rfl (.cons rfl (.symbol _) (.cons rfl (.symbol _) .nil)) (.int _)
  have x : PlainName "x" := .of_atomDatum (plain_of_all rfl) (by decide) (by decide) rfl (.inl rfl)
  have quote : PlainName "quote" := .of_atomDatum (plain_of_all rfl) (by decide) (by decide) rfl (.inl rfl)
  have spelled (name : String) (nonempty : name ≠ "") (stands : Datum.ofName name = .symbol name) :
      (Datum.symbol name).SymbolsSpelled :=
    ⟨nonempty, fun other keyword => by cases stands.symm.trans keyword⟩
  refine ⟨by decide +kernel, readsBack_of_holds holds ⟨?_, ?_, by decide⟩ ?_⟩
  · exact ⟨⟨quote, x, trivial⟩, trivial⟩
  · exact ⟨by decide, ⟨by decide, trivial, by decide, trivial, trivial⟩, trivial⟩
  · exact ⟨⟨spelled "quote" (by decide) rfl, spelled "x" (by decide) rfl, trivial⟩, trivial⟩

theorem print_symbol (s : Store) (name : String) : s.print (.symbol name) = name := by
  show s.write {} (printLimit + 1) "" (.symbol name) = name
  rw [write, String.empty_append]

/-- Two symbols with plain names that are not read back: the one without characters in its
name, of which nothing is printed, and one that is spelled like a keyword. -/
theorem not_readsBack_symbol :
    (({} : Store).Holds (.symbol "") (.symbol "") ∧ (Datum.symbol "").Printable ∧
        ¬({} : Store).ReadsBack (.symbol "")) ∧
      (({} : Store).Holds (.symbol ":a") (.symbol ":a") ∧ (Datum.symbol ":a").Printable ∧
        ¬({} : Store).ReadsBack (.symbol ":a")) := by
  have empty : PlainName "" := .of_atomDatum (plain_of_all rfl) (by decide) (by decide) rfl (.inl rfl)
  have colon : PlainName ":a" := .of_atomDatum (plain_of_all rfl) (by decide) (by decide) rfl (.inr rfl)
  refine ⟨⟨.symbol "", ⟨empty, trivial, by decide⟩, ?_⟩, .symbol ":a", ⟨colon, trivial, by decide⟩, ?_⟩
  · rintro ⟨form, read, -⟩
    have nothing : readExpanded "" = .ok [] := rfl
    rw [print_symbol] at read
    cases nothing.symm.trans read
  · rintro ⟨form, read, d, symbol, keyword⟩
    have other : readExpanded ":a" = .ok [.keyword ":a"] := rfl
    rw [print_symbol] at read
    cases other.symm.trans read
    cases symbol
    cases keyword

end Store

end EditorLisp
