import EditorLisp.Proofs.Source.Place
import EditorLisp.Store.Basic

/-!
# Symbols and their names

A symbol takes one of four shapes, and the name decides which: `nil` and `t` are atoms of
their own, a name with a colon in front is a keyword, and every other name a plain symbol.
The reader keeps to that for a word without a backslash and for the heads that it puts before
a form behind a mark.  A word with a backslash in it is always a plain symbol, so for the
names that are reserved there are two symbols that share a name.

So what the reader makes of a text is followed down to its atoms: a symbol within a form is
the one that its name stands for, or a word with a backslash stands for it in the text.
-/

namespace EditorLisp

/-! ## The names of data -/

namespace Datum

/-- The name of a symbol as written. -/
def symbolName? : Datum → Option String
  | .nil => some "nil"
  | .t => some "t"
  | .symbol name | .keyword name => some name
  | _ => none

/-- A name that does not stand for a plain symbol: `nil`, `t` or one spelled like a keyword. -/
def IsReserved (name : String) : Prop :=
  name = "nil" ∨ name = "t" ∨ (name.front = ':' ∧ 1 < name.utf8ByteSize)

instance (name : String) : Decidable (IsReserved name) :=
  inferInstanceAs (Decidable (_ ∨ _ ∨ _))

/-- A datum at some place in a form, or the form itself. -/
inductive Within (d : Datum) : Datum → Prop
  | refl : Within d d
  | car {car cdr : Datum} : Within d car → Within d (.cons car cdr)
  | cdr {car cdr : Datum} : Within d cdr → Within d (.cons car cdr)

theorem symbolName?_ofName (name : String) : (ofName name).symbolName? = some name := by
  unfold ofName
  split
  next isNil => rw [isNil]; rfl
  next =>
    split
    next isT => rw [isT]; rfl
    next => split <;> rfl

theorem ofName_of_not_isReserved {name : String} (plain : ¬IsReserved name) :
    ofName name = .symbol name := by
  rw [IsReserved, not_or, not_or] at plain
  rw [ofName, if_neg plain.1, if_neg plain.2.1, if_neg plain.2.2]

/-- A symbol keeps its name when it enters a store, and no other datum gets one. -/
theorem symbolName?_enter (st : Store) (d : Datum) :
    (st.enter d).1.symbolName? = d.symbolName? := by
  cases d <;> rfl

/-- A symbol enters every store as the same value. -/
theorem same_enter {d : Datum} {name : String} (named : d.symbolName? = some name)
    (st st' : Store) : (st.enter d).1.same (st'.enter d).1 = true := by
  cases d with
  | nil | t => rfl
  | symbol word | keyword word => exact beq_self_eq_true word
  | int n | float x | str word | cons car cdr => cases named

end Datum

namespace Source

open Datum

variable {text : List Char} {c after : Cursor} {form : Datum}

/-! ## Symbols that are spelled as they are -/

/-- Somewhere in the text a word with a backslash in it stands for the datum. -/
def Escaped (text : List Char) (d : Datum) : Prop :=
  ∃ c after : Cursor, c.rest <:+ text ∧ (atomText c.rest c.offset [] false).2.1 = true ∧
    readAtom c = .ok (d, after)

/-- Each symbol within a form is the one that its name stands for, or is written with a
backslash in the text. -/
def Spelled (text : List Char) (form : Datum) : Prop :=
  ∀ d : Datum, d.Within form → ∀ name, d.symbolName? = some name →
    d = .ofName name ∨ Escaped text d

/-- A word with a backslash in it stands for a plain symbol. -/
theorem Escaped.eq_symbol {d : Datum} {name : String} (escaped : Escaped text d)
    (named : d.symbolName? = some name) : d = .symbol name := by
  obtain ⟨c, after, -, backslash, read⟩ := escaped
  unfold readAtom at read
  generalize atomText c.rest c.offset [] false = found at read backslash
  obtain ⟨word, escaped, left⟩ := found
  obtain rfl : escaped = true := backslash
  cases word with
  | nil => cases read
  | cons ch word =>
      cases read
      cases named
      rfl

theorem spelled_atom (atom : ∀ car cdr, form ≠ .cons car cdr)
    (own : ∀ name, form.symbolName? = some name → form = .ofName name ∨ Escaped text form) :
    Spelled text form := by
  intro d within
  cases within with
  | refl => exact own
  | car _ => exact absurd rfl (atom _ _)
  | cdr _ => exact absurd rfl (atom _ _)

theorem spelled_ofName (text : List Char) (name : String) : Spelled text (.ofName name) := by
  refine spelled_atom ?_ fun other named => ?_
  · intro car cdr
    unfold ofName
    split
    next => exact nofun
    next =>
      split
      next => exact nofun
      next => split <;> exact nofun
  · rw [symbolName?_ofName] at named
    cases named
    exact .inl rfl

theorem spelled_atomDatum (text word : List Char) : Spelled text (atomDatum word) := by
  unfold atomDatum
  split
  next => exact spelled_atom nofun nofun
  next =>
    split
    next => exact spelled_atom nofun nofun
    next => exact spelled_ofName text (String.ofList word)

theorem Spelled.cons {car cdr : Datum} (first : Spelled text car) (rest : Spelled text cdr) :
    Spelled text (.cons car cdr) := by
  intro d within
  cases within with
  | refl => exact nofun
  | car within => exact first d within
  | cdr within => exact rest d within

theorem spelled_listWithTail {items : List Datum} {tail : Datum}
    (each : ∀ item ∈ items, Spelled text item) (last : Spelled text tail) :
    Spelled text (listWithTail items tail) := by
  induction items with
  | nil => exact last
  | cons item items ih =>
      rw [List.forall_mem_cons] at each
      exact each.1.cons (ih each.2)

theorem spelled_ofList {items : List Datum} (each : ∀ item ∈ items, Spelled text item) :
    Spelled text (ofList items) :=
  spelled_listWithTail each (spelled_ofName text "nil")

/-! ## What is read -/

theorem spelled_readString {fuel : Nat} {out : String}
    (read : readString fuel c out = .ok (form, after)) : Spelled text form := by
  fun_induction readString fuel c out
  case case3 =>
    cases read
    refine spelled_atom ?_ ?_
    · rintro _ _ ⟨⟩
    · rintro _ ⟨⟩
  case case7 ih | case8 ih | case9 ih | case10 ih => exact ih read
  all_goals cases read

/-- A word that is read is spelled as it is: with a backslash it is written so, and without
one it is what its name stands for. -/
theorem spelled_readAtom (inside : c.rest <:+ text) (read : readAtom c = .ok (form, after)) :
    Spelled text form := by
  have escaped : (atomText c.rest c.offset [] false).2.1 = true → Escaped text form :=
    fun backslash => ⟨c, after, inside, backslash, read⟩
  unfold readAtom at read
  generalize atomText c.rest c.offset [] false = found at read escaped
  obtain ⟨word, backslash, next⟩ := found
  cases word with
  | nil => cases backslash <;> cases read
  | cons ch word =>
      cases backslash with
      | true =>
          cases read
          exact spelled_atom nofun fun _ _ => .inr (escaped rfl)
      | false =>
          cases read
          exact spelled_atomDatum text (ch :: word)

/-- The marks stand for lists that start with their names. -/
theorem spelled_mark {head : String} (isMark : head ∈ ["quote", "`", ",@", ",", "function"])
    {form : Datum} (inner : Spelled text form) : Spelled text (.ofList [.symbol head, form]) := by
  have isSymbol : ofName head = .symbol head := by
    simp only [List.mem_cons, List.not_mem_nil, or_false] at isMark
    rcases isMark with rfl | rfl | rfl | rfl | rfl <;> rfl
  refine spelled_ofList (List.forall_mem_cons.mpr ⟨?_, List.forall_mem_singleton.mpr inner⟩)
  exact isSymbol ▸ spelled_ofName text head

mutual

theorem ReadsForm.spelled {c after : Cursor} {form : Datum} :
    ReadsForm c form after → c.rest <:+ text → Spelled text form
  | .list reads, inside =>
      reads.spelled (c.skip.1.bump_suffix.trans (c.skip_suffix.trans inside))
        (List.forall_mem_nil _)
  | .marked n isMark reads, inside =>
      spelled_mark isMark
        (reads.spelled ((c.skip.1.advance_suffix n).trans (c.skip_suffix.trans inside)))
  | .string read, _ => spelled_readString read
  | .atom read, inside => spelled_readAtom (c.skip_suffix.trans inside) read

theorem ReadsItems.spelled {c after : Cursor} {form : Datum} {items : List Datum} :
    ReadsItems c items form after → c.rest <:+ text → (∀ item ∈ items, Spelled text item) →
      Spelled text form
  | .close _ _, _, each => spelled_ofList fun item member => each item (List.mem_reverse.mp member)
  | .dotted _ reads, inside, each =>
      spelled_listWithTail (fun item member => each item (List.mem_reverse.mp member))
        (reads.spelled (c.skip.1.bump_suffix.trans (c.skip_suffix.trans inside)))
  | .item first others, inside, each =>
      have here := c.skip_suffix.trans inside
      others.spelled (first.before.suffix.trans here)
        (List.forall_mem_cons.mpr ⟨first.spelled here, each⟩)

end

theorem spelled_readAllFrom {fuel : Nat} {forms read : List Datum} (inside : c.rest <:+ text)
    (each : ∀ form ∈ forms, Spelled text form) (found : readAllFrom fuel c forms = .ok read) :
    ∀ form ∈ read, Spelled text form := by
  induction fuel generalizing c forms with
  | zero =>
      cases found
      exact fun form member => each form (List.mem_reverse.mp member)
  | succ fuel ih =>
      rw [readAllFrom] at found
      have skipped := c.skip_suffix.trans inside
      generalize c.skip = next at found skipped
      obtain ⟨c', more⟩ := next
      cases more with
      | false =>
          cases found
          exact fun form member => each form (List.mem_reverse.mp member)
      | true =>
          simp only at found
          split at found
          next => cases found
          next form after read =>
            have left := (before_of_readForm read).suffix.trans skipped
            have first := (readsForm_of_readForm read).spelled skipped
            exact ih left (List.forall_mem_cons.mpr ⟨first, each⟩) found

/-! ## Two symbols of one name -/

/-- A text from which a form is read, alone or among others.  A source whose shorthand is
written out first is read as the text that the pass writes. -/
inductive Reads (text : String) (form : Datum) : Prop
  | all {forms : List Datum} : readExpanded text = .ok forms → form ∈ forms → Reads text form
  | one {start next : Nat} : readOne text start = .ok (form, next) → Reads text form

/-- A text of one form. -/
theorem Reads.alone {text : String} (read : readExpanded text = .ok [form]) : Reads text form :=
  .all read (List.mem_singleton_self form)

theorem Reads.spelled {text : String} (reads : Reads text form) : Spelled text.toList form := by
  cases reads with
  | all read listed =>
      exact spelled_readAllFrom List.suffix_rfl (List.forall_mem_nil _) read form listed
  | @one start next read =>
      obtain ⟨c, after, skipped, found, -⟩ := exists_of_readOne read
      have inside := (Cursor.skip_suffix _).trans
        ((Cursor.ofString text).advance_suffix (min start text.length))
      rw [skipped] at inside
      exact (readsForm_of_readForm found).spelled inside

/-- Two symbols that are read and have the same name are identical.  When the name is `nil`,
`t` or spelled like a keyword, that takes that both are written with a backslash or neither
is: with a backslash every name stands for a plain symbol. -/
theorem same_of_reads {text text' : String} {form form' d d' : Datum} {st st' : Store}
    {name : String} (reads : Reads text form) (reads' : Reads text' form')
    (within : d.Within form) (within' : d'.Within form')
    (named : (st.enter d).1.symbolName? = some name)
    (named' : (st'.enter d').1.symbolName? = some name)
    (alike : IsReserved name → (Escaped text.toList d ↔ Escaped text'.toList d')) :
    (st.enter d).1.same (st'.enter d').1 = true := by
  rw [symbolName?_enter] at named named'
  have spelled := reads.spelled d within name named
  have spelled' := reads'.spelled d' within' name named'
  suffices d = d' by
    subst this
    exact same_enter named st st'
  by_cases reserved : IsReserved name
  case neg =>
    -- such a name stands for the plain symbol that a backslash makes of it
    have plain := ofName_of_not_isReserved reserved
    have eq : d = .symbol name :=
      spelled.elim (fun eq => eq.trans plain) fun escaped => escaped.eq_symbol named
    have eq' : d' = .symbol name :=
      spelled'.elim (fun eq => eq.trans plain) fun escaped => escaped.eq_symbol named'
    rw [eq, eq']
  case pos =>
    by_cases escaped : Escaped text.toList d
    case pos =>
      rw [escaped.eq_symbol named, ((alike reserved).mp escaped).eq_symbol named']
    case neg =>
      have unescaped : ¬Escaped text'.toList d' := fun e => escaped ((alike reserved).mpr e)
      rw [spelled.resolve_right escaped, spelled'.resolve_right unescaped]

/-- With a backslash before it or not, and behind a mark or not, an `a` is one symbol. -/
theorem same_of_reads_marked :
    Reads "'a" (.ofList [.symbol "quote", .symbol "a"]) ∧ Reads "\\a" (.symbol "a") ∧
      (({} : Store).enter (.symbol "a")).1.same (({} : Store).enter (.symbol "a")).1 = true := by
  have reads : Reads "'a" (.ofList [.symbol "quote", .symbol "a"]) := .alone rfl
  have reads' : Reads "\\a" (.symbol "a") := .alone rfl
  refine ⟨reads, reads', same_of_reads reads reads' (.cdr (.car .refl)) .refl rfl rfl ?_⟩
  exact fun reserved => absurd reserved (by decide)

/-- The atom `nil` and the symbol that is written with a backslash before it have one name and
are two symbols. -/
theorem unlike_escaped_nil :
    Reads "nil" .nil ∧ Reads "\\nil" (.symbol "nil") ∧
      (({} : Store).enter .nil).1.symbolName? = some "nil" ∧
      (({} : Store).enter (.symbol "nil")).1.symbolName? = some "nil" ∧
      (({} : Store).enter .nil).1.same (({} : Store).enter (.symbol "nil")).1 = false :=
  ⟨.alone rfl, .alone rfl, rfl, rfl, rfl⟩

end Source

end EditorLisp
