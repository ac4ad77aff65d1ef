import EditorLisp.Proofs.Source.Written

/-!
# Reading further on

The reader looks at what is left of a text only.  Where the text stands is counted for the
sake of errors: a text that stands further on is read in the same way, and all that changes
are the offsets.

Each form that is read takes at least one character, which is why the reader of a whole text
needs no larger counter than the length of the text.
-/

namespace EditorLisp.Source

/-- The same text, some bytes further on. -/
def Cursor.moved (k : Nat) (c : Cursor) : Cursor := ⟨c.rest, c.offset + k⟩

/-- An error found in a text that stands some bytes further on. -/
def Error.moved (k : Nat) (e : Error) : Error := ⟨e.fault, e.offset + k⟩

/-- What is read of a text that stands some bytes further on. -/
def moved (k : Nat) : Except Error (Datum × Cursor) → Except Error (Datum × Cursor)
  | .ok (form, after) => .ok (form, after.moved k)
  | .error e => .error (e.moved k)

variable (k : Nat)

theorem moved_ok (form : Datum) (after : Cursor) :
    moved k (.ok (form, after)) = .ok (form, after.moved k) := rfl

/-! ## Steps through a text -/

theorem Cursor.rest_moved (c : Cursor) : (c.moved k).rest = c.rest := rfl

theorem Cursor.bump_moved (c : Cursor) : (c.moved k).bump = c.bump.moved k := by
  obtain ⟨rest, offset⟩ := c
  cases rest with
  | nil => rfl
  | cons ch rest => exact congrArg (Cursor.mk rest) (Nat.add_right_comm offset k ch.utf8Size)

theorem Cursor.advance_moved (n : Nat) (c : Cursor) :
    (c.moved k).advance n = (c.advance n).moved k := by
  induction n generalizing c with
  | zero => rfl
  | succ n ih => rw [advance, advance, bump_moved, ih]

theorem Cursor.skipFrom_moved (s : Skipping) (offset : Nat) (text : List Char) :
    skipFrom s (offset + k) text =
      ((skipFrom s offset text).1.moved k, (skipFrom s offset text).2) := by
  fun_induction skipFrom s offset text with
  | case1 s offset => cases s <;> rfl
  | case2 offset rest ih =>
      show skipFrom .line (offset + k + 1) rest = _
      rw [Nat.add_right_comm, ih]
  | case3 offset rest ih =>
      show skipFrom (.block 1) (offset + k + 2) rest = _
      rw [Nat.add_right_comm, ih]
  | case4 offset c rest noLine noBlock blank ih =>
      rw [skipFrom_blanks_cons _ noLine noBlock, if_pos blank, Nat.add_right_comm, ih]
  | case5 offset c rest noLine noBlock blank =>
      rw [skipFrom_blanks_cons _ noLine noBlock, if_neg blank]
      rfl
  | case6 offset c rest ih => rw [skipFrom_line_cons, Nat.add_right_comm, ih]
  | case7 depth offset rest ih =>
      show skipFrom (.block (depth + 1)) (offset + k + 2) rest = _
      rw [Nat.add_right_comm, ih]
  | case8 depth offset rest ih =>
      show skipFrom (if depth ≤ 1 then .blanks else .block (depth - 1)) (offset + k + 2) rest = _
      rw [Nat.add_right_comm, ih]
  | case9 depth offset c rest noOpening noClosing ih =>
      rw [skipFrom_block_cons _ _ noOpening noClosing, Nat.add_right_comm, ih]

theorem Cursor.skip_moved (c : Cursor) :
    (c.moved k).skip = (c.skip.1.moved k, c.skip.2) :=
  skipFrom_moved k .blanks c.offset c.rest

/-! ## Atoms and strings -/

theorem readString_moved (fuel : Nat) (c : Cursor) (out : String) :
    readString fuel (c.moved k) out = moved k (readString fuel c out) := by
  induction fuel generalizing c out with
  | zero => rfl
  | succ fuel ih =>
      rw [readString.eq_def, readString.eq_def]
      simp only [Cursor.rest_moved, Cursor.bump_moved, Cursor.advance_moved, ih]
      split
      next => rfl
      next => rfl
      next => rfl
      next rest _ =>
        generalize c.advance (2 + (rest.takeWhile (Number.isDigit 16)).length) = after
        split
        next => rfl
        next =>
          split
          next => rfl
          next =>
            split
            next => exact ih _ _
            next => exact ih _ _
      next =>
        split
        next => rfl
        next => rfl
      next => rfl

theorem atomText_quoted (c : Char) (rest : List Char) (offset : Nat) (out : List Char)
    (escaped : Bool) :
    atomText ('\\' :: c :: rest) offset out escaped =
      atomText rest (offset + 1 + c.utf8Size) (c :: out) true := by
  rw [atomText.eq_def]
  rfl

theorem atomText_moved (text : List Char) (offset : Nat) (out : List Char) (escaped : Bool) :
    atomText text (offset + k) out escaped =
      ((atomText text offset out escaped).1, (atomText text offset out escaped).2.1,
        (atomText text offset out escaped).2.2.moved k) := by
  fun_induction atomText text offset out escaped with
  | case1 => rfl
  | case2 offset out escaped =>
      rw [atomText.eq_def]
      exact congrArg (fun n => (('\\' :: out).reverse, true, Cursor.mk [] n))
        (Nat.add_right_comm offset k 1)
  | case3 c rest offset out escaped ih =>
      rw [atomText_quoted, Nat.add_right_comm offset k 1, Nat.add_right_comm (offset + 1), ih]
  | case4 c rest offset out escaped alone quoting ends =>
      have unquoted : c ≠ '\\' := by
        rintro rfl
        cases rest with
        | nil => exact alone rfl rfl
        | cons d rest => exact quoting d rest rfl rfl
      rw [atomText_cons unquoted, if_pos ends]
      rfl
  | case5 c rest offset out escaped alone quoting ends ih =>
      have unquoted : c ≠ '\\' := by
        rintro rfl
        cases rest with
        | nil => exact alone rfl rfl
        | cons d rest => exact quoting d rest rfl rfl
      rw [atomText_cons unquoted, if_neg ends, Nat.add_right_comm, ih]

theorem readAtom_moved (c : Cursor) : readAtom (c.moved k) = moved k (readAtom c) := by
  unfold readAtom
  simp only [Cursor.moved, atomText_moved]
  obtain ⟨word, escaped, after⟩ := atomText c.rest c.offset [] false
  cases word with
  | nil => cases escaped <;> rfl
  | cons ch word => cases escaped <;> rfl

/-! ## Forms -/

mutual

theorem readForm_moved (fuel : Nat) (c : Cursor) :
    readForm fuel (c.moved k) = moved k (readForm fuel c) := by
  cases fuel with
  | zero => rw [readForm, readForm]; rfl
  | succ fuel =>
      rw [readForm.eq_2, readForm.eq_2, Cursor.skip_moved]
      generalize c.skip.1 = c
      simp only [Cursor.rest_moved, Cursor.bump_moved, Cursor.advance_moved]
      split
      next => rfl
      next => exact readItems_moved fuel c.bump []
      next => rfl
      next => exact readMarked_moved fuel c.bump "quote"
      next => exact readMarked_moved fuel c.bump "`"
      next => exact readMarked_moved fuel (c.advance 2) ",@"
      next => exact readMarked_moved fuel c.bump ","
      next => exact readString_moved k fuel c.bump ""
      next => exact readMarked_moved fuel (c.advance 2) "function"
      next => exact readAtom_moved k c
termination_by fuel
decreasing_by
  all_goals
    subst_vars
    exact Nat.lt_succ_self _

theorem readMarked_moved (fuel : Nat) (c : Cursor) (head : String) :
    readMarked fuel (c.moved k) head = moved k (readMarked fuel c head) := by
  cases fuel with
  | zero => rw [readMarked, readMarked]; rfl
  | succ fuel =>
      rw [readMarked, readMarked, readForm_moved fuel c]
      cases readForm fuel c with
      | error e => rfl
      | ok read => rfl
termination_by fuel
decreasing_by
  all_goals
    subst_vars
    exact Nat.lt_succ_self _

theorem readItems_moved (fuel : Nat) (c : Cursor) (items : List Datum) :
    readItems fuel (c.moved k) items = moved k (readItems fuel c items) := by
  cases fuel with
  | zero => rw [readItems, readItems]; rfl
  | succ fuel =>
      rw [readItems.eq_2, readItems.eq_2, Cursor.skip_moved]
      generalize c.skip.1 = c
      simp only [Cursor.rest_moved, Cursor.bump_moved]
      split
      next => rfl
      next => rfl
      next ch next _ =>
        split
        next =>
          rw [readForm_moved fuel c.bump]
          cases readForm fuel c.bump with
          | error e => rfl
          | ok read =>
              obtain ⟨tail, after⟩ := read
              simp only [moved_ok, Cursor.skip_moved, Cursor.rest_moved]
              split
              next => rw [Cursor.bump_moved, moved_ok]
              next => rfl
        next =>
          rw [readForm_moved fuel c]
          cases readForm fuel c with
          | error e => rfl
          | ok read =>
              obtain ⟨item, after⟩ := read
              exact readItems_moved fuel after (item :: items)
termination_by fuel
decreasing_by
  all_goals
    subst_vars
    exact Nat.lt_succ_self _

end

/-! ## What is left -/

theorem Cursor.bump_suffix (c : Cursor) : c.bump.rest <:+ c.rest := by
  obtain ⟨rest, offset⟩ := c
  cases rest with
  | nil => exact List.suffix_rfl
  | cons ch rest => exact List.suffix_cons ch rest

theorem Cursor.advance_suffix (c : Cursor) (n : Nat) : (c.advance n).rest <:+ c.rest := by
  induction n generalizing c with
  | zero => exact List.suffix_rfl
  | succ n ih => exact (ih c.bump).trans c.bump_suffix

theorem Cursor.skipFrom_suffix (s : Skipping) (offset : Nat) (text : List Char) :
    (skipFrom s offset text).1.rest <:+ text := by
  fun_induction skipFrom s offset text with
  | case1 => exact List.suffix_rfl
  | case5 => exact List.suffix_rfl
  | case2 offset rest ih => exact ih.trans (List.suffix_cons _ _)
  | case3 offset rest ih => exact ih.trans ((List.suffix_cons _ _).trans (List.suffix_cons _ _))
  | case4 offset c rest _ _ _ ih => exact ih.trans (List.suffix_cons _ _)
  | case6 offset c rest ih => exact ih.trans (List.suffix_cons _ _)
  | case7 depth offset rest ih =>
      exact ih.trans ((List.suffix_cons _ _).trans (List.suffix_cons _ _))
  | case8 depth offset rest ih =>
      exact ih.trans ((List.suffix_cons _ _).trans (List.suffix_cons _ _))
  | case9 depth offset c rest _ _ ih => exact ih.trans (List.suffix_cons _ _)

theorem Cursor.skip_suffix (c : Cursor) : c.skip.1.rest <:+ c.rest :=
  skipFrom_suffix .blanks c.offset c.rest

/-- Less is left at the second place than at the first, and it is the end of that. -/
structure Cursor.Before (c after : Cursor) : Prop where
  suffix : after.rest <:+ c.rest
  length_lt : after.rest.length < c.rest.length

theorem Cursor.Before.of_suffix {c c' after : Cursor} (before : c.Before after)
    (earlier : c.rest <:+ c'.rest) : c'.Before after :=
  ⟨before.suffix.trans earlier, Nat.lt_of_lt_of_le before.length_lt earlier.length_le⟩

theorem Cursor.Before.and_suffix {c c' after : Cursor} (before : c.Before after)
    (later : c'.rest <:+ after.rest) : c.Before c' :=
  ⟨later.trans before.suffix, Nat.lt_of_le_of_lt later.length_le before.length_lt⟩

theorem Cursor.before_bump {c : Cursor} {ch : Char} {rest : List Char}
    (next : c.rest = ch :: rest) : c.Before c.bump := by
  obtain ⟨text, offset⟩ := c
  obtain rfl : text = ch :: rest := next
  exact ⟨List.suffix_cons ch rest, Nat.lt_succ_self _⟩

variable {fuel : Nat} {c after : Cursor} {form : Datum}

theorem before_of_readString {out : String} (read : readString fuel c out = .ok (form, after)) :
    c.Before after := by
  fun_induction readString fuel c out with
  | case1 => cases read
  | case2 => cases read
  | case3 fuel c out rest next =>
      cases read
      exact Cursor.before_bump next
  | case4 => cases read
  | case5 => cases read
  | case6 => cases read
  | case7 fuel c out rest next word escape code _ ch _ next' ih =>
      have escaped := c.advance_suffix (2 + word.length)
      refine (ih read).of_suffix ?_
      unfold next'
      split
      next => exact (escape.advance_suffix 2).trans escaped
      next => exact escaped
  | case8 fuel c out ch rest _ next octal word ih => exact (ih read).of_suffix (c.advance_suffix _)
  | case9 fuel c out ch rest _ next octal ih => exact (ih read).of_suffix (c.advance_suffix _)
  | case10 fuel c out ch rest _ _ _ _ next ih => exact (ih read).of_suffix c.bump_suffix

theorem atomText_suffix (text : List Char) (offset : Nat) (out : List Char) (escaped : Bool) :
    (atomText text offset out escaped).2.2.rest <:+ text := by
  fun_induction atomText text offset out escaped with
  | case1 => exact List.suffix_rfl
  | case2 => exact List.nil_suffix
  | case3 c rest offset out escaped ih =>
      exact ih.trans ((List.suffix_cons _ _).trans (List.suffix_cons _ _))
  | case4 => exact List.suffix_rfl
  | case5 c rest offset out escaped _ _ _ ih => exact ih.trans (List.suffix_cons _ _)

theorem length_atomText_le (text : List Char) (offset : Nat) (out : List Char) (escaped : Bool) :
    (atomText text offset out escaped).1.length +
      (atomText text offset out escaped).2.2.rest.length ≤ out.length + text.length := by
  fun_induction atomText text offset out escaped with
  | case1 offset out escaped => simp
  | case2 offset out escaped => simp
  | case3 c rest offset out escaped ih =>
      simp only [List.length_cons] at ih ⊢
      omega
  | case4 c rest offset out escaped => simp
  | case5 c rest offset out escaped _ _ _ ih =>
      simp only [List.length_cons] at ih ⊢
      omega

theorem before_of_readAtom (read : readAtom c = .ok (form, after)) : c.Before after := by
  have suffix := atomText_suffix c.rest c.offset [] false
  have bounded := length_atomText_le c.rest c.offset [] false
  unfold readAtom at read
  generalize atomText c.rest c.offset [] false = found at read bounded suffix
  obtain ⟨word, escaped, rest⟩ := found
  cases word with
  | nil => cases escaped <;> cases read
  | cons ch word =>
      simp only [List.length_cons, List.length_nil] at bounded
      obtain rfl : rest = after := by cases escaped <;> cases read <;> rfl
      exact ⟨suffix, by omega⟩

mutual

/-- How a form is read, whatever the counter. -/
inductive ReadsForm : Cursor → Datum → Cursor → Prop where
  | list {c after : Cursor} {form : Datum} : ReadsItems c.skip.1.bump [] form after →
      ReadsForm c form after
  | marked {c after : Cursor} {form : Datum} {head : String} (n : Nat) :
      head ∈ ["quote", "`", ",@", ",", "function"] →
        ReadsForm (c.skip.1.advance n) form after →
          ReadsForm c (.ofList [.symbol head, form]) after
  | string {c after : Cursor} {form : Datum} {fuel : Nat} :
      readString fuel c.skip.1.bump "" = .ok (form, after) → ReadsForm c form after
  | atom {c after : Cursor} {form : Datum} : readAtom c.skip.1 = .ok (form, after) →
      ReadsForm c form after

/-- How the rest of a list is read after some elements, the last one in front. -/
inductive ReadsItems : Cursor → List Datum → Datum → Cursor → Prop where
  | close {c : Cursor} {rest : List Char} (items : List Datum) : c.skip.1.rest = ')' :: rest →
      ReadsItems c items (.ofList items.reverse) c.skip.1.bump
  | dotted {c between : Cursor} {tail : Datum} (items : List Datum) :
      ReadsForm c.skip.1.bump tail between →
        ReadsItems c items (.listWithTail items.reverse tail) between.skip.1.bump
  | item {c between after : Cursor} {item form : Datum} {items : List Datum} :
      ReadsForm c.skip.1 item between → ReadsItems between (item :: items) form after →
        ReadsItems c items form after

end

mutual

theorem readsForm_of_readForm {fuel : Nat} {c after : Cursor} {form : Datum}
    (read : readForm fuel c = .ok (form, after)) : ReadsForm c form after := by
  cases fuel with
  | zero => cases read
  | succ fuel =>
      have marked {n : Nat} {head : String}
          (isMark : head ∈ ["quote", "`", ",@", ",", "function"])
          (read : readMarked fuel (c.skip.1.advance n) head = .ok (form, after)) :
          ReadsForm c form after := by
        obtain ⟨inner, reads, rfl⟩ := readsForm_of_readMarked read
        exact .marked n isMark reads
      rw [readForm.eq_2] at read
      split at read
      next => cases read
      next => exact .list (readsItems_of_readItems read)
      next => cases read
      next => exact marked (n := 1) (by decide) read
      next => exact marked (n := 1) (by decide) read
      next => exact marked (n := 2) (by decide) read
      next => exact marked (n := 1) (by decide) read
      next => exact .string read
      next => exact marked (n := 2) (by decide) read
      next => exact .atom read
termination_by fuel
decreasing_by
  all_goals
    subst_vars
    exact Nat.lt_succ_self _

theorem readsForm_of_readMarked {fuel : Nat} {c after : Cursor} {form : Datum} {head : String}
    (read : readMarked fuel c head = .ok (form, after)) :
    ∃ inner, ReadsForm c inner after ∧ form = .ofList [.symbol head, inner] := by
  cases fuel with
  | zero => cases read
  | succ fuel =>
      rw [readMarked] at read
      split at read
      next => cases read
      next found =>
        cases read
        exact ⟨_, readsForm_of_readForm found, rfl⟩
termination_by fuel
decreasing_by
  all_goals
    subst_vars
    exact Nat.lt_succ_self _

theorem readsItems_of_readItems {fuel : Nat} {c after : Cursor} {form : Datum} {items : List Datum}
    (read : readItems fuel c items = .ok (form, after)) : ReadsItems c items form after := by
  cases fuel with
  | zero => cases read
  | succ fuel =>
      rw [readItems.eq_2] at read
      split at read
      next => cases read
      next closes =>
        cases read
        exact .close items closes
      next =>
        split at read
        next =>
          split at read
          next => cases read
          next tail between found =>
            simp only at read
            split at read
            next =>
              cases read
              exact .dotted items (readsForm_of_readForm found)
            next => cases read
        next =>
          split at read
          next => cases read
          next item between found =>
            exact .item (readsForm_of_readForm found) (readsItems_of_readItems read)
termination_by fuel
decreasing_by
  all_goals
    subst_vars
    exact Nat.lt_succ_self _

end

mutual

theorem ReadsForm.before {c after : Cursor} {form : Datum} :
    ReadsForm c form after → c.Before after
  | .list reads => reads.before.of_suffix (c.skip.1.bump_suffix.trans c.skip_suffix)
  | .marked n _ reads => reads.before.of_suffix ((c.skip.1.advance_suffix n).trans c.skip_suffix)
  | .string read =>
      (before_of_readString read).of_suffix (c.skip.1.bump_suffix.trans c.skip_suffix)
  | .atom read => (before_of_readAtom read).of_suffix c.skip_suffix

theorem ReadsItems.before {c after : Cursor} {form : Datum} {items : List Datum} :
    ReadsItems c items form after → c.Before after
  | .close _ closes => (Cursor.before_bump closes).of_suffix c.skip_suffix
  | @ReadsItems.dotted _ between _ _ reads =>
      (reads.before.of_suffix (c.skip.1.bump_suffix.trans c.skip_suffix)).and_suffix
        (between.skip.1.bump_suffix.trans between.skip_suffix)
  | .item first others =>
      (others.before.of_suffix first.before.suffix).of_suffix c.skip_suffix

end

theorem before_of_readForm (read : readForm fuel c = .ok (form, after)) : c.Before after :=
  (readsForm_of_readForm read).before

/-- A form that is read from a position is the first one that follows it. -/
theorem exists_of_readOne {text : String} {start stop : Nat}
    (read : readOne text start = .ok (form, stop)) :
    ∃ c after, ((Cursor.ofString text).advance (min start text.length)).skip = (c, true) ∧
      c.readForm = .ok (form, after) ∧ stop = text.length - after.rest.length := by
  unfold readOne at read
  split at read
  next => cases read
  next c skipped =>
    split at read
    next => cases read
    next after found =>
      cases read
      exact ⟨c, after, skipped, found, rfl⟩

/-! ## Whole texts -/

/-- Forms are read alike further on, with any counters that the text cannot exhaust. -/
theorem readAllFrom_moved {fuel fuel' : Nat} (c : Cursor) (forms : List Datum)
    (enough : c.rest.length < fuel) (enough' : c.rest.length < fuel')
    {read : List Datum} (found : readAllFrom fuel c forms = .ok read) :
    readAllFrom fuel' (c.moved k) forms = .ok read := by
  induction fuel generalizing fuel' c forms with
  | zero => exact absurd enough (Nat.not_lt_zero _)
  | succ fuel ih =>
      obtain ⟨fuel', rfl⟩ : ∃ n, fuel' = n + 1 := ⟨fuel' - 1, by omega⟩
      rw [readAllFrom] at found ⊢
      rw [Cursor.skip_moved]
      have skipped := c.skip_suffix.length_le
      generalize c.skip = next at found skipped ⊢
      obtain ⟨c', more⟩ := next
      cases more with
      | false => exact found
      | true =>
          have same : (c'.moved k).readForm = moved k c'.readForm :=
            readForm_moved k (2 * c'.rest.length + 2) c'
          simp only [same] at found ⊢
          cases first : c'.readForm with
          | error e =>
              rw [first] at found
              cases found
          | ok result =>
              obtain ⟨form, after⟩ := result
              simp only [first, moved_ok] at found ⊢
              have taken : after.rest.length < c'.rest.length := (before_of_readForm first).length_lt
              have reached : c'.rest.length ≤ c.rest.length := skipped
              exact ih after (form :: forms) (by omega) (by omega) found

end EditorLisp.Source
