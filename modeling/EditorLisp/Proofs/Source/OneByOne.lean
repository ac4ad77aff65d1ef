import EditorLisp.Proofs.Source.Place
import EditorLisp.Text.Offset

/-!
# Reading one form at a time

The reader of a whole text goes on where the last form ended.  Whoever reads one form at a time says
where to start and is told where the form ended, in characters, while the reader counts bytes.  Both
come to the same forms.  A place in a text is known by the end of the text that is left there, and
the position that is told for a place leads back to what was left.
-/

namespace EditorLisp.Source

open EditorLisp.Text

variable {text : String} {c c' after : Cursor} {form : Datum} {start stop fuel : Nat}

/-! ## Positions of places -/

/-- The number of characters of a text before a place in it. -/
def Cursor.position (text : String) (c : Cursor) : Nat := text.length - c.rest.length

theorem Cursor.rest_advance (c : Cursor) (n : Nat) : (c.advance n).rest = c.rest.drop n := by
  induction n generalizing c with
  | zero => rfl
  | succ n ih =>
      obtain ⟨rest, offset⟩ := c
      cases rest <;> simp [advance, bump, ih]

/-- Where reading starts for the position of a place, there is left what was left at the place. -/
theorem Cursor.rest_advance_position (inside : c.rest <:+ text.toList) :
    ((Cursor.ofString text).advance (min (c.position text) text.length)).rest = c.rest := by
  have before : c.position text ≤ text.length := Nat.sub_le ..
  rw [rest_advance, Nat.min_eq_left before, position, ← String.length_toList]
  exact (List.suffix_iff_eq_drop.mp inside).symm

/-! ## The bytes before a place -/

@[simp]
theorem byteLength_cons (ch : Char) (rest : List Char) :
    byteLength (ch :: rest) = ch.utf8Size + byteLength rest := rfl

theorem Cursor.offset_advance (c : Cursor) (n : Nat) :
    (c.advance n).offset + byteLength (c.advance n).rest = c.offset + byteLength c.rest := by
  induction n generalizing c with
  | zero => rfl
  | succ n ih =>
      rw [advance, ih]
      obtain ⟨rest, offset⟩ := c
      cases rest <;> simp [bump, Nat.add_assoc]

theorem Cursor.offset_skipFrom (s : Skipping) (offset : Nat) (text : List Char) :
    (skipFrom s offset text).1.offset + byteLength (skipFrom s offset text).1.rest =
      offset + byteLength text := by
  have semicolon : ';'.utf8Size = 1 := rfl
  have hash : '#'.utf8Size = 1 := rfl
  have bar : '|'.utf8Size = 1 := rfl
  fun_induction skipFrom s offset text with
  | case1 | case5 => rfl
  | case2 _ _ ih | case3 _ _ ih | case7 _ _ _ ih | case8 _ _ _ ih =>
      simp only [byteLength_cons, ih]
      omega
  | case4 _ _ _ _ _ _ ih | case6 _ _ _ ih | case9 _ _ _ _ _ _ ih =>
      simp only [byteLength_cons, ih]
      omega

/-- Where no token follows, the whole text has been stepped over. -/
theorem Cursor.rest_skipFrom_of_eq_false (s : Skipping) (offset : Nat) (text : List Char)
    (finished : (skipFrom s offset text).2 = false) : (skipFrom s offset text).1.rest = [] := by
  fun_induction skipFrom s offset text with
  | case1 => rfl
  | case5 => cases finished
  | case2 _ _ ih | case3 _ _ ih | case7 _ _ _ ih | case8 _ _ _ ih => exact ih finished
  | case4 _ _ _ _ _ _ ih | case6 _ _ _ ih | case9 _ _ _ _ _ _ ih => exact ih finished

/-! ## What is left decides -/

theorem Cursor.eq_moved (c : Cursor) : c = (⟨c.rest, 0⟩ : Cursor).moved c.offset := by
  obtain ⟨rest, offset⟩ := c
  simp [moved]

/-- Tokens are stepped over alike from wherever the same text is left. -/
theorem Cursor.skip_of_rest_eq (same : c'.rest = c.rest) :
    c'.skip.1.rest = c.skip.1.rest ∧ c'.skip.2 = c.skip.2 := by
  rw [c.eq_moved, c'.eq_moved, same, skip_moved, skip_moved]
  exact ⟨rfl, rfl⟩

theorem Cursor.readForm_eq_moved (c : Cursor) :
    c.readForm = Source.moved c.offset (⟨c.rest, 0⟩ : Cursor).readForm :=
  (congrArg Cursor.readForm c.eq_moved).trans (readForm_moved ..)

/-- A form is read alike from wherever the same text is left, and then again the same is left. -/
theorem Cursor.readForm_of_rest_eq (same : c'.rest = c.rest)
    (read : c.readForm = .ok (form, after)) :
    ∃ after', c'.readForm = .ok (form, after') ∧ after'.rest = after.rest := by
  rw [readForm_eq_moved] at read ⊢
  rw [same]
  cases found : (⟨c.rest, 0⟩ : Cursor).readForm with
  | error e =>
      rw [found] at read
      cases read
  | ok result =>
      obtain ⟨form', after'⟩ := result
      rw [found] at read
      cases read
      exact ⟨after'.moved c'.offset, rfl, rfl⟩

/-! ## One form -/

/-- Where the reader of the whole text finds a form, it is read from the position, up to the
position where the reader goes on. -/
theorem readOne_position (inside : c.rest <:+ text.toList) (skip : c.skip = (c', true))
    (read : c'.readForm = .ok (form, after)) :
    readOne text (c.position text) = .ok (form, after.position text) := by
  have started := Cursor.rest_advance_position inside
  unfold readOne
  generalize (Cursor.ofString text).advance _ = start at started
  obtain ⟨left, more⟩ := Cursor.skip_of_rest_eq started
  rw [skip] at left more
  generalize start.skip = next at left more
  obtain ⟨next, more'⟩ := next
  obtain rfl : more' = true := more
  obtain ⟨after', read', rest⟩ := Cursor.readForm_of_rest_eq left read
  simp only [read', rest]
  rfl

/-- Where the reader of the whole text finds no token, no form is left to be read. -/
theorem readOne_position_end (inside : c.rest <:+ text.toList) (finished : c.skip.2 = false) :
    readOne text (c.position text) = .error ⟨.endOfInput, byteLength text.toList⟩ := by
  have started := Cursor.rest_advance_position inside
  have counted := Cursor.offset_advance (.ofString text) (min (c.position text) text.length)
  unfold readOne
  generalize (Cursor.ofString text).advance _ = c' at started counted
  obtain ⟨-, found⟩ := Cursor.skip_of_rest_eq started
  rw [finished] at found
  have left : c'.skip.1.rest = [] := Cursor.rest_skipFrom_of_eq_false _ _ _ found
  have all : c'.skip.1.offset = byteLength text.toList := by
    have further := Cursor.offset_skipFrom .blanks c'.offset c'.rest
    rw [show (Cursor.skipFrom .blanks c'.offset c'.rest).1.rest = [] from left, counted] at further
    exact further.trans (Nat.zero_add _)
  generalize c'.skip = skipped at found all
  obtain ⟨c', more⟩ := skipped
  obtain rfl : more = false := found
  exact congrArg (fun offset => Except.error (Error.mk .endOfInput offset)) all

/-- A form that is read ends behind the position where it starts, inside of the text. -/
theorem lt_of_readOne (read : readOne text start = .ok (form, stop)) :
    start < stop ∧ stop ≤ text.length := by
  obtain ⟨c, after, skipped, found, rfl⟩ := exists_of_readOne read
  have started := Cursor.rest_advance (.ofString text) (min start text.length)
  generalize (Cursor.ofString text).advance _ = begun at skipped started
  have left : begun.rest.length = text.length - min start text.length := by
    rw [started, List.length_drop]
    exact congrArg (· - _) String.length_toList
  have further := begun.skip_suffix.length_le
  rw [skipped] at further
  have taken := (before_of_readForm found).length_lt
  simp only at further
  omega

/-! ## All forms -/

/-- Forms are read from a position on, one after the other, each from where the one before it ended,
until no form is left.  With each form comes the position where it ended. -/
inductive OneByOne (text : String) : Nat → List (Datum × Nat) → Prop
  | finished {start : Nat} :
      readOne text start = .error ⟨.endOfInput, byteLength text.toList⟩ → OneByOne text start []
  | next {start stop : Nat} {form : Datum} {parts : List (Datum × Nat)} :
      readOne text start = .ok (form, stop) → OneByOne text stop parts →
        OneByOne text start ((form, stop) :: parts)

variable {parts : List (Datum × Nat)}

/-- The positions grow from form to form and stay inside of the text. -/
theorem OneByOne.increasing (each : OneByOne text start parts) :
    (start :: parts.map Prod.snd).Pairwise (· < ·) ∧ ∀ part ∈ parts, part.2 ≤ text.length := by
  induction each with
  | finished _ => exact ⟨List.pairwise_singleton .., nofun⟩
  | @next start stop form parts read _ ih =>
      obtain ⟨grows, inside⟩ := ih
      obtain ⟨later, within⟩ := lt_of_readOne read
      have fromStop : ∀ position ∈ stop :: parts.map Prod.snd, stop ≤ position :=
        List.forall_mem_cons.mpr ⟨Nat.le_refl stop, fun position member =>
          Nat.le_of_lt (List.rel_of_pairwise_cons grows member)⟩
      refine ⟨List.pairwise_cons.mpr ⟨fun position member => ?_, grows⟩, ?_⟩
      · exact Nat.lt_of_lt_of_le later (fromStop position member)
      · exact List.forall_mem_cons.mpr ⟨within, inside⟩

variable {forms all : List Datum}

theorem readAllFrom_next (skip : c.skip = (c', true)) (read : c'.readForm = .ok (form, after)) :
    readAllFrom (fuel + 1) c forms = readAllFrom fuel after (form :: forms) := by
  rw [readAllFrom, skip]
  simp only [read]

theorem readAllFrom_end (finished : c.skip.2 = false) :
    readAllFrom (fuel + 1) c forms = .ok forms.reverse := by
  rw [readAllFrom]
  generalize c.skip = next at finished
  obtain ⟨c', more⟩ := next
  obtain rfl : more = false := finished
  rfl

/-- What the reader of a whole text goes on to read is read one by one from the position where it
stands. -/
theorem oneByOne_of_readAllFrom (inside : c.rest <:+ text.toList)
    (enough : c.rest.length < fuel) (read : readAllFrom fuel c forms = .ok all) :
    ∃ parts, OneByOne text (c.position text) parts ∧
      all = forms.reverse ++ parts.map Prod.fst := by
  induction fuel generalizing c forms with
  | zero => exact absurd enough (Nat.not_lt_zero _)
  | succ fuel ih =>
      cases more : c.skip.2 with
      | false =>
          rw [readAllFrom_end more] at read
          cases read
          exact ⟨[], .finished (readOne_position_end inside more), (List.append_nil _).symm⟩
      | true =>
          have skip : c.skip = (c.skip.1, true) := Prod.ext rfl more
          cases first : c.skip.1.readForm with
          | error e =>
              rw [readAllFrom, skip] at read
              simp only [first] at read
              cases read
          | ok found =>
              obtain ⟨form, after⟩ := found
              rw [readAllFrom_next skip first] at read
              have taken := (before_of_readForm first).of_suffix c.skip_suffix
              have fewer : after.rest.length < fuel :=
                Nat.lt_of_lt_of_le taken.length_lt (Nat.le_of_lt_succ enough)
              obtain ⟨parts, each, rfl⟩ := ih (taken.suffix.trans inside) fewer read
              have here := readOne_position inside skip first
              exact ⟨(form, after.position text) :: parts, .next here each, by simp⟩

/-- The forms of a text that is read are read from its start one by one, each from where the one
before it ended; then it is over.  The positions where they end grow, and are inside of the text. -/
theorem oneByOne_of_readExpanded (read : readExpanded text = .ok forms) :
    ∃ parts, OneByOne text 0 parts ∧ parts.map Prod.fst = forms ∧
      (0 :: parts.map Prod.snd).Pairwise (· < ·) ∧ ∀ part ∈ parts, part.2 ≤ text.length := by
  have start : (Cursor.ofString text).position text = 0 := by
    unfold Cursor.position Cursor.ofString
    rw [String.length_toList, Nat.sub_self]
  have enough : (Cursor.ofString text).rest.length < text.length + 1 :=
    Nat.lt_succ_of_le (Nat.le_of_eq String.length_toList)
  obtain ⟨parts, each, rfl⟩ := oneByOne_of_readAllFrom List.suffix_rfl enough read
  rw [start] at each
  exact ⟨parts, each, rfl, each.increasing⟩

/-- A symbol and a list that touch a comment, with characters of several bytes in both. -/
theorem oneByOne_of_readExpanded_touching :
    let forms : List Datum := [.symbol "é", .ofList [.int 2]]
    readExpanded "é;→\n(2)" = .ok forms ∧
      ∃ parts, OneByOne "é;→\n(2)" 0 parts ∧ parts.map Prod.fst = forms := by
  intro forms
  have first : Cursor.readForm ⟨['é', ';', '→', '\n', '(', '2', ')'], 0⟩ =
      .ok (.symbol "é", ⟨[';', '→', '\n', '(', '2', ')'], 2⟩) := rfl
  have second : Cursor.readForm ⟨['(', '2', ')'], 7⟩ = .ok (.ofList [.int 2], ⟨[], 10⟩) := rfl
  have read : readExpanded "é;→\n(2)" = .ok forms :=
    calc readAllFrom 8 ⟨['é', ';', '→', '\n', '(', '2', ')'], 0⟩ []
      _ = readAllFrom 7 ⟨[';', '→', '\n', '(', '2', ')'], 2⟩ [.symbol "é"] :=
        readAllFrom_next rfl first
      _ = readAllFrom 6 ⟨[], 10⟩ [.ofList [.int 2], .symbol "é"] := readAllFrom_next rfl second
      _ = .ok forms := readAllFrom_end rfl
  obtain ⟨parts, each, all, -⟩ := oneByOne_of_readExpanded read
  exact ⟨read, parts, each, all⟩

end EditorLisp.Source
