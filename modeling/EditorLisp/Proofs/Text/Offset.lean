import EditorLisp.Text.Offset
import Mathlib.Order.Monotone.Basic

/-!
# Positions in characters and in bytes

A text is counted in characters by whoever edits it and in bytes by its encoding.  Not every number
of bytes is a position: a character takes one to four of them, and its encoding is not to be cut.
The positions are the boundaries between characters, and on these the two ways of counting are
inverse to each other.  A number of characters beyond the end stands for the end.
-/

namespace EditorLisp.Text

variable {text : String} {b : Nat}

/-- A number of bytes leads to a place between two characters of the encoded text, or to one of its
ends. -/
def IsBoundary (text : String) (b : Nat) : Prop := String.Pos.Raw.IsValid text ⟨b⟩

/-- Boundaries are where a text can be taken apart into two. -/
theorem isBoundary_iff :
    IsBoundary text b ↔ ∃ front rest, text = front ++ rest ∧ b = front.utf8ByteSize := by
  unfold IsBoundary
  rw [String.Pos.Raw.isValid_iff_exists_append]
  simp only [String.Pos.Raw.ext_iff, String.byteIdx_rawEndPos]

/-! ## From characters to bytes -/

theorem byteLength_eq (text : List Char) : byteLength text = (String.ofList text).utf8ByteSize := by
  induction text with
  | nil => rfl
  | cons c rest ih =>
      rw [String.ofList_cons, String.utf8ByteSize_append, String.utf8ByteSize_singleton, ← ih]
      rfl

/-- A text of characters that take one byte each has as many bytes as characters. -/
theorem byteLength_eq_length {text : List Char} (narrow : ∀ c ∈ text, c.utf8Size = 1) :
    byteLength text = text.length := by
  induction text with
  | nil => rfl
  | cons c rest ih =>
      obtain ⟨first, others⟩ := List.forall_mem_cons.mp narrow
      show c.utf8Size + byteLength rest = _
      rw [first, ih others, List.length_cons, Nat.add_comm]

/-- The characters of a front part take as many bytes as that part. -/
theorem byteOffset_append (front rest : String) :
    byteOffset (front ++ rest).toList front.length = front.utf8ByteSize := by
  unfold byteOffset
  rw [byteLength_eq, String.toList_append, ← String.length_toList, List.take_left,
    String.ofList_toList]

theorem isBoundary_byteOffset (text : String) (n : Nat) :
    IsBoundary text (byteOffset text.toList n) := by
  rw [isBoundary_iff]
  refine ⟨String.ofList (text.toList.take n), String.ofList (text.toList.drop n), ?_, ?_⟩
  · rw [← String.ofList_append, List.take_append_drop, String.ofList_toList]
  · exact byteLength_eq _

theorem monotone_byteOffset (text : List Char) : Monotone (byteOffset text) := fun _ _ =>
  byteOffset_le_byteOffset text

theorem byteOffset_of_length_le {n : Nat} (beyond : text.length ≤ n) :
    byteOffset text.toList n = text.utf8ByteSize := by
  unfold byteOffset
  rw [List.take_of_length_le (String.length_toList.trans_le beyond), byteLength_eq,
    String.ofList_toList]

/-! ## From bytes to characters -/

theorem charOffset_le_length (text : List Char) (b : Nat) : charOffset text b ≤ text.length := by
  induction text generalizing b with
  | nil => exact Nat.le_refl 0
  | cons c rest ih =>
      unfold charOffset
      split
      · exact Nat.succ_le_succ (ih _)
      · exact Nat.zero_le _

theorem monotone_charOffset (text : List Char) : Monotone (charOffset text) := by
  induction text with
  | nil => exact fun _ _ _ => Nat.le_refl 0
  | cons c rest ih =>
      intro b b' le
      unfold charOffset
      split
      next inside =>
          rw [if_pos (Nat.le_trans inside le)]
          exact Nat.succ_le_succ (ih (Nat.sub_le_sub_right le _))
      next => exact Nat.zero_le _

/-! ## There and back -/

/-- A number of characters beyond the end comes back as the length. -/
theorem charOffset_byteOffset_min (text : List Char) (n : Nat) :
    charOffset text (byteOffset text n) = min n text.length := by
  obtain inside | beyond := Nat.le_total n text.length
  · rw [charOffset_byteOffset text n inside, Nat.min_eq_left inside]
  · have whole : byteOffset text n = byteOffset text text.length := by
      unfold byteOffset
      rw [List.take_of_length_le beyond, List.take_length]
    rw [whole, charOffset_byteOffset text _ le_rfl, Nat.min_eq_right beyond]

/-- Before a boundary there are the characters of the front part that ends there. -/
theorem charOffset_append (front rest : String) :
    charOffset (front ++ rest).toList front.utf8ByteSize = front.length := by
  rw [← byteOffset_append front rest, charOffset_byteOffset_min, String.length_toList,
    String.length_append, Nat.min_eq_left (Nat.le_add_right _ _)]

theorem byteOffset_charOffset (boundary : IsBoundary text b) :
    byteOffset text.toList (charOffset text.toList b) = b := by
  obtain ⟨front, rest, rfl, rfl⟩ := isBoundary_iff.mp boundary
  rw [charOffset_append, byteOffset_append]

/-- The boundaries are the places that numbers of characters lead to. -/
theorem isBoundary_iff_isCharBoundary : IsBoundary text b ↔ IsCharBoundary text.toList b := by
  constructor
  · exact fun boundary => ⟨_, byteOffset_charOffset boundary⟩
  · rintro ⟨n, rfl⟩
    exact isBoundary_byteOffset text n

theorem IsCharBoundary.byteOffset_charOffset {chars : List Char}
    (boundary : IsCharBoundary chars b) : byteOffset chars (charOffset chars b) = b := by
  rw [← String.toList_ofList (l := chars)] at boundary ⊢
  exact Text.byteOffset_charOffset (isBoundary_iff_isCharBoundary.mpr boundary)

/-! ## Between two offsets -/

section Between

variable {chars : List Char} {start stop : Nat}

theorem byteOffset_length (chars : List Char) :
    byteOffset chars chars.length = byteLength chars := by
  rw [byteOffset, List.take_length]

theorem charOffset_byteLength (chars : List Char) :
    charOffset chars (byteLength chars) = chars.length := by
  rw [← byteOffset_length, charOffset_byteOffset chars _ (Nat.le_refl _)]

theorem IsCharBoundary.le_byteLength (boundary : IsCharBoundary chars stop) :
    stop ≤ byteLength chars := by
  have within := monotone_byteOffset chars (charOffset_le_length chars stop)
  rwa [boundary.byteOffset_charOffset, byteOffset_length] at within

/-- What is between two offsets follows the text up to the first one. -/
theorem take_append_slice? (chars : List Char) (ordered : start ≤ stop) :
    ∃ part, slice? chars start stop = some part ∧
      chars.take (charOffset chars start) ++ part = chars.take (charOffset chars stop) := by
  refine ⟨_, if_pos ordered, ?_⟩
  rw [← List.take_add, Nat.add_sub_cancel' (monotone_charOffset chars ordered)]

end Between

/-! ## Both together -/

/-- Numbers of characters lead to boundaries in their order, those beyond the end to the end, and
come back as they were.  Boundaries come back from numbers of characters as they were, too. -/
theorem offsets_correspond (text : String) :
    (∀ n, IsBoundary text (byteOffset text.toList n)) ∧
      Monotone (byteOffset text.toList) ∧
      (∀ n, text.length ≤ n → byteOffset text.toList n = text.utf8ByteSize) ∧
      (∀ n, charOffset text.toList (byteOffset text.toList n) = min n text.length) ∧
      ∀ b, IsBoundary text b → byteOffset text.toList (charOffset text.toList b) = b := by
  refine ⟨isBoundary_byteOffset text, monotone_byteOffset _, fun n => byteOffset_of_length_le,
    fun n => ?_, fun b => byteOffset_charOffset⟩
  rw [charOffset_byteOffset_min, String.length_toList]

/-- Four characters of one, two, three and four bytes.  There is a boundary after the third. -/
theorem offsets_correspond_mixed :
    let text := "aé€😀"
    text.length ≤ 7 ∧ IsBoundary text 6 ∧ charOffset text.toList 6 = 3 ∧
      byteOffset text.toList 7 = 10 ∧ byteOffset text.toList 2 ≤ byteOffset text.toList 3 ∧
      charOffset text.toList (byteOffset text.toList 7) = 4 ∧
      byteOffset text.toList (charOffset text.toList 6) = 6 := by
  intro text
  have inside : text.length ≤ 7 := by decide
  have boundary : IsBoundary text 6 := isBoundary_iff.mpr ⟨"aé€", "😀", by decide, by decide⟩
  obtain ⟨-, ordered, atEnd, back, there⟩ := offsets_correspond text
  exact ⟨inside, boundary, by decide, atEnd 7 inside, ordered (by decide),
    (back 7).trans (by decide), there 6 boundary⟩

end EditorLisp.Text
