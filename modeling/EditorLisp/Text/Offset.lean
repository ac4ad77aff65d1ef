/-!
# Offsets in characters and in bytes

Positions in this library count characters.  `charAt?` looks a character up by its
position; `byteOffset` and `charOffset` relate positions to those in the UTF-8 encoding, where
not every offset lies between two characters.
-/

namespace EditorLisp.Text

def charAt? (s : String) (pos : Nat) : Option Char := (s.drop pos).front?

def byteLength (text : List Char) : Nat := text.foldr (fun c n => c.utf8Size + n) 0

/-- The byte offset of a character offset; one past the end is brought back to it. -/
def byteOffset (text : List Char) (pos : Nat) : Nat := byteLength (text.take pos)

/-- The number of characters that end at or before a byte offset. -/
def charOffset : List Char → Nat → Nat
  | [], _ => 0
  | c :: rest, bytes => if c.utf8Size ≤ bytes then charOffset rest (bytes - c.utf8Size) + 1 else 0

/-- Going to bytes and back changes no offset inside the text. -/
theorem charOffset_byteOffset (text : List Char) (pos : Nat) (h : pos ≤ text.length) :
    charOffset text (byteOffset text pos) = pos := by
  induction text generalizing pos with
  | nil =>
    have : pos = 0 := by simpa using h
    subst this
    rfl
  | cons c rest ih =>
    cases pos with
    | zero =>
      have : ¬ c.utf8Size = 0 := Nat.ne_of_gt c.utf8Size_pos
      simp [byteOffset, byteLength, charOffset, this]
    | succ n =>
      have hn : n ≤ rest.length := by simpa using h
      simpa [byteOffset, byteLength, charOffset] using ih n hn

theorem byteOffset_le_byteOffset (text : List Char) {pos pos' : Nat} (h : pos ≤ pos') :
    byteOffset text pos ≤ byteOffset text pos' := by
  induction text generalizing pos pos' with
  | nil => simp [byteOffset]
  | cons c rest ih =>
    cases pos with
    | zero => simp [byteOffset, byteLength]
    | succ n =>
      obtain ⟨m, rfl⟩ : ∃ m, pos' = m + 1 := ⟨pos' - 1, by omega⟩
      exact Nat.add_le_add_left (ih (Nat.le_of_succ_le_succ h)) c.utf8Size

/-- A byte offset at which a character starts or the text ends. -/
def IsCharBoundary (text : List Char) (byte : Nat) : Prop := ∃ pos, byteOffset text pos = byte

/-- The characters between two boundaries, if they are in order. -/
def slice? (text : List Char) (start stop : Nat) : Option (List Char) :=
  if start ≤ stop then
    let first := charOffset text start
    some ((text.drop first).take (charOffset text stop - first))
  else none

end EditorLisp.Text
