import EditorLisp.Proofs.Document.Buffer

/-!
# Edits of a list of characters

A buffer is a list of characters with a point in it, and each edit is what one would write down
for such a list: characters are taken out between two positions, or put in at one.  The positions
are given in either order and may lie beyond the end of the text, which stands for them then.  The
point stays with the character after it, unless that character is taken out; then it goes to where
the text closes.
-/

namespace EditorLisp.Buffer

section

variable (b : Buffer) (x y pos : Nat) (s : String)

/-! ## Positions in order -/

theorem ordered_bounds : (b.ordered x y).1 ≤ (b.ordered x y).2 ∧ (b.ordered x y).2 ≤ b.size := by
  rw [ordered_fst, ordered_snd]
  omega

/-- Two positions of the text that are in order already. -/
theorem ordered_of_le {b : Buffer} {start stop : Nat} (le : start ≤ stop) (inside : stop ≤ b.size) :
    b.ordered start stop = (start, stop) := by
  apply Prod.ext
  · rw [ordered_fst, Nat.min_eq_left le, Nat.min_eq_left (Nat.le_trans le inside)]
  · rw [ordered_snd, Nat.max_eq_right le, Nat.min_eq_left inside]

/-! ## The characters -/

theorem toList_substring :
    (b.substring x y).toList =
      (b.text.toList.drop (b.ordered x y).1).take ((b.ordered x y).2 - (b.ordered x y).1) := by
  obtain ⟨le, inside⟩ := ordered_bounds b x y
  exact String.toList_ofList.trans (b.text.range_eq _ _ le inside)

theorem toList_deleteRegion :
    (b.deleteRegion x y).text.toList =
      b.text.toList.take (b.ordered x y).1 ++ b.text.toList.drop (b.ordered x y).2 := by
  obtain ⟨le, inside⟩ := ordered_bounds b x y
  exact b.text.toList_delete _ _ le inside

/-- There is nothing to take and nothing to drop beyond the end of a text, so the position need
not be brought back to it. -/
theorem toList_insertAt :
    (b.insertAt pos s).text.toList =
      b.text.toList.take pos ++ s.toList ++ b.text.toList.drop pos := by
  have inserted : (b.insertAt pos s).text.toList =
      b.text.toList.take (b.clamp pos) ++ s.toList ++ b.text.toList.drop (b.clamp pos) :=
    b.text.toList_insert _ s.toList (clamp_le b pos)
  rw [inserted, clamp, size, ← GapText.length_toList, ← List.take_eq_take_min,
    ← List.drop_eq_drop_min]

theorem toList_insert (inside : b.point ≤ b.size) :
    (b.insert s).text.toList =
      b.text.toList.take b.point ++ s.toList ++ b.text.toList.drop b.point :=
  b.text.toList_insert b.point s.toList inside

/-- What is replaced is deleted first. -/
theorem replaceRegion_eq :
    b.replaceRegion x y s =
      (b.deleteRegion (b.ordered x y).1 (b.ordered x y).2).insertAt (b.ordered x y).1 s :=
  rfl

theorem toList_replaceRegion :
    (b.replaceRegion x y s).text.toList =
      b.text.toList.take (b.ordered x y).1 ++ s.toList ++ b.text.toList.drop (b.ordered x y).2 := by
  obtain ⟨le, inside⟩ := ordered_bounds b x y
  have front := b.text.length_take_toList (Nat.le_trans le inside)
  rw [replaceRegion_eq, toList_insertAt, toList_deleteRegion, ordered_of_le le inside,
    List.take_left' front, List.drop_left' front]

/-! ## The point -/

theorem point_deleteRegion :
    (b.deleteRegion x y).point =
      if b.point ≤ (b.ordered x y).1 then b.point
      else if b.point < (b.ordered x y).2 then (b.ordered x y).1
      else b.point - ((b.ordered x y).2 - (b.ordered x y).1) := by
  obtain ⟨le, -⟩ := ordered_bounds b x y
  simp only [deleteRegion]
  split_ifs <;> omega

theorem point_insertAt (inside : b.point ≤ b.size) :
    (b.insertAt pos s).point = if pos < b.point then b.point + s.length else b.point := by
  have before : b.clamp pos < b.point ↔ pos < b.point := by
    rw [clamp]
    omega
  exact if_congr before rfl rfl

/-- A point at the end of what is replaced goes to its start, since nothing that is put in there
comes before the point. -/
theorem point_replaceRegion (inside : b.point ≤ b.size) :
    (b.replaceRegion x y s).point =
      if b.point ≤ (b.ordered x y).1 then b.point
      else if b.point ≤ (b.ordered x y).2 then (b.ordered x y).1
      else b.point + s.length - ((b.ordered x y).2 - (b.ordered x y).1) := by
  obtain ⟨le, stopLe⟩ := ordered_bounds b x y
  rw [replaceRegion_eq, point_insertAt _ _ _ ((edited_deleteRegion b _ _).point_le inside),
    point_deleteRegion, ordered_of_le le stopLe]
  dsimp only
  split_ifs <;> omega

/-! ## Taking an insertion back -/

/-- What was just inserted at the point is deleted again. -/
theorem deleteRegion_insert (inside : b.point ≤ b.size) :
    let back := (b.insert s).deleteRegion b.point (b.point + s.length)
    back.text.toList = b.text.toList ∧ back.point = b.point := by
  intro back
  have front := b.text.length_take_toList inside
  have added : (b.text.toList.take b.point ++ s.toList).length = b.point + s.length := by
    rw [List.length_append, front, String.length_toList]
  have stopLe : b.point + s.length ≤ (b.insert s).size := by
    rw [size_insert b s inside]
    exact Nat.add_le_add_right inside _
  have region := ordered_of_le (Nat.le_add_right b.point s.length) stopLe
  constructor
  · rw [toList_deleteRegion, region, toList_insert b s inside, List.drop_left' added,
      List.append_assoc, List.take_left' front, List.take_append_drop]
  · have after : (b.insert s).point = b.point + s.length := rfl
    rw [point_deleteRegion, region, after]
    split_ifs <;> omega

end

/-- Each edit of a buffer is the edit of the list of its characters, wherever the gap is and
whether or not it has room.  Two positions stand for the part of the text between them, in either
order, and a position beyond the text for its end.  What is deleted is the answer.  The point stays
before the same character where that character stays, goes to the start of what is deleted or
replaced around it, and does not move when something is put in right there. -/
theorem edits_eq_lists (b : Buffer) (inside : b.point ≤ b.size) :
    let text := b.text.toList
    (∀ x y,
      let start := min (min x y) text.length
      let stop := min (max x y) text.length
      (b.cutRegion x y).2.toList = (text.drop start).take (stop - start) ∧
        (b.cutRegion x y).1.text.toList = text.take start ++ text.drop stop ∧
        (b.cutRegion x y).1.point =
          if b.point ≤ start then b.point
          else if b.point < stop then start
          else b.point - (stop - start)) ∧
    (∀ pos s,
      (b.insertAt pos s).text.toList = text.take pos ++ s.toList ++ text.drop pos ∧
        (b.insertAt pos s).point = if pos < b.point then b.point + s.length else b.point) ∧
    (∀ x y s,
      let start := min (min x y) text.length
      let stop := min (max x y) text.length
      (b.replaceRegion x y s).text.toList = text.take start ++ s.toList ++ text.drop stop ∧
        (b.replaceRegion x y s).point =
          if b.point ≤ start then b.point
          else if b.point ≤ stop then start
          else b.point + s.length - (stop - start)) ∧
    ∀ s,
      let back := (b.insert s).deleteRegion b.point (b.point + s.length)
      back.text.toList = text ∧ back.point = b.point := by
  intro text
  have size : text.length = b.size := b.text.length_toList
  refine ⟨fun x y => ?_, fun pos s => ?_, fun x y s => ?_, fun s => ?_⟩
  · rw [size, ← ordered_fst, ← ordered_snd]
    exact ⟨toList_substring b x y, toList_deleteRegion b x y, point_deleteRegion b x y⟩
  · exact ⟨toList_insertAt b pos s, point_insertAt b pos s inside⟩
  · rw [size, ← ordered_fst, ← ordered_snd]
    exact ⟨toList_replaceRegion b x y s, point_replaceRegion b x y s inside⟩
  · exact deleteRegion_insert b s inside

/-- Three characters before the point are replaced by one. -/
theorem edits_eq_lists_hello :
    let b := Buffer.insert { id := 1, name := "notes" } "hello"
    b.point ≤ b.size ∧ (b.replaceRegion 4 1 "i").text.toList = ['h', 'i', 'o'] ∧
      (b.replaceRegion 4 1 "i").point = 3 := by
  intro b
  have inside : b.point ≤ b.size := by decide
  obtain ⟨chars, point⟩ := (edits_eq_lists b inside).2.2.1 4 1 "i"
  exact ⟨inside, chars.trans (by decide), point.trans (by decide)⟩

end EditorLisp.Buffer
