import EditorLisp.Document.GapText
import Mathlib.Tactic.Common

/-!
# The list that a gap text stands for

Every operation on a text with a gap is an operation on the list of its characters.  The
block copies come first: a copy within an array reads the array as it was before, whatever
the overlap of the two blocks.  Moving the gap and widening it then leave the list alone,
and only the operations named after edits change it.
-/

namespace EditorLisp.GapText

/-! ## Block copies -/

/-- Copying from the low end reads characters not yet overwritten when the block moves
down. -/
theorem getElem?_copyUp (chars : Array Char) (source target count i : Nat)
    (down : target ≤ source) (inside : source + count ≤ chars.size) :
    (copyUp chars source target count)[i]? =
      if target ≤ i ∧ i < target + count then chars[source + (i - target)]? else chars[i]? := by
  induction count generalizing chars source target with
  | zero =>
      rw [copyUp, if_neg (by omega)]
  | succ count ih =>
      have sourceLt : source < chars.size := by omega
      rw [copyUp, ih _ _ _ (by omega) (by simpa using by omega)]
      rw [Array.getElem?_setIfInBounds, Array.getElem?_setIfInBounds]
      by_cases first : i = target
      · subst first
        rw [if_neg (by omega), if_pos rfl, if_pos (by omega), if_pos (by omega), Nat.sub_self,
          Nat.add_zero, Array.getD_eq_getD_getElem?, Array.getElem?_eq_getElem sourceLt]
        rfl
      · by_cases block : target ≤ i ∧ i < target + (count + 1)
        · have shift : source + 1 + (i - (target + 1)) = source + (i - target) := by omega
          rw [if_pos (by omega), if_pos block, if_neg (by omega), shift]
        · rw [if_neg (by omega), if_neg block, if_neg (by omega)]

/-- Copying from the high end reads characters not yet overwritten when the block moves
up. -/
theorem getElem?_copyDown (chars : Array Char) (source target count i : Nat)
    (up : source ≤ target) (inside : target + count ≤ chars.size) :
    (copyDown chars source target count)[i]? =
      if target ≤ i ∧ i < target + count then chars[source + (i - target)]? else chars[i]? := by
  induction count generalizing chars with
  | zero =>
      rw [copyDown, if_neg (by omega)]
  | succ count ih =>
      have sourceLt : source + count < chars.size := by omega
      rw [copyDown, ih _ (by simpa using by omega)]
      rw [Array.getElem?_setIfInBounds, Array.getElem?_setIfInBounds]
      by_cases last : i = target + count
      · subst last
        have shift : source + (target + count - target) = source + count := by omega
        rw [if_neg (by omega), if_pos rfl, if_pos (by omega), if_pos (by omega), shift,
          Array.getD_eq_getD_getElem?, Array.getElem?_eq_getElem sourceLt]
        rfl
      · by_cases block : target ≤ i ∧ i < target + (count + 1)
        · rw [if_pos (by omega), if_pos block, if_neg (by omega)]
        · rw [if_neg (by omega), if_neg block, if_neg (by omega)]

/-- A block copy has the effect of reading the whole block first. -/
theorem getElem?_copyWithin (chars : Array Char) (source count target i : Nat)
    (sourceInside : source + count ≤ chars.size) (targetInside : target + count ≤ chars.size) :
    (copyWithin chars source count target)[i]? =
      if target ≤ i ∧ i < target + count then chars[source + (i - target)]? else chars[i]? := by
  unfold copyWithin
  split
  next down => exact getElem?_copyUp chars source target count i down sourceInside
  next up => exact getElem?_copyDown chars source target count i (by omega) targetInside

theorem getElem?_overwrite (chars : Array Char) (place i : Nat) (text : List Char)
    (inside : place + text.length ≤ chars.size) :
    (overwrite chars place text)[i]? =
      if place ≤ i ∧ i < place + text.length then text[i - place]? else chars[i]? := by
  induction text generalizing chars place with
  | nil =>
      rw [overwrite, if_neg (by simp)]
  | cons c rest ih =>
      rw [List.length_cons] at inside
      rw [overwrite, ih _ _ (by simpa using by omega), Array.getElem?_setIfInBounds]
      by_cases first : i = place
      · subst first
        rw [if_neg (by omega), if_pos rfl, if_pos (by omega), List.length_cons,
          if_pos (by omega), Nat.sub_self, List.getElem?_cons_zero]
      · by_cases block : place ≤ i ∧ i < place + (rest.length + 1)
        · have shift : i - place = (i - (place + 1)) + 1 := by omega
          rw [if_pos (by omega), List.length_cons, if_pos block, shift, List.getElem?_cons_succ]
        · rw [if_neg (by omega), List.length_cons, if_neg block, if_neg (by omega)]

/-! ## Observing -/

theorem gapStart_add_gapSize (g : GapText) : g.gapStart + g.gapSize = g.gapEnd := by
  have := g.start_le_end
  simp only [gapSize]
  omega

theorem gapStart_le_size (g : GapText) : g.gapStart ≤ g.size := by
  have := g.start_le_end
  have := g.end_le_size
  simp only [size, gapSize]
  omega

/-- The places are those of the text and those of the gap. -/
theorem size_add_gapSize (g : GapText) : g.size + g.gapSize = g.chars.size := by
  have := g.start_le_end
  have := g.end_le_size
  simp only [size, gapSize]
  omega

@[simp]
theorem length_toList (g : GapText) : g.toList.length = g.size := by
  have := g.start_le_end
  have := g.end_le_size
  simp only [toList, List.length_append, List.length_take, List.length_drop, Array.length_toList,
    size, gapSize]
  omega

theorem length_take_toList (g : GapText) {pos : Nat} (inside : pos ≤ g.size) :
    (g.toList.take pos).length = pos :=
  List.length_take_of_le (g.length_toList.symm ▸ inside)

theorem get?_of_lt {g : GapText} {pos : Nat} (before : pos < g.gapStart) :
    g.get? pos = g.chars[pos]? := by
  rw [get?, place, if_pos before]

theorem get?_of_le {g : GapText} {pos : Nat} (after : g.gapStart ≤ pos) :
    g.get? pos = g.chars[pos + g.gapSize]? := by
  rw [get?, place, if_neg (Nat.not_lt.mpr after)]

/-- The list of a text is what can be read off it, position by position. -/
theorem getElem?_toList (g : GapText) (pos : Nat) : g.toList[pos]? = g.get? pos := by
  have inside := g.end_le_size
  have gapEnds := gapStart_add_gapSize g
  have lengthBefore : (g.chars.toList.take g.gapStart).length = g.gapStart := by
    rw [List.length_take, Array.length_toList]
    omega
  unfold toList
  by_cases before : pos < g.gapStart
  · rw [List.getElem?_append_left (by omega), List.getElem?_take_of_lt before,
      Array.getElem?_toList, get?_of_lt before]
  · rw [List.getElem?_append_right (by omega), lengthBefore, List.getElem?_drop,
      Array.getElem?_toList, get?_of_le (by omega)]
    congr 1
    omega

theorem toList_eq_of_get? {g : GapText} {chars : List Char}
    (same : ∀ pos, g.get? pos = chars[pos]?) : g.toList = chars :=
  List.ext_getElem? fun pos => (getElem?_toList g pos).trans (same pos)

theorem get?_eq_none (g : GapText) (pos : Nat) (past : g.size ≤ pos) : g.get? pos = none := by
  rw [← getElem?_toList, List.getElem?_eq_none_iff, length_toList]
  exact past

@[simp]
theorem toList_ofArray (chars : Array Char) : (ofArray chars).toList = chars.toList := by
  simp [toList, ofArray]

@[simp]
theorem toList_ofString (s : String) : (ofString s).toList = s.toList := by
  simp [ofString]

/-- The characters between two positions are those of the list. -/
theorem range_eq (g : GapText) (start stop : Nat) (ordered : start ≤ stop)
    (inside : stop ≤ g.size) :
    g.range start stop = (g.toList.drop start).take (stop - start) := by
  have gapOrdered := g.start_le_end
  have gapInside := g.end_le_size
  have total := size_add_gapSize g
  have gapEnds := gapStart_add_gapSize g
  apply List.ext_getElem?
  intro i
  rw [List.getElem?_take, List.getElem?_drop, getElem?_toList]
  simp only [range, get?, place]
  rw [List.getElem?_append]
  simp only [Array.length_toList, Array.size_extract, Array.getElem?_toList,
    Array.getElem?_extract]
  by_cases before : start + i < g.gapStart
  · by_cases wanted : i < stop - start
    · rw [if_pos (by omega), if_pos (by omega), if_pos wanted, if_pos before]
    · rw [if_neg (by omega), if_neg (by omega), if_neg wanted]
  · by_cases wanted : i < stop - start
    · rw [if_neg (by omega), if_pos (by omega), if_pos wanted, if_neg before]
      congr 1
      omega
    · rw [if_neg (by omega), if_neg (by omega), if_neg wanted]

/-! ## Moving and widening the gap -/

@[simp]
theorem gapSize_moveBack (g : GapText) (pos : Nat) (h : pos ≤ g.gapStart) :
    (g.moveBack pos h).gapSize = g.gapSize :=
  Nat.add_sub_cancel_left ..

@[simp]
theorem gapSize_moveAhead (g : GapText) (pos : Nat) (h : pos ≤ g.size) :
    (g.moveAhead pos h).gapSize = g.gapSize :=
  Nat.add_sub_cancel_left ..

theorem getElem?_chars_moveBack (g : GapText) (pos i : Nat) (h : pos ≤ g.gapStart) :
    (g.moveBack pos h).chars[i]? =
      if pos + g.gapSize ≤ i ∧ i < g.gapEnd then g.chars[i - g.gapSize]? else g.chars[i]? := by
  have inside := g.end_le_size
  have gapEnds := gapStart_add_gapSize g
  have blockEnd : pos + g.gapSize + (g.gapStart - pos) = g.gapEnd := by omega
  refine (getElem?_copyWithin _ _ _ _ _ (by omega) (by omega)).trans ?_
  rw [blockEnd]
  split
  · congr 1
    omega
  · rfl

theorem getElem?_chars_moveAhead (g : GapText) (pos i : Nat) (h : pos ≤ g.size)
    (ahead : g.gapStart ≤ pos) :
    (g.moveAhead pos h).chars[i]? =
      if g.gapStart ≤ i ∧ i < pos then g.chars[i + g.gapSize]? else g.chars[i]? := by
  have total := size_add_gapSize g
  have gapEnds := gapStart_add_gapSize g
  have blockEnd : g.gapStart + (pos - g.gapStart) = pos := by omega
  refine (getElem?_copyWithin _ _ _ _ _ (by omega) (by omega)).trans ?_
  rw [blockEnd]
  split
  · congr 1
    omega
  · rfl

theorem get?_moveBack (g : GapText) (pos i : Nat) (h : pos ≤ g.gapStart) :
    (g.moveBack pos h).get? i = g.get? i := by
  have gapEnds := gapStart_add_gapSize g
  by_cases kept : i < pos
  · rw [get?_of_lt kept, getElem?_chars_moveBack, if_neg (by omega), get?_of_lt (by omega)]
  · rw [get?_of_le (Nat.not_lt.mp kept), gapSize_moveBack, getElem?_chars_moveBack]
    by_cases moved : i < g.gapStart
    · rw [if_pos (by omega), Nat.add_sub_cancel, get?_of_lt moved]
    · rw [if_neg (by omega), get?_of_le (by omega)]

theorem get?_moveAhead (g : GapText) (pos i : Nat) (h : pos ≤ g.size)
    (ahead : g.gapStart ≤ pos) : (g.moveAhead pos h).get? i = g.get? i := by
  by_cases before : i < pos
  · rw [get?_of_lt before, getElem?_chars_moveAhead _ _ _ h ahead]
    by_cases kept : i < g.gapStart
    · rw [if_neg (by omega), get?_of_lt kept]
    · rw [if_pos (by omega), get?_of_le (by omega)]
  · rw [get?_of_le (Nat.not_lt.mp before), gapSize_moveAhead,
      getElem?_chars_moveAhead _ _ _ h ahead, if_neg (by omega), get?_of_le (by omega)]

/-- Where the gap is makes no difference to the text. -/
@[simp]
theorem toList_moveGap (g : GapText) (pos : Nat) : (g.moveGap pos).toList = g.toList := by
  apply toList_eq_of_get?
  intro i
  rw [getElem?_toList]
  unfold moveGap
  split
  · rfl
  · split
    · exact get?_moveBack g pos i _
    · split
      · exact get?_moveAhead g pos i _ (by omega)
      · rfl

theorem gapStart_moveGap (g : GapText) (pos : Nat) (h : pos ≤ g.size) :
    (g.moveGap pos).gapStart = pos := by
  unfold moveGap
  split
  next same => exact same.symm
  next =>
      split
      · rfl
      · rfl

@[simp]
theorem size_moveGap (g : GapText) (pos : Nat) : (g.moveGap pos).size = g.size := by
  rw [← length_toList, toList_moveGap, length_toList]

theorem le_growth (g : GapText) (room : Nat) : room ≤ g.gapSize + g.growth room := by
  simp only [growth]
  omega

@[simp]
theorem gapStart_reserve (g : GapText) (room : Nat) : (g.reserve room).gapStart = g.gapStart := by
  unfold reserve
  split <;> rfl

theorem gapSize_reserve (g : GapText) (room : Nat) (small : ¬ room ≤ g.gapSize) :
    (g.reserve room).gapSize = g.gapSize + g.growth room := by
  have ordered := g.start_le_end
  rw [reserve, if_neg small]
  simp only [gapSize]
  omega

theorem le_gapSize_reserve (g : GapText) (room : Nat) : room ≤ (g.reserve room).gapSize := by
  by_cases small : room ≤ g.gapSize
  · rwa [reserve, if_pos small]
  · rw [gapSize_reserve g room small]
    exact le_growth g room

theorem getElem?_chars_reserve (g : GapText) (room i : Nat) (small : ¬ room ≤ g.gapSize) :
    (g.reserve room).chars[i]? =
      if g.gapEnd + g.growth room ≤ i then g.chars[i - g.growth room]?
      else (g.chars ++ Array.replicate (g.growth room) filler)[i]? := by
  have inside := g.end_le_size
  rw [reserve, if_neg small]
  refine (getElem?_copyWithin _ _ _ _ _ (by rw [Array.size_append]; omega)
    (by rw [Array.size_append, Array.size_replicate]; omega)).trans ?_
  by_cases moved : g.gapEnd + g.growth room ≤ i
  · rw [if_pos moved]
    by_cases there : i - g.growth room < g.chars.size
    · rw [if_pos (by omega), Array.getElem?_append_left (by omega)]
      congr 1
      omega
    · have past : (g.chars ++ Array.replicate (g.growth room) filler).size ≤ i := by
        rw [Array.size_append, Array.size_replicate]
        omega
      rw [if_neg (by omega), Array.getElem?_eq_none past, Array.getElem?_eq_none (by omega)]
  · rw [if_neg (by omega), if_neg moved]

/-- How large the gap is makes no difference to the text. -/
@[simp]
theorem toList_reserve (g : GapText) (room : Nat) : (g.reserve room).toList = g.toList := by
  by_cases small : room ≤ g.gapSize
  · rw [reserve, if_pos small]
  · have gapEnds := gapStart_add_gapSize g
    have inside := g.end_le_size
    apply toList_eq_of_get?
    intro i
    rw [getElem?_toList]
    by_cases before : i < g.gapStart
    · rw [get?_of_lt (by rwa [gapStart_reserve]), getElem?_chars_reserve g room i small,
        if_neg (by omega), Array.getElem?_append_left (by omega), get?_of_lt before]
    · rw [get?_of_le (by rw [gapStart_reserve]; omega), gapSize_reserve g room small,
        getElem?_chars_reserve g room _ small, if_pos (by omega), get?_of_le (by omega)]
      congr 1
      omega

/-! ## Editing -/

theorem getElem?_chars_fill (g : GapText) (text : List Char) (i : Nat)
    (room : text.length ≤ g.gapSize) :
    (g.fill text).chars[i]? =
      if g.gapStart ≤ i ∧ i < g.gapStart + text.length then text[i - g.gapStart]?
      else g.chars[i]? := by
  have gapEnds := gapStart_add_gapSize g
  have inside := g.end_le_size
  rw [fill, dif_pos (by omega)]
  exact getElem?_overwrite _ _ _ _ (by omega)

theorem gapStart_fill (g : GapText) (text : List Char) (room : text.length ≤ g.gapSize) :
    (g.fill text).gapStart = g.gapStart + text.length := by
  have gapEnds := gapStart_add_gapSize g
  rw [fill, dif_pos (by omega)]

theorem gapSize_fill (g : GapText) (text : List Char) (room : text.length ≤ g.gapSize) :
    (g.fill text).gapSize = g.gapSize - text.length := by
  have gapEnds := gapStart_add_gapSize g
  rw [fill, dif_pos (by omega)]
  exact Nat.sub_add_eq ..

theorem toList_fill (g : GapText) (text : List Char) (room : text.length ≤ g.gapSize) :
    (g.fill text).toList = g.toList.take g.gapStart ++ text ++ g.toList.drop g.gapStart := by
  have startLe := gapStart_le_size g
  have lengthBefore := g.length_take_toList startLe
  apply toList_eq_of_get?
  intro i
  rw [List.append_assoc]
  by_cases before : i < g.gapStart
  · rw [get?_of_lt (by rw [gapStart_fill g text room]; omega), getElem?_chars_fill g text i room,
      if_neg (by omega), List.getElem?_append_left (by omega), List.getElem?_take_of_lt before,
      getElem?_toList, get?_of_lt before]
  · rw [List.getElem?_append_right (by omega), lengthBefore]
    by_cases new : i < g.gapStart + text.length
    · rw [get?_of_lt (by rwa [gapStart_fill g text room]), getElem?_chars_fill g text i room,
        if_pos (by omega), List.getElem?_append_left (by omega)]
    · rw [get?_of_le (by rw [gapStart_fill g text room]; omega), gapSize_fill g text room,
        getElem?_chars_fill g text _ room, if_neg (by omega),
        List.getElem?_append_right (by omega), List.getElem?_drop, getElem?_toList,
        get?_of_le (by omega)]
      congr 1
      omega

/-- Inserting puts the new characters between those before and those after the position. -/
theorem toList_insert (g : GapText) (pos : Nat) (text : List Char) (h : pos ≤ g.size) :
    (g.insert pos text).toList = g.toList.take pos ++ text ++ g.toList.drop pos := by
  unfold insert
  split
  next nothing =>
      rw [List.isEmpty_iff.mp nothing, List.append_nil, List.take_append_drop]
  next =>
      rw [toList_fill _ _ (le_gapSize_reserve _ _), toList_reserve, toList_moveGap,
        gapStart_reserve, gapStart_moveGap g pos h]

theorem toList_swallow (g : GapText) (count : Nat) (h : g.gapStart + count ≤ g.size) :
    (g.swallow count).toList = g.toList.take g.gapStart ++ g.toList.drop (g.gapStart + count) := by
  have total := size_add_gapSize g
  have gapEnds := gapStart_add_gapSize g
  have startLe := gapStart_le_size g
  have lengthBefore := g.length_take_toList startLe
  have wider : (g.swallow count).gapSize = g.gapSize + count := by
    rw [swallow, dif_pos (by omega)]
    exact Nat.sub_add_comm g.start_le_end
  have gapStays : (g.swallow count).gapStart = g.gapStart := by
    rw [swallow, dif_pos (by omega)]
  have charsStay : (g.swallow count).chars = g.chars := by
    rw [swallow, dif_pos (by omega)]
  apply toList_eq_of_get?
  intro i
  by_cases before : i < g.gapStart
  · rw [get?_of_lt (by omega), charsStay, List.getElem?_append_left (by omega),
      List.getElem?_take_of_lt before, getElem?_toList, get?_of_lt before]
  · rw [get?_of_le (by omega), charsStay, wider, List.getElem?_append_right (by omega),
      lengthBefore, List.getElem?_drop, getElem?_toList, get?_of_le (by omega)]
    congr 1
    omega

/-- Deleting leaves what is before the first position and what is after the second. -/
theorem toList_delete (g : GapText) (start stop : Nat) (ordered : start ≤ stop)
    (inside : stop ≤ g.size) :
    (g.delete start stop).toList = g.toList.take start ++ g.toList.drop stop := by
  unfold delete
  split
  next same =>
      rw [same, List.take_append_drop]
  next =>
      have moved := gapStart_moveGap g start (by omega)
      have target : start + (stop - start) = stop := by omega
      rw [toList_swallow _ _ (by rw [moved, size_moveGap]; omega), toList_moveGap, moved, target]

theorem place_lt_size (g : GapText) (pos : Nat) : g.place pos < g.chars.size ↔ pos < g.size := by
  have total := size_add_gapSize g
  have startLe := gapStart_le_size g
  unfold place
  split <;> omega

/-- Two positions of the text have different places. -/
theorem place_injective (g : GapText) : Function.Injective g.place := by
  intro first second same
  unfold place at same
  split at same <;> split at same <;> omega

/-- Replacing a character replaces the one of the list. -/
theorem toList_set (g : GapText) (pos : Nat) (c : Char) :
    (g.set pos c).toList = g.toList.set pos c := by
  apply toList_eq_of_get?
  intro i
  have samePlace : (g.set pos c).get? i = (g.chars.setIfInBounds (g.place pos) c)[g.place i]? := rfl
  rw [samePlace, Array.getElem?_setIfInBounds, List.getElem?_set, length_toList, getElem?_toList]
  by_cases hit : pos = i
  · subst hit
    simp only [if_true, place_lt_size]
  · rw [if_neg hit, if_neg (fun same => hit (place_injective g same)), get?]

theorem toList_replaceAt (g : GapText) (pos : Nat) (c : Char) :
    (g.replaceAt pos c).2.toList = g.toList.set pos c := by
  unfold replaceAt
  split
  · exact toList_set g pos c
  next past =>
      rw [List.set_eq_of_length_le (by rw [length_toList]; omega)]

end EditorLisp.GapText
