import EditorLisp.Proofs.Document.Edits
import EditorLisp.Proofs.Document.Lines
import Mathlib.Data.List.Induction
import Mathlib.Data.List.TakeWhile

/-!
# Deleting blank lines

The command looks from the point for the first and the last of the blank lines around it, or after
it, going from one newline to the next.  What it finds is a run of blank lines that no blank line
comes before or after, and what it does to the text it does to that run alone: of many lines one is
kept, a single one goes, and those after a line of another kind go.
-/

namespace EditorLisp

namespace Text

/-- A line of blanks, or of nothing. -/
def isBlankLine (line : List Char) : Bool := line.all isBlank

/-- A run of blank lines, with no blank line before it or after it. -/
structure BlankRun (lines upper run lower : List (List Char)) : Prop where
  lines_eq : lines = upper ++ run ++ lower
  blank : ∀ line ∈ run, isBlankLine line
  upper_end : ∀ line ∈ upper.getLast?, ¬isBlankLine line
  lower_start : ∀ line ∈ lower.head?, ¬isBlankLine line

/-- Lines start with a run of blank lines. -/
theorem exists_blankRun_front (lines : List (List Char)) :
    ∃ run lower, BlankRun lines [] run lower := by
  refine ⟨lines.takeWhile isBlankLine, lines.dropWhile isBlankLine,
    List.takeWhile_append_dropWhile.symm, fun line => List.mem_takeWhile_imp,
    fun line never => absurd never (by simp), fun line first => ?_⟩
  have stops := List.head?_dropWhile_not isBlankLine lines
  rw [Option.mem_def.mp first] at stops
  exact Bool.not_eq_true _ ▸ stops

/-- Lines end with a run of blank lines. -/
theorem exists_blankRun_back (lines : List (List Char)) :
    ∃ upper run, BlankRun lines upper run [] := by
  obtain ⟨run, upper, split, blank, -, stops⟩ := exists_blankRun_front lines.reverse
  refine ⟨upper.reverse, run.reverse, ?_, fun line inRun => blank line (List.mem_reverse.mp inRun),
    fun line last => stops line ?_, fun line never => absurd never (by simp)⟩
  · rw [List.append_nil, ← List.reverse_append, ← List.reverse_reverse lines, split]
    rfl
  · rwa [List.getLast?_reverse] at last

namespace BlankRun

variable {above below upper back run lower : List (List Char)} {line : List Char}

/-- A blank line lies in the run of the blank lines that end above it and start below it. -/
theorem around (up : BlankRun above upper back []) (blank : isBlankLine line)
    (down : BlankRun below [] run lower) :
    BlankRun (above ++ line :: below) upper (back ++ line :: run) lower where
  lines_eq := by
    rw [up.lines_eq, down.lines_eq]
    simp only [List.append_assoc, List.append_nil, List.nil_append, List.cons_append]
  blank := by
    intro l inRun
    rcases List.mem_append.mp inRun with inBack | inRun
    · exact up.blank l inBack
    · rcases List.mem_cons.mp inRun with rfl | inRun
      · exact blank
      · exact down.blank l inRun
  upper_end := up.upper_end
  lower_start := down.lower_start

/-- Below any other line lies the run of the blank lines that start there. -/
theorem after (solid : ¬isBlankLine line) (down : BlankRun below [] run lower) :
    BlankRun (above ++ line :: below) (above ++ [line]) run lower where
  lines_eq := by
    rw [down.lines_eq]
    simp only [List.append_assoc, List.nil_append, List.cons_append]
  blank := down.blank
  upper_end := by
    intro l last
    rw [List.getLast?_concat] at last
    rwa [← Option.some.inj last]
  lower_start := down.lower_start

end BlankRun

/-! ## The text of a run -/

theorem ended_append (upper lower : List (List Char)) :
    ended (upper ++ lower) = ended upper ++ ended lower :=
  List.flatMap_append

theorem begun_append (upper lower : List (List Char)) :
    begun (upper ++ lower) = begun upper ++ begun lower :=
  List.flatMap_append

/-- Each line is ended by a character. -/
theorem length_le_ended (lines : List (List Char)) : lines.length ≤ (ended lines).length := by
  induction lines with
  | nil => exact Nat.le_refl _
  | cons line lines ih =>
      rw [ended_cons, List.length_append, List.length_cons, List.length_cons]
      omega

/-- Each line is begun by a character. -/
theorem length_le_begun (lines : List (List Char)) : lines.length ≤ (begun lines).length := by
  induction lines with
  | nil => exact Nat.le_refl _
  | cons line lines ih =>
      rw [begun_cons, List.length_cons, List.length_cons, List.length_append]
      omega

theorem length_ended_eq_zero_iff {lines : List (List Char)} :
    (ended lines).length = 0 ↔ lines = [] := by
  constructor
  · intro none
    exact List.eq_nil_of_length_eq_zero (Nat.le_zero.mp (none ▸ length_le_ended lines))
  · rintro rfl
    rfl

theorem length_begun_eq_zero_iff {lines : List (List Char)} :
    (begun lines).length = 0 ↔ lines = [] := by
  constructor
  · intro none
    exact List.eq_nil_of_length_eq_zero (Nat.le_zero.mp (none ▸ length_le_begun lines))
  · rintro rfl
    rfl

end Text

namespace Buffer

variable {b : Buffer} {above below upper back run more lower : List (List Char)}
  {line first prev next : List Char} {column pos fuel : Nat}

open Text

namespace StandsAt

theorem isBlankLine_eq (stands : b.StandsAt above line below 0 pos) :
    b.isBlankLine pos = Text.isBlankLine line := by
  have stop := stands.lineEnd_eq
  have inside : (ended above).length + line.length ≤ b.size := by
    rw [stands.size_eq]
    exact Nat.le_add_right ..
  have region := ordered_of_le (Nat.le_add_right (ended above).length line.length) inside
  rw [Buffer.isBlankLine, stop, stands.pos_eq, toList_substring, Nat.add_zero, region,
    Nat.add_sub_cancel_left, stands.text_eq, List.append_assoc, List.drop_left, List.take_left]
  rfl

/-! ## The first and the last of the run -/

/-- One line further up, if it is blank. -/
theorem firstBlank_succ (stands : b.StandsAt (above ++ [prev]) line below column pos) (fuel : Nat) :
    b.firstBlank (fuel + 1) (ended (above ++ [prev])).length =
      if Text.isBlankLine prev then b.firstBlank fuel (ended above).length
      else (ended (above ++ [prev])).length := by
  have length : (ended (above ++ [prev])).length = (ended above).length + prev.length + 1 := by
    rw [ended_concat, List.length_append, List.length_append, List.length_singleton]
  have start := (stands.up (Nat.le_refl prev.length)).lineStart_eq
  have blank := (stands.up (Nat.zero_le _)).isBlankLine_eq
  rw [Nat.add_zero] at blank
  rw [length, firstBlank, start, blank]

/-- One line further down, if it is blank. -/
theorem lastBlank_succ (stands : b.StandsAt above line (next :: below) column pos) (fuel : Nat) :
    b.lastBlank (fuel + 1) ((ended above).length + line.length) =
      if Text.isBlankLine next then
        b.lastBlank fuel ((ended (above ++ [line])).length + next.length)
      else (ended above).length + line.length := by
  have start : (ended above).length + line.length + 1 = (ended (above ++ [line])).length := by
    rw [ended_concat, List.length_append, List.length_append, List.length_singleton]
  have further : (ended above).length + line.length < b.size := by
    rw [stands.size_eq, begun_cons, List.length_cons]
    omega
  have below := stands.down (Nat.zero_le _)
  have blank := below.isBlankLine_eq
  have stop := below.lineEnd_eq
  rw [Nat.add_zero] at blank stop
  rw [lastBlank, start, blank, stop, decide_eq_true further, Bool.true_and]

/-- The search up stops at the first line of the run. -/
theorem firstBlank_eq (stands : b.StandsAt (upper ++ run) line below column pos)
    (blank : ∀ l ∈ run, Text.isBlankLine l) (stops : ∀ l ∈ upper.getLast?, ¬Text.isBlankLine l)
    (room : run.length < fuel) :
    b.firstBlank fuel (ended (upper ++ run)).length = (ended upper).length := by
  obtain ⟨fuel, rfl⟩ := Nat.exists_eq_add_one_of_ne_zero (Nat.ne_zero_of_lt room)
  -- the search meets the last line of the run first
  induction run using List.reverseRecOn generalizing line below column pos fuel with
  | nil =>
      rw [List.append_nil] at stands ⊢
      obtain rfl | ⟨upper, last, rfl⟩ := upper.eq_nil_or_concat'
      · rfl
      · rw [stands.firstBlank_succ, if_neg (stops last List.getLast?_concat)]
  | append_singleton run last ih =>
      rw [List.length_append, List.length_singleton] at room
      obtain ⟨fuel, rfl⟩ := Nat.exists_eq_add_one_of_ne_zero (by omega : fuel ≠ 0)
      rw [← List.append_assoc] at stands ⊢
      rw [stands.firstBlank_succ, if_pos (blank last (List.mem_append_right _ List.mem_cons_self))]
      exact ih (stands.up (Nat.zero_le _)) (fun l inRun => blank l (List.mem_append_left _ inRun))
        fuel (Nat.lt_of_succ_lt_succ room)

/-- The search down stops at the last line of the run. -/
theorem lastBlank_eq (stands : b.StandsAt above line (run ++ lower) column pos)
    (blank : ∀ l ∈ run, Text.isBlankLine l) (stops : ∀ l ∈ lower.head?, ¬Text.isBlankLine l)
    (room : run.length < fuel) :
    b.lastBlank fuel ((ended above).length + line.length) =
      (ended above).length + line.length + (begun run).length := by
  obtain ⟨fuel, rfl⟩ := Nat.exists_eq_add_one_of_ne_zero (Nat.ne_zero_of_lt room)
  induction run generalizing above line column pos fuel with
  | nil =>
      rw [List.nil_append] at stands
      cases lower with
      | nil =>
          have atEnd : ¬(ended above).length + line.length < b.size := by
            rw [stands.size_eq]
            exact Nat.lt_irrefl _
          rw [lastBlank, decide_eq_false atEnd, Bool.false_and]
          rfl
      | cons next lower => rw [stands.lastBlank_succ, if_neg (stops next rfl)]; rfl
  | cons next run ih =>
      rw [List.length_cons] at room
      obtain ⟨fuel, rfl⟩ := Nat.exists_eq_add_one_of_ne_zero (by omega : fuel ≠ 0)
      have further := ih (stands.down (Nat.zero_le _))
        (fun l inRun => blank l (List.mem_cons_of_mem _ inRun)) fuel (Nat.lt_of_succ_lt_succ room)
      rw [stands.lastBlank_succ, if_pos (blank next List.mem_cons_self), further, ended_concat,
        begun_cons]
      simp only [List.length_append, List.length_cons, List.length_nil]
      omega

end StandsAt

/-! ## What is deleted -/

/-- The part of a text between two others is deleted. -/
theorem toList_deleteRegion_between {front middle back : List Char}
    (split : b.text.toList = front ++ middle ++ back) :
    (b.deleteRegion front.length (front.length + middle.length)).text.toList = front ++ back := by
  have inside : front.length + middle.length ≤ b.size := by
    rw [size, ← GapText.length_toList, split, List.length_append, List.length_append]
    exact Nat.le_add_right ..
  rw [toList_deleteRegion, ordered_of_le (Nat.le_add_right ..) inside, split]
  dsimp only
  rw [List.append_assoc, List.take_left, ← List.append_assoc, ← List.length_append, List.drop_left]

/-- The lines after a line are deleted from its end to the end of the last of them. -/
theorem lines_deleteRegion_below (split : b.lines = above ++ line :: (run ++ lower)) :
    (b.deleteRegion ((ended above).length + line.length)
        ((ended above).length + line.length + (begun run).length)).lines =
      above ++ line :: lower := by
  obtain ⟨text, plain⟩ := lines_eq_iff.mp split
  rw [begun_append, ← List.append_assoc] at text
  rw [← List.length_append]
  refine lines_eq_iff.mpr ⟨toList_deleteRegion_between text, fun l isLine => plain l ?_⟩
  simp only [List.mem_append, List.mem_cons] at isLine ⊢
  tauto

/-- A line is deleted with its newline. -/
theorem lines_deleteRegion_line (split : b.lines = above ++ line :: next :: below) :
    (b.deleteRegion (ended above).length ((ended above).length + line.length + 1)).lines =
      above ++ next :: below := by
  obtain ⟨text, plain⟩ := lines_eq_iff.mp split
  have parts : b.text.toList = ended above ++ (line ++ ['\n']) ++ (next ++ begun below) := by
    rw [text, begun_cons]
    simp only [List.append_assoc, List.singleton_append]
  have deleted := toList_deleteRegion_between parts
  rw [List.length_append, List.length_singleton, ← List.append_assoc] at deleted
  refine lines_eq_iff.mpr ⟨deleted, fun l isLine => plain l ?_⟩
  simp only [List.mem_append, List.mem_cons] at isLine ⊢
  tauto

/-- The last line has no newline, so the line stays and only what is in it is deleted. -/
theorem lines_deleteRegion_last (split : b.lines = above ++ [line]) :
    (b.deleteRegion (ended above).length ((ended above).length + line.length)).lines =
      above ++ [[]] := by
  obtain ⟨text, plain⟩ := lines_eq_iff.mp split
  have deleted := toList_deleteRegion_between text
  refine lines_eq_iff.mpr ⟨?_, fun l isLine => ?_⟩
  · rw [deleted, List.append_nil]
  · rcases List.mem_append.mp isLine with isAbove | isEmpty
    · exact plain l (List.mem_append_left _ isAbove)
    · rw [List.mem_singleton.mp isEmpty]
      exact List.not_mem_nil

/-! ## The command -/

namespace StandsAt

variable (stands : b.StandsAt above line below column b.point)
include stands

/-- The search is given enough steps to come to the start of the run above. -/
theorem firstBlank_size (up : BlankRun above upper back []) :
    b.firstBlank (b.size + 1) (ended above).length = (ended upper).length := by
  have split := up.lines_eq
  rw [List.append_nil] at split
  subst split
  have short := length_le_ended back
  refine stands.firstBlank_eq up.blank up.upper_end ?_
  rw [stands.size_eq, ended_append, List.length_append]
  omega

/-- The search is given enough steps to come to the end of the run below. -/
theorem lastBlank_size (down : BlankRun below [] run lower) :
    b.lastBlank (b.size + 1) ((ended above).length + line.length) =
      (ended above).length + line.length + (begun run).length := by
  have split := down.lines_eq
  rw [List.nil_append] at split
  subst split
  have short := length_le_begun run
  refine stands.lastBlank_eq down.blank down.lower_start ?_
  rw [stands.size_eq, begun_append, List.length_append]
  omega

/-- The command, by the runs of blank lines above the line of the point and below it. -/
theorem deleteBlankLines_eq (up : BlankRun above upper back [])
    (down : BlankRun below [] run lower) :
    let start := (ended above).length
    let stop := start + line.length
    let first := (ended upper).length
    let last := stop + (begun run).length
    b.deleteBlankLines =
      if Text.isBlankLine line then
        if back = [] ∧ run = [] then b.deleteRegion start (min (last + 1) b.size)
        else { b.deleteRegion (b.lineEnd first) last with point := first }
      else if run ≠ [] then b.deleteRegion stop last
      else b := by
  intro start stop first last
  have atStart := stands.goto (Nat.zero_le _)
  have blank : b.isBlankLine start = Text.isBlankLine line := atStart.isBlankLine_eq
  have lineEnd : b.lineEnd start = stop := atStart.lineEnd_eq
  have isFirst : b.firstBlank (b.size + 1) start = first := stands.firstBlank_size up
  have isLast : b.lastBlank (b.size + 1) stop = last := stands.lastBlank_size down
  have above_eq : start = first + (ended back).length := by
    dsimp only [start, first]
    rw [up.lines_eq, List.append_nil, ended_append, List.length_append]
  have alone : first = start ∧ last = stop ↔ back = [] ∧ run = [] := by
    rw [← length_ended_eq_zero_iff, ← length_begun_eq_zero_iff]
    omega
  have further : stop < last ↔ run ≠ [] := by
    rw [ne_eq, ← length_begun_eq_zero_iff]
    omega
  rw [deleteBlankLines, stands.lineStart_eq]
  dsimp only
  rw [lineEnd, blank, isFirst, isLast]
  exact if_congr Iff.rfl (if_congr alone rfl rfl) (if_congr further rfl rfl)

/-- The blank lines after another line go. -/
theorem lines_deleteBlankLines_solid (solid : ¬Text.isBlankLine line)
    (down : BlankRun below [] run lower) :
    b.deleteBlankLines.lines = above ++ line :: lower := by
  obtain ⟨upper, back, up⟩ := exists_blankRun_back above
  have split : b.lines = above ++ line :: (run ++ lower) :=
    stands.lines_eq.trans (down.lines_eq ▸ rfl)
  rw [stands.deleteBlankLines_eq up down, if_neg solid]
  split_ifs with further
  · exact lines_deleteRegion_below split
  · rw [split, not_not.mp further]
    rfl

/-- A blank line that stands alone goes, but the last line of a text is only emptied. -/
theorem lines_deleteBlankLines_single (blank : Text.isBlankLine line)
    (up : BlankRun above above [] []) (down : BlankRun below [] [] below) :
    b.deleteBlankLines.lines = if below ≠ [] then above ++ below else above ++ [[]] := by
  rw [stands.deleteBlankLines_eq up down, if_pos blank, if_pos ⟨rfl, rfl⟩]
  have split := stands.lines_eq
  have size := stands.size_eq
  rw [begun_nil, List.length_nil, Nat.add_zero]
  cases below with
  | nil =>
      rw [begun_nil, List.length_nil, Nat.add_zero] at size
      rw [size, Nat.min_eq_right (Nat.le_succ _)]
      exact lines_deleteRegion_last split
  | cons next below =>
      rw [begun_cons, List.length_cons] at size
      rw [Nat.min_eq_left (by omega)]
      exact lines_deleteRegion_line split

/-- Of several blank lines the first stays. -/
theorem lines_deleteBlankLines_many (blank : Text.isBlankLine line)
    (up : BlankRun above upper back []) (down : BlankRun below [] run lower)
    (same : back ++ line :: run = first :: more) (many : more ≠ []) :
    b.deleteBlankLines.lines = upper ++ first :: lower := by
  have split : b.lines = upper ++ first :: (more ++ lower) := by
    rw [stands.lines_eq, (up.around blank down).lines_eq, same, List.append_assoc]
    rfl
  have atFirst : b.StandsAt upper first (more ++ lower) 0 ((ended upper).length + 0) :=
    ⟨split, Nat.zero_le _, rfl⟩
  have firstEnd := atFirst.lineEnd_eq
  -- the last line of the run ends where it does, seen from the point or from the first line
  have sizes := stands.size_eq.symm.trans atFirst.size_eq
  have lower_eq : (begun below).length = (begun run).length + (begun lower).length := by
    rw [down.lines_eq, List.nil_append, begun_append, List.length_append]
  rw [lower_eq, begun_append, List.length_append] at sizes
  have last : (ended above).length + line.length + (begun run).length =
      (ended upper).length + first.length + (begun more).length := by
    omega
  have notAlone : ¬(back = [] ∧ run = []) := by
    rintro ⟨rfl, rfl⟩
    exact many (List.cons.inj same).2.symm
  rw [Nat.add_zero] at firstEnd
  rw [stands.deleteBlankLines_eq up down, if_pos blank, if_neg notAlone, last, firstEnd]
  exact lines_deleteRegion_below split

end StandsAt

/-- What the command does to the lines of a text.  On a blank line it is the run of blank lines
around it that matters, as long as it goes: of several lines the first is kept, and a single one
goes, or is emptied if it is the last line of the text.  On any other line the run of blank lines
below it goes.  All the other lines stay, and the point stays within the text. -/
theorem deleteBlankLines_lines (inside : b.point ≤ b.size) :
    b.deleteBlankLines.point ≤ b.deleteBlankLines.size ∧
      ∃ above line below column, b.StandsAt above line below column b.point ∧
        (Text.isBlankLine line →
          ∃ upper first more lower, BlankRun b.lines upper (first :: more) lower ∧
            upper.length ≤ above.length ∧ above.length ≤ upper.length + more.length ∧
              b.deleteBlankLines.lines =
                if more ≠ [] then upper ++ first :: lower
                else if lower ≠ [] then upper ++ lower
                else upper ++ [[]]) ∧
        (¬Text.isBlankLine line →
          ∃ run lower, BlankRun b.lines (above ++ [line]) run lower ∧
            b.deleteBlankLines.lines = above ++ line :: lower) := by
  refine ⟨(edited_deleteBlankLines b).point_le inside, ?_⟩
  obtain ⟨above, line, below, column, stands⟩ := exists_standsAt inside
  obtain ⟨upper, back, up⟩ := exists_blankRun_back above
  obtain ⟨run, lower, down⟩ := exists_blankRun_front below
  refine ⟨above, line, below, column, stands, fun blank => ?_, fun solid => ?_⟩
  · obtain ⟨first, more, same⟩ : ∃ first more, back ++ line :: run = first :: more :=
      List.exists_cons_of_ne_nil (List.append_ne_nil_of_right_ne_nil back (List.cons_ne_nil _ _))
    have around := up.around blank down
    rw [← stands.lines_eq, same] at around
    have height : above.length = upper.length + back.length := by
      rw [up.lines_eq, List.append_nil, List.length_append]
    have count := congrArg List.length same
    rw [List.length_append, List.length_cons, List.length_cons] at count
    refine ⟨upper, first, more, lower, around, by omega, by omega, ?_⟩
    cases more with
    | cons second more =>
        rw [if_pos (List.cons_ne_nil _ _)]
        exact stands.lines_deleteBlankLines_many blank up down same (List.cons_ne_nil _ _)
    | nil =>
        rw [List.length_nil] at count
        obtain rfl : back = [] := List.eq_nil_of_length_eq_zero (by omega)
        obtain rfl : run = [] := List.eq_nil_of_length_eq_zero (by omega)
        obtain rfl : above = upper := by simpa using up.lines_eq
        obtain rfl : below = lower := by simpa using down.lines_eq
        rw [if_neg (not_not.mpr rfl)]
        exact stands.lines_deleteBlankLines_single blank up down
  · refine ⟨run, lower, ?_, stands.lines_deleteBlankLines_solid solid down⟩
    rw [stands.lines_eq]
    exact down.after solid

/-- Three blank lines, and the point on the second of them. -/
theorem deleteBlankLines_lines_three :
    let b := (Buffer.insert { id := 1, name := "notes" } "a\n\n\n\nb").goto 3
    b.point ≤ b.size ∧ b.deleteBlankLines.point ≤ b.deleteBlankLines.size ∧
      ∃ upper first more lower, BlankRun b.lines upper (first :: more) lower ∧
        b.deleteBlankLines.lines =
          if more ≠ [] then upper ++ first :: lower
          else if lower ≠ [] then upper ++ lower
          else upper ++ [[]] := by
  intro b
  have inside : b.point ≤ b.size := by decide
  obtain ⟨stays, above, line, below, column, stands, onBlank, -⟩ := deleteBlankLines_lines inside
  have blank : Text.isBlankLine line := by
    rw [← (stands.goto (Nat.zero_le _)).isBlankLine_eq, Nat.add_zero, ← stands.lineStart_eq]
    decide
  obtain ⟨upper, first, more, lower, around, -, -, lines_eq⟩ := onBlank blank
  exact ⟨inside, stays, upper, first, more, lower, around, lines_eq⟩

end Buffer

end EditorLisp
