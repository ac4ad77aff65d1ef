import EditorLisp.Proofs.Primitives.Search

/-!
# Searching for a literal text

A search for a text goes through the engine with the text quoted.  With an engine that takes literal
texts it comes to what one finds by looking for the text position by position.  Forward each
occurrence is the earliest one at or after the end of the one before, backward the latest one
that ends at or before the start of the one before.  The same holds of a search in a string, which
has a second implementation that does without the engine.

The least integer, of which no offset can be computed, is no bound.
-/

namespace EditorLisp

namespace Primitives

open Eval Regexp Text

variable {s t : Session} {b : Buffer} {word chars : List Char} {r : Regex}
  {bound pos a target count : Nat} {backward : Bool} {spans : Spans}

/-! ## One occurrence -/

/-- Where one goes on from after a match that is as long as the word. -/
def onward (backward : Bool) (word : List Char) (a : Nat) : Nat :=
  if backward then a else a + word.length

/-- One search finds the occurrence that comes next. -/
theorem searchOnce_of_isLiteral (literal : r.IsLiteral word) (nonempty : word ≠ [])
    (ahead : Ahead chars bound backward pos)
    (found : searchOnce r chars bound backward pos = some spans) :
    ∃ a, NextOccurrence word chars bound backward pos a (onward backward word a) ∧
      spans.group? 0 = some (a, a + word.length) := by
  obtain ⟨a, stop, group, -, ends, ⟨occurs, rfl⟩, nearest⟩ :=
    searchOnce_eq_some literal.finds ahead found
  replace occurs := ((occurs_take nonempty).mp occurs).1
  refine ⟨a, ?_, group⟩
  cases backward with
  | true =>
      obtain ⟨above, last⟩ := nearest
      refine .backward ⟨ends, occurs, fun c after ends' occurs' => ?_⟩ above
      exact last c _ after (by omega) ⟨(occurs_take nonempty).mpr ⟨occurs', ends'⟩, rfl⟩
  | false =>
      obtain ⟨above, first⟩ := nearest
      replace ends : a + word.length ≤ bound := ends
      refine .forward ⟨above, occurs, fun c begun before occurs' => ?_⟩ ends
      exact first c _ begun before ⟨(occurs_take nonempty).mpr ⟨occurs', by omega⟩, rfl⟩

theorem not_nextOccurrence_of_isLiteral (literal : r.IsLiteral word) (nonempty : word ≠ [])
    (ahead : Ahead chars bound backward pos)
    (nothing : searchOnce r chars bound backward pos = none) (next : Nat) :
    ¬NextOccurrence word chars bound backward pos a next := by
  have none := searchOnce_eq_none literal.finds ahead nothing
  intro occurrence
  cases occurrence with
  | forward earliest inside =>
      have occurs := (occurs_take nonempty).mpr ⟨earliest.occurs, inside⟩
      exact none a _ earliest.le (by omega) ⟨occurs, rfl⟩
  | backward latest inside =>
      have occurs := (occurs_take nonempty).mpr ⟨latest.occurs, latest.le⟩
      have ends := latest.le
      exact none a _ inside (by omega) ⟨occurs, rfl⟩

/-! ## Successive occurrences -/

/-- Behind an occurrence the bound is still ahead. -/
theorem ahead_onward (ahead : Ahead chars bound backward pos)
    (next : NextOccurrence word chars bound backward pos a target) :
    Ahead chars bound backward target := by
  obtain ⟨within, boundWithin, -⟩ := ahead
  cases next with
  | forward _ inside => exact ⟨Nat.le_trans inside boundWithin, boundWithin, inside⟩
  | backward latest inside =>
      have ends := latest.le
      exact ⟨by omega, boundWithin, inside⟩

/-- A word that is not empty is never found again where it was found. -/
theorem onward_ne (nonempty : word ≠ [])
    (next : NextOccurrence word chars bound backward pos a target) : target ≠ pos := by
  have positive := List.length_pos_iff.mpr nonempty
  cases next with
  | forward earliest _ =>
      have := earliest.le
      omega
  | backward latest _ =>
      have := latest.le
      omega

/-- After one occurrence the search goes on behind it. -/
theorem searchTimes_onward (nonempty : word ≠ []) {last : Option Spans}
    (next : NextOccurrence word chars bound backward pos a (onward backward word a))
    (group : spans.group? 0 = some (a, a + word.length))
    (found : searchOnce r chars bound backward pos = some spans) :
    searchTimes r chars bound backward (count + 1) pos last =
      searchTimes r chars bound backward count (onward backward word a) (some spans) := by
  have positive := List.length_pos_iff.mpr nonempty
  have moved : (if backward then a
      else if a = a + word.length ∧ a + word.length < bound then a + word.length + 1
      else a + word.length) = onward backward word a := by
    rw [if_neg (show ¬(a = a + word.length ∧ _) by omega)]
    rfl
  rw [searchTimes_succ, found]
  dsimp only
  rw [Spans.whole_of_group? group]
  dsimp only
  rw [moved, if_neg (onward_ne nonempty next)]

/-- Searching so many times finds so many successive occurrences.  The induction is on their
number, and each search goes on where the last occurrence has led. -/
theorem searchTimes_of_isLiteral (literal : r.IsLiteral word) (nonempty : word ≠ [])
    (ahead : Ahead chars bound backward pos) {last : Option Spans}
    (found : searchTimes r chars bound backward (count + 1) pos last = some spans) :
    ∃ a, Occurrences word chars bound backward (count + 1) pos a (onward backward word a) ∧
      spans.group? 0 = some (a, a + word.length) := by
  induction count generalizing pos last with
  | zero =>
      rw [searchTimes_one] at found
      obtain ⟨a, next, group⟩ := searchOnce_of_isLiteral literal nonempty ahead found
      exact ⟨a, .one next, group⟩
  | succ count ih =>
      cases once : searchOnce r chars bound backward pos with
      | none =>
          rw [searchTimes_succ, once] at found
          cases found
      | some spans' =>
          obtain ⟨c, next, group'⟩ := searchOnce_of_isLiteral literal nonempty ahead once
          rw [searchTimes_onward nonempty next group' once] at found
          obtain ⟨a, rest, group⟩ := ih (ahead_onward ahead next) found
          exact ⟨a, .more next rest, group⟩

theorem not_occurrences_of_isLiteral (literal : r.IsLiteral word) (nonempty : word ≠ [])
    (ahead : Ahead chars bound backward pos) {last : Option Spans}
    (nothing : searchTimes r chars bound backward (count + 1) pos last = none) (a target : Nat) :
    ¬Occurrences word chars bound backward (count + 1) pos a target := by
  induction count generalizing pos last with
  | zero =>
      rw [searchTimes_one] at nothing
      have none :=
        not_nextOccurrence_of_isLiteral (a := a) literal nonempty ahead nothing target
      intro occurrences
      cases occurrences with
      | one next => exact none next
      | more _ rest => exact absurd rest.count_pos (Nat.lt_irrefl 0)
  | succ count ih =>
      intro occurrences
      cases occurrences with
      | @more _ _ c mid _ _ next rest =>
          cases once : searchOnce r chars bound backward pos with
          | none => exact not_nextOccurrence_of_isLiteral literal nonempty ahead once mid next
          | some spans' =>
              obtain ⟨c', next', group'⟩ := searchOnce_of_isLiteral literal nonempty ahead once
              rw [searchTimes_onward nonempty next' group' once] at nothing
              obtain ⟨rfl, rfl⟩ := next.unique next'
              exact ih (ahead_onward ahead next') nothing rest

/-! ## A text in a buffer -/

/-- The text of a buffer where a word stands. -/
theorem substring_of_occurs (occurs : Occurs word b.text.toList a) (nonempty : word ≠ []) :
    b.substring a (a + word.length) = String.ofList word := by
  have inside := occurs.add_length_le nonempty
  rw [GapText.length_toList] at inside
  have first : b.clamp a = a := Nat.min_eq_left (Nat.le_trans (Nat.le_add_right ..) inside)
  have last : b.clamp (a + word.length) = a + word.length := Nat.min_eq_left inside
  unfold Buffer.substring Buffer.ordered
  dsimp only
  rw [first, last, if_pos (Nat.le_add_right ..)]
  dsimp only
  rw [GapText.range_eq _ _ _ (Nat.le_add_right ..) inside, Nat.add_sub_cancel_left,
    ← List.prefix_iff_eq_take.mp occurs]

/-- The text of the last match is the word, where the match data are those of an occurrence. -/
theorem matchString_of_occurs (I : Interp) (editing : t.Editing b)
    (recorded : t.matchData = some ⟨recorded spans 1, .buffer b.id⟩)
    (group : spans.group? 0 = some (a, a + word.length))
    (occurs : Occurs word b.text.toList a) (nonempty : word ≠ []) :
    ∃ handle u, callPrimitive I "match-string" [.int 0] t =
      .ok (.str handle (String.ofList word)) u := by
  have matched : matchedText? t 0 none = some (String.ofList word) := by
    have offsets : bufferOffsets? (((a + 1 : Nat) : Int), ((a + word.length + 1 : Nat) : Int)) =
        some (a, a + word.length) := by
      unfold bufferOffsets?
      rw [if_pos (by omega)]
      refine congrArg some (Prod.ext ?_ ?_)
      · show ((a + 1 : Nat) - 1 : Int).toNat = a
        omega
      · show ((a + word.length + 1 : Nat) - 1 : Int).toNat = a + word.length
        omega
    have found := group?_recorded group 1 (.buffer b.id)
    unfold matchedText?
    simp only [recorded, found, bind, Option.bind_some, editing.current_eq.2, offsets,
      substring_of_occurs occurs nonempty]
  rw [callPrimitive_of_searches I rfl]
  refine ⟨t.store.nextText, { t with store := (t.store.text (String.ofList word)).2 }, ?_⟩
  unfold matchString
  refine (bind_of_ok _ rfl).trans ((bind_of_ok _ rfl).trans ((bind_of_ok _ rfl).trans ?_))
  refine (bind_of_ok _ rfl).trans ?_
  have zero : (Int64.toInt 0).toNat = 0 := rfl
  rw [zero, matched]
  rfl

/-- A bound that can be converted to an offset: none, or an integer that has one before it. -/
def IsBound (limit : Value) : Prop := limit = .nil ∨ ∃ n, limit = .int n ∧ Int64.minValue < n

theorem searchBound_eq {limit v : Value} {rest : List Value} (isBound : IsBound limit) :
    searchBound b (given? (v :: limit :: rest) 1) backward s =
      .ok (boundOffset b backward limit) s := by
  rcases isBound with rfl | ⟨n, rfl, greater⟩
  · rfl
  · obtain ⟨m, counted, value⟩ := below_eq greater s
    show (below n >>= fun m => pure (b.clamp m.toInt.toNat)) s = _
    rw [bind_of_ok _ counted, value]
    rfl

/-- What a search for a text does in a buffer that is current: if there are so many successive
occurrences it goes to the end, or backward to the start, of the last one, records that and
returns the position; and otherwise it only clears the match data. -/
structure FindsOccurrences (I : Interp) (s : Session) (b : Buffer) (needle : Value)
    (word : List Char) (backward : Bool) (limit : Value) (count : Int64) : Prop where
  found : ∀ a target,
    Occurrences word b.text.toList (boundOffset b backward limit) backward count.toInt.toNat
      b.point a target →
    ∃ m, let t := (s.recording m).changing b.id (·.goto target)
      callPrimitive I (searchName true backward) [needle, limit, .t, .int count] s =
          .ok (position target) t ∧
        t.Editing (b.goto target) ∧ (b.goto target).point = target ∧
        ∃ handle u, callPrimitive I "match-string" [.int 0] t =
          .ok (.str handle (String.ofList word)) u
  missed :
    (∀ a target, ¬Occurrences word b.text.toList (boundOffset b backward limit) backward
      count.toInt.toNat b.point a target) →
    callPrimitive I (searchName true backward) [needle, limit, .t, .int count] s =
      .ok .nil (s.recording none)

/-- A position that a search comes to from inside of a text is inside of it. -/
theorem target_le_length (ahead : Ahead chars bound backward pos)
    (occurrences : Occurrences word chars bound backward count pos a target) :
    target ≤ chars.length := by
  induction occurrences with
  | one next => exact (ahead_onward ahead next).pos_le
  | more next _ ih => exact ih (ahead_onward ahead next)

/-- A search for a text from the point, with its bound ahead. -/
theorem callPrimitive_searchText (I : Interp) (editing : s.Editing b) {needle : String}
    (compiled : s.host.engine.ofPattern (quote needle) (folds s) = .ok r) {limit : Value}
    (isBound : IsBound limit)
    (ahead : Ahead b.text.toList (boundOffset b backward limit) backward b.point)
    {count : Int64} (positive : 0 < count.toInt) (handle : Nat) :
    callPrimitive I (searchName true backward) [.str handle needle, limit, .t, .int count] s =
      conclude (quote needle) .t b.id backward (boundOffset b backward limit)
        (searchTimes r b.text.toList (boundOffset b backward limit) backward count.toInt.toNat
          b.point none) s := by
  have onRightSide : ¬if backward then b.point < boundOffset b backward limit
      else boundOffset b backward limit < b.point := by
    cases backward with
    | true => exact Nat.not_lt_of_le ahead.ordered
    | false => exact Nat.not_lt_of_le ahead.ordered
  have counted : countArg [.str handle needle, limit, .t, .int count] 3 s = .ok count s := rfl
  rw [callPrimitive_search I _ _ _ _ (by simp), if_pos rfl,
    searchBuffer_eq editing (searchPattern_of_ok compiled) counted positive]
  refine (bind_of_ok _ (searchBound_eq isBound)).trans ?_
  rw [if_neg onRightSide]
  rfl

/-- A search for a text goes through successive occurrences. -/
theorem findsOccurrences (I : Interp) (editing : s.Editing b) {needle : String}
    (compiled : s.host.engine.ofPattern (quote needle) (folds s) = .ok r)
    (literal : r.IsLiteral needle.toList) (nonempty : needle ≠ "") {limit : Value}
    (isBound : IsBound limit)
    (rightSide : if backward then boundOffset b backward limit ≤ b.point
      else b.point ≤ boundOffset b backward limit)
    {count : Int64} (positive : 0 < count.toInt) (handle : Nat) :
    FindsOccurrences I s b (.str handle needle) needle.toList backward limit count := by
  have letters : needle.toList ≠ [] := fun empty => nonempty (String.toList_eq_nil_iff.mp empty)
  have ahead : Ahead b.text.toList (boundOffset b backward limit) backward b.point :=
    ⟨editing.point_le_length,
      (boundOffset_le b backward limit).trans_eq (GapText.length_toList _).symm, rightSide⟩
  have called := callPrimitive_searchText I editing compiled isBound ahead positive handle
  obtain ⟨k, count_eq⟩ : ∃ k, count.toInt.toNat = k + 1 := ⟨count.toInt.toNat - 1, by omega⟩
  rw [count_eq] at called
  constructor
  · intro a target occurrences
    rw [count_eq] at occurrences
    cases result : searchTimes r b.text.toList (boundOffset b backward limit) backward (k + 1)
        b.point none with
    | none =>
        exact absurd occurrences
          (not_occurrences_of_isLiteral literal letters ahead result a target)
    | some spans =>
        obtain ⟨a', occurrences', group⟩ := searchTimes_of_isLiteral literal letters ahead result
        obtain ⟨rfl, rfl⟩ := occurrences.unique occurrences'
        have there : (if backward then spans.whole.1 else spans.whole.2) =
            onward backward needle.toList a := by
          rw [Spans.whole_of_group? group]
          rfl
        rw [result, conclude_some editing, there] at called
        have after := editing_searched editing spans (onward backward needle.toList a)
        have inside := (target_le_length ahead occurrences).trans_eq (GapText.length_toList _)
        obtain ⟨h, u, matched⟩ :=
          matchString_of_occurs I after rfl group occurrences.occurs letters
        exact ⟨some ⟨recorded spans 1, .buffer b.id⟩, called, after, Nat.min_eq_left inside,
          h, u, matched⟩
  · intro absent
    rw [count_eq] at absent
    cases result : searchTimes r b.text.toList (boundOffset b backward limit) backward (k + 1)
        b.point none with
    | none =>
        rw [called, result]
        rfl
    | some spans =>
        obtain ⟨a', occurrences', -⟩ := searchTimes_of_isLiteral literal letters ahead result
        exact absurd occurrences' (absent a' _)

/-! ## A text in a string -/

/-- The offset that a start index stands for in a string of so many characters: it counts from the
end if it is negative, and there may be none. -/
def startOffset? (length : Nat) : Value → Option Nat
  | .int n =>
    let i := if n.toInt < 0 then length + n.toInt else n.toInt
    if 0 ≤ i ∧ i ≤ length then some i.toNat else none
  | _ => some 0

theorem startOffset?_le {length start : Nat} {index : Value}
    (inside : startOffset? length index = some start) : start ≤ length := by
  cases index with
  | int n =>
      unfold startOffset? at inside
      dsimp only at inside
      generalize (if n.toInt < 0 then (length : Int) + n.toInt else n.toInt) = i at inside
      split at inside
      next fits =>
          cases inside
          omega
      next => cases inside
  | _ =>
      cases inside
      exact Nat.zero_le _

/-- A start index is left out or an integer. -/
def IsIndex (index : Value) : Prop := index = .nil ∨ ∃ n, index = .int n

theorem resolveIndex_eq {index v w : Value} (isIndex : IsIndex index) (text : String)
    (s : Session) :
    resolveIndex (given? [v, w, index] 2) text.toList.length 0 s =
      .ok (startOffset? text.length index) s := by
  rw [String.length_toList]
  rcases isIndex with rfl | ⟨n, rfl⟩ <;> rfl

/-- The search without the engine finds the first occurrence.  The induction is on the rest of
the string, which is what comes after the position. -/
theorem findText_eq_some {rest : List Char} (isRest : rest = chars.drop pos)
    (found : findText word pos rest = some a) : Earliest word chars pos a := by
  induction rest generalizing pos with
  | nil =>
      rw [findText] at found
      split at found
      next empty =>
          cases found
          cases List.isEmpty_iff.mp empty
          exact ⟨Nat.le_refl _, List.nil_prefix, fun c begun before => by omega⟩
      next => cases found
  | cons c rest ih =>
      rw [findText] at found
      split at found
      next here =>
          cases found
          refine ⟨Nat.le_refl _, ?_, fun c begun before => by omega⟩
          rw [Occurs, ← isRest]
          exact List.isPrefixOf_iff_prefix.mp here
      next notHere =>
          have isRest' : rest = chars.drop (pos + 1) := by
            rw [← List.tail_drop, ← isRest, List.tail_cons]
          obtain ⟨le, occurs, first⟩ := ih isRest' found
          refine ⟨Nat.le_of_succ_le le, occurs, fun c' begun before occurs' => ?_⟩
          rcases Nat.lt_or_eq_of_le begun with after | rfl
          · exact first c' after before occurs'
          · rw [Occurs, ← isRest] at occurs'
            exact notHere (List.isPrefixOf_iff_prefix.mpr occurs')

theorem findText_eq_none {rest : List Char} (isRest : rest = chars.drop pos)
    (nothing : findText word pos rest = none) : ∀ a, pos ≤ a → ¬Occurs word chars a := by
  induction rest generalizing pos with
  | nil =>
      rw [findText] at nothing
      split at nothing
      next => cases nothing
      next nonempty =>
          intro a after occurs
          have ended : chars.drop a = [] := by
            rw [← Nat.add_sub_cancel' after, ← List.drop_drop, ← isRest, List.drop_nil]
          rw [Occurs, ended, List.prefix_nil] at occurs
          exact nonempty (List.isEmpty_iff.mpr occurs)
  | cons c rest ih =>
      rw [findText] at nothing
      split at nothing
      next => cases nothing
      next notHere =>
          have isRest' : rest = chars.drop (pos + 1) := by
            rw [← List.tail_drop, ← isRest, List.tail_cons]
          intro a after occurs
          rcases Nat.lt_or_eq_of_le after with later | rfl
          · exact ih isRest' nothing a later occurs
          · rw [Occurs, ← isRest] at occurs
            exact notHere (List.isPrefixOf_iff_prefix.mpr occurs)

/-- What both searches answer: where the first occurrence is, or `nil`. -/
def firstOccurrence (word chars : List Char) (start : Nat) : Value :=
  match findText word start (chars.drop start) with
  | some pos => .ofNat pos
  | none => .nil

/-- In a string an engine that takes the word finds the same. -/
theorem capturesAt_of_isLiteral (literal : r.IsLiteral word) {start : Nat}
    (inside : start ≤ chars.length) :
    (match (r.capturesAt chars (byteOffset chars start)).map (·.spans) with
      | some spans => Value.ofNat spans.whole.1
      | none => .nil) = firstOccurrence word chars start := by
  unfold firstOccurrence
  cases captured : r.capturesAt chars (byteOffset chars start) with
  | some c =>
      obtain ⟨⟨occurs, -⟩, above, first⟩ := literal.finds.found chars start c inside captured
      have earliest : Earliest word chars start c.whole.span.1 :=
        ⟨above, occurs, fun a begun before occurs' => first a _ begun before ⟨occurs', rfl⟩⟩
      cases same : findText word start (chars.drop start) with
      | some a =>
          cases earliest.unique (findText_eq_some rfl same)
          rfl
      | none => exact absurd earliest.occurs (findText_eq_none rfl same _ earliest.le)
  | none =>
      cases same : findText word start (chars.drop start) with
      | some a =>
          obtain ⟨above, occurs, first⟩ := findText_eq_some rfl same
          by_cases within : a ≤ chars.length
          · exact absurd ⟨occurs, rfl⟩
              (literal.finds.missed chars start inside captured a _ above within)
          · -- Beyond the end only the empty word stands, which stands at the start as well.
            have ended : chars.drop a = [] := List.drop_eq_nil_of_le (Nat.le_of_not_le within)
            rw [Occurs, ended, List.prefix_nil] at occurs
            cases occurs
            exact absurd List.nil_prefix (first start (Nat.le_refl _) (by omega))
      | none => rfl

/-- The answer of a search in a string from an offset: where the first occurrence is, or `nil`. -/
inductive IsFirst (word chars : List Char) (start : Nat) : Value → Prop
  | found {a : Nat} (earliest : Earliest word chars start a) : IsFirst word chars start (.ofNat a)
  | absent (none : ∀ a, start ≤ a → ¬Occurs word chars a) : IsFirst word chars start .nil

theorem isFirst_firstOccurrence (word chars : List Char) (start : Nat) :
    IsFirst word chars start (firstOccurrence word chars start) := by
  unfold firstOccurrence
  cases found : findText word start (chars.drop start) with
  | some a => exact .found (findText_eq_some rfl found)
  | none => exact .absent (findText_eq_none rfl found)

/-- What the two ways of searching for a text in a string do: from a start index inside of it
both return where the first occurrence is, or `nil`, and from any other both signal the same
condition. -/
structure FindsFirst (I : Interp) (s : Session) (needle text : String) (index : Value) : Prop where
  inside : ∀ start, startOffset? text.length index = some start → ∀ handle handle',
    ∃ value t, IsFirst needle.toList text.toList start value ∧
      (callPrimitive I "regexp-quote" [.str handle needle] >>= fun quoted =>
        callPrimitive I "string-match" [quoted, .str handle' text, index]) s = .ok value t ∧
      callPrimitive I "string-search" [.str handle needle, .str handle' text, index] s = .ok value s
  outside : startOffset? text.length index = none → ∀ handle handle',
    (∃ data t, (callPrimitive I "regexp-quote" [.str handle needle] >>= fun quoted =>
        callPrimitive I "string-match" [quoted, .str handle' text, index]) s =
      .exit (.signal "args-out-of-range" data) t) ∧
    ∃ data t, callPrimitive I "string-search" [.str handle needle, .str handle' text, index] s =
      .exit (.signal "args-out-of-range" data) t

/-- Quoting a text makes a new string and changes nothing else. -/
theorem stringMatch_quoted (I : Interp) {needle text : String} {index : Value}
    {handle handle' : Nat} :
    (callPrimitive I "regexp-quote" [.str handle needle] >>= fun quoted =>
      callPrimitive I "string-match" [quoted, .str handle' text, index]) s =
    stringMatch "string-match" 4 true I
      [.str s.store.nextText (quote needle), .str handle' text, index]
      { s with store := (s.store.text (quote needle)).2 } := by
  rw [callPrimitive_of_strings I rfl, callPrimitive_of_searches I rfl]
  exact bind_of_ok _ rfl

section Strings

variable {source text : String} {index : Value} {handle handle' start : Nat}

/-- A search in a string for a pattern that is valid. -/
theorem stringMatch_eq (I : Interp) (handle handle' : Nat)
    (compiled : searchPattern source s = .ok r s) (isIndex : IsIndex index) :
    stringMatch "string-match" 4 true I [.str handle source, .str handle' text, index] s =
      match startOffset? text.length index with
      | none => signal "args-out-of-range" [.str handle' text, index] s
      | some start =>
        let chars := text.toList
        let found := (r.capturesAt chars (byteOffset chars start)).map (·.spans)
        .ok (match found with
          | some spans => .ofNat spans.whole.1
          | none => .nil) (s.recording (found.map fun spans => ⟨recorded spans 0, .string⟩)) := by
  unfold stringMatch
  refine (bind_of_ok _ rfl).trans ((bind_of_ok _ rfl).trans ((bind_of_ok _ compiled).trans ?_))
  refine (bind_of_ok _ rfl).trans ((bind_of_ok _ (resolveIndex_eq isIndex text s)).trans ?_)
  cases startOffset? text.length index with
  | none => rfl
  | some start =>
      dsimp only
      generalize r.capturesAt text.toList (byteOffset text.toList start) = found
      cases found <;> rfl

/-- The search that does without the engine. -/
theorem stringSearch_eq (I : Interp) (isIndex : IsIndex index) :
    callPrimitive I "string-search" [.str handle source, .str handle' text, index] s =
      match startOffset? text.length index with
      | none => signal "args-out-of-range" [.str handle' text] s
      | some start => .ok (firstOccurrence source.toList text.toList start) s := by
  rw [callPrimitive_of_strings I rfl]
  show stringSearch I _ s = _
  unfold stringSearch firstOccurrence
  refine (bind_of_ok _ rfl).trans ((bind_of_ok _ rfl).trans ((bind_of_ok _ rfl).trans ?_))
  refine (bind_of_ok _ (resolveIndex_eq isIndex text s)).trans ?_
  cases startOffset? text.length index with
  | none => rfl
  | some start =>
      dsimp only
      cases findText source.toList start (text.toList.drop start) <;> rfl

theorem exists_signal (condition : String) (items : List Value) (s : Session) :
    ∃ data t, (signal condition items : Eval Value) s = .exit (.signal condition data) t :=
  ⟨_, _, rfl⟩

/-- Both ways of searching for a text in a string come to the same. -/
theorem findsFirst (I : Interp) {needle : String}
    (compiled : s.host.engine.ofPattern (quote needle) (folds s) = .ok r)
    (literal : r.IsLiteral needle.toList) (text : String) (isIndex : IsIndex index) :
    FindsFirst I s needle text index := by
  have ready : searchPattern (quote needle) { s with store := (s.store.text (quote needle)).2 } =
      .ok r _ := searchPattern_of_ok compiled
  have quotedMatch (handle handle' : Nat) :
      (callPrimitive I "regexp-quote" [.str handle needle] >>= fun quoted =>
        callPrimitive I "string-match" [quoted, .str handle' text, index]) s = _ :=
    (stringMatch_quoted I).trans (stringMatch_eq I s.store.nextText handle' ready isIndex)
  constructor
  · intro start inside handle handle'
    have within : start ≤ text.toList.length := by
      rw [String.length_toList]
      exact startOffset?_le inside
    have matched := quotedMatch handle handle'
    rw [inside] at matched
    dsimp only at matched
    rw [capturesAt_of_isLiteral literal within] at matched
    refine ⟨_, _, isFirst_firstOccurrence .., matched, ?_⟩
    rw [stringSearch_eq I isIndex, inside]
  · intro outside handle handle'
    rw [quotedMatch, stringSearch_eq I isIndex, outside]
    exact ⟨exists_signal .., exists_signal ..⟩

end Strings

/-! ## Both kinds of search -/

/-- Where searches do not ignore case and the engine takes a text, a search for the text comes to
what one finds position by position, in buffers and in strings. -/
theorem literal_search (I : Interp) (strict : folds s = false) {needle : String}
    (taken : s.host.engine.TakesLiteral needle.toList) :
    (∀ (b : Buffer) (backward : Bool) (limit : Value) (count : Int64) (handle : Nat),
      s.Editing b → needle ≠ "" → 0 < count.toInt → IsBound limit →
      (if backward then boundOffset b backward limit ≤ b.point
        else b.point ≤ boundOffset b backward limit) →
      FindsOccurrences I s b (.str handle needle) needle.toList backward limit count) ∧
    ∀ (text : String) (index : Value), IsIndex index → FindsFirst I s needle text index := by
  obtain ⟨r, compiled, literal⟩ := taken
  rw [← Engine.ofPattern_quote, ← strict] at compiled
  constructor
  · intro b backward limit count handle editing nonempty positive isBound rightSide
    exact findsOccurrences I editing compiled literal nonempty isBound rightSide positive handle
  · intro text index isIndex
    exact findsFirst I compiled literal text isIndex

/-- The second occurrence after the point, and the first one in a string from an index on. -/
theorem literal_search_twice :
    let s := sessionOf "a.b aab a.b" 0
    let b := bufferOf "a.b aab a.b" 0
    folds s = false ∧ s.host.engine.TakesLiteral "a.b".toList ∧ s.Editing b ∧ "a.b" ≠ "" ∧
      0 < Int64.toInt 2 ∧ IsBound .nil ∧ b.point ≤ boundOffset b false .nil ∧ IsIndex (.int 1) ∧
      Occurrences "a.b".toList b.text.toList (boundOffset b false .nil) false (Int64.toInt 2).toNat
        b.point 8 11 ∧
      FindsOccurrences .top s b (.str 0 "a.b") "a.b".toList false .nil 2 ∧
      FindsFirst .top s "a.b" "aab a.b" (.int 1) := by
  intro s b
  have strict : folds s = false := by decide +kernel
  have taken : s.host.engine.TakesLiteral "a.b".toList := takesLiteral_automaton (by decide)
  have editing : s.Editing b := editing_sessionOf "a.b aab a.b" 0
  have isIndex : IsIndex (.int 1) := .inr ⟨1, rfl⟩
  have ahead : b.point ≤ boundOffset b false .nil := by decide +kernel
  have occurrences : Occurrences "a.b".toList b.text.toList (boundOffset b false .nil) false
      (Int64.toInt 2).toNat b.point 8 11 := by
    have chars : b.text.toList = "a.b aab a.b".toList := by decide +kernel
    have stop : boundOffset b false .nil = 11 := by decide +kernel
    rw [chars, stop]
    have first : Earliest "a.b".toList "a.b aab a.b".toList 0 0 := by
      refine ⟨Nat.le_refl 0, ?_, fun c _ before => by omega⟩
      unfold Occurs
      decide +kernel
    have second : Earliest "a.b".toList "a.b aab a.b".toList 3 8 := by
      have absent : ∀ c < 8, 3 ≤ c → ¬"a.b".toList <+: "a.b aab a.b".toList.drop c := by
        decide +kernel
      refine ⟨by decide, ?_, fun c begun before => absent c before begun⟩
      unfold Occurs
      decide +kernel
    exact .more (.forward first (by decide +kernel)) (.one (.forward second (by decide +kernel)))
  have found := literal_search .top strict taken
  exact ⟨strict, taken, editing, by decide, by decide, .inl rfl, ahead, isIndex, occurrences,
    found.1 b false .nil 2 0 editing (by decide) (by decide) (.inl rfl) ahead,
    found.2 "aab a.b" (.int 1) isIndex⟩

/-- There is a text before the point, but the search for it crashes on the least integer as its bound,
which is in front of the whole text. -/
theorem not_literal_search :
    let s := sessionOf "ab" 2
    let b := bufferOf "ab" 2
    let least := Value.int Int64.minValue
    s.Editing b ∧ boundOffset b true least ≤ b.point ∧
      Occurrences "a".toList b.text.toList (boundOffset b true least) true 1 b.point 0 0 ∧
      callPrimitive .top (searchName true true) [.str 0 "a", least, .t, .int 1] s = .crashed s := by
  intro s b least
  have editing : s.Editing b := editing_sessionOf "ab" 2
  have chars : b.text.toList = "ab".toList := by decide +kernel
  have start : boundOffset b true least = 0 := by decide +kernel
  have point : b.point = 2 := by decide +kernel
  rw [chars, start, point]
  refine ⟨editing, Nat.zero_le 2, .one (.backward ⟨by decide, ?_, ?_⟩ (Nat.le_refl 0)), ?_⟩
  · unfold Occurs
    decide +kernel
  · intro c after before
    obtain rfl : c = 1 := by
      replace before : c + 1 ≤ 2 := before
      omega
    unfold Occurs
    decide +kernel
  · obtain ⟨r, compiled, -⟩ : s.host.engine.TakesLiteral "a".toList :=
      takesLiteral_automaton (by decide)
    rw [← Engine.ofPattern_quote] at compiled
    have crashes : searchBound b (given? [.str 0 "a", least, .t, .int 1] 1) true s = .crashed s :=
      rfl
    rw [callPrimitive_search .top _ _ _ _ (by simp), if_pos rfl,
      searchBuffer_eq editing (searchPattern_of_ok compiled) rfl (by decide)]
    exact bind_of_crashed _ crashes

end Primitives

end EditorLisp
