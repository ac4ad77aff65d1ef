import EditorLisp.Interpreter
import EditorLisp.Proofs.Evaluation.Call
import EditorLisp.Proofs.Regexp.Automaton.Lawful

/-!
# What a search in a buffer reports

A search in a buffer looks at part of its text only: forward at the text up to the bound,
backward at the text up to the point.  A match that it reports is one of that part.  It is
one of the whole text as well, so that `looking-at` finds it at its start, unless the pattern
looks behind the end of the part: a line ends, a word ends and the text itself ends where it
is cut off.
-/

namespace EditorLisp

open Eval Primitives

/-! ## The current buffer -/

/-- A session with other match data. -/
def Session.recording (s : Session) (m : Option MatchData) : Session := { s with matchData := m }

/-- A session with a change in one of its buffers. -/
def Session.changing (s : Session) (id : Nat) (f : Buffer → Buffer) : Session :=
  { s with workspace := s.workspace.modifyBuffer id f }

/-- A session in order in which a buffer is current. -/
structure Session.Editing (s : Session) (b : Buffer) : Prop where
  wellFormed : s.workspace.WellFormed
  current?_eq : s.workspace.current? = some b

namespace Session.Editing

variable {s : Session} {b : Buffer}

theorem current_eq (editing : s.Editing b) :
    s.workspace.current = (b.id, s.workspace) ∧ s.workspace.buffer? b.id = some b := by
  obtain ⟨b', shown, same, there⟩ := Workspace.current?_of_wellFormed editing.wellFormed
  rw [editing.current?_eq] at shown
  cases shown
  exact ⟨same, there⟩

theorem point_le (editing : s.Editing b) : b.point ≤ b.size :=
  editing.wellFormed.point_le editing.current_eq.2

theorem point_le_length (editing : s.Editing b) : b.point ≤ b.text.toList.length := by
  rw [GapText.length_toList]
  exact editing.point_le

theorem currentId_eq (editing : s.Editing b) : currentId s = .ok b.id s := by
  show Outcome.ok s.workspace.current.1 { s with workspace := s.workspace.current.2 } = _
  rw [editing.current_eq.1]

theorem currentBuffer_eq (editing : s.Editing b) : currentBuffer s = .ok b s := by
  unfold currentBuffer
  rw [bind_of_ok _ editing.currentId_eq]
  show Outcome.ok ((s.workspace.buffer? b.id).getD { id := b.id, name := scratchName }) s = _
  rw [editing.current_eq.2]
  rfl

/-- The session after the current buffer has been changed. -/
theorem modifyCurrent_eq (editing : s.Editing b) (f : Buffer → Buffer) :
    modifyCurrent f s = .ok () (s.changing b.id f) := by
  unfold modifyCurrent
  rw [bind_of_ok _ editing.currentId_eq]
  rfl

/-- What is recorded of a match is no part of the workspace. -/
theorem recording (editing : s.Editing b) (m : Option MatchData) : (s.recording m).Editing b :=
  ⟨editing.wellFormed, editing.current?_eq⟩

/-- After an edit the current buffer is the edited one. -/
theorem changing (editing : s.Editing b) (f : Buffer → Buffer) [edits : Buffer.EditedBy f] :
    (s.changing b.id f).Editing (f b) where
  wellFormed := Workspace.wellFormed_modifyBuffer editing.wellFormed fun _ _ => edits.edited _
  current?_eq := by
    rw [Session.changing, Workspace.current?_modifyBuffer editing.wellFormed.toConsistent,
      editing.current?_eq, Option.map_some, if_pos rfl]

end Session.Editing

/-! ## One search -/

namespace Primitives

open Regexp Text

variable {r : Regex} {isMatch : Matching} {text : List Char} {spans : Spans}
  {bound pos tries : Nat} {backward : Bool}

/-- Going back from a position, one finds the match that starts last. -/
theorem findBackward_eq_some (finds : r.Finds isMatch) (room : bound + tries = pos + 1)
    (inside : pos ≤ text.length) (found : findBackward r text tries pos = some spans) :
    ∃ a stop, spans.group? 0 = some (a, stop) ∧ bound ≤ a ∧ a ≤ pos ∧ stop ≤ text.length ∧
      isMatch text a stop ∧ ∀ b stop', a < b → b ≤ pos → ¬isMatch text b stop' := by
  induction tries generalizing pos with
  | zero => cases found
  | succ tries ih =>
      rw [findBackward] at found
      split at found
      next c here =>
          cases found
          obtain ⟨same, isMatch⟩ := finds.matchAt?_eq_some inside here
          have group : c.spans.group? 0 = some (pos, c.whole.span.2) := by
            rw [c.group?_spans, ← same]
          refine ⟨pos, _, group, by omega, Nat.le_refl pos, c.whole.span_le, isMatch, ?_⟩
          intro b _ after before
          omega
      next nothing =>
          have none := finds.matchAt?_eq_none inside nothing
          cases tries with
          | zero => cases found
          | succ tries =>
              obtain ⟨a, stop, group, above, below, ends, isMatch, last⟩ :=
                ih (by omega) (by omega) found
              refine ⟨a, stop, group, above, by omega, ends, isMatch, ?_⟩
              intro b stop' after before
              rcases Nat.lt_or_eq_of_le before with earlier | rfl
              · exact last b stop' after (by omega)
              · exact none stop'

theorem findBackward_eq_none (finds : r.Finds isMatch) (room : bound + tries = pos + 1)
    (inside : pos ≤ text.length) (nothing : findBackward r text tries pos = none) :
    ∀ a stop, bound ≤ a → a ≤ pos → ¬isMatch text a stop := by
  induction tries generalizing pos with
  | zero =>
      intro a stop above below
      omega
  | succ tries ih =>
      rw [findBackward] at nothing
      split at nothing
      next => cases nothing
      next here =>
          intro a stop above below
          rcases Nat.lt_or_eq_of_le below with earlier | rfl
          · exact ih (by omega) (by omega) nothing a stop above (by omega)
          · exact finds.matchAt?_eq_none inside here stop

/-- Where the text ends for a search. -/
def cutOff (bound : Nat) (backward : Bool) (pos : Nat) : Nat := if backward then pos else bound

/-- The bound of a search lies in the text, and on the right side of where it starts. -/
structure Ahead (text : List Char) (bound : Nat) (backward : Bool) (pos : Nat) : Prop where
  pos_le : pos ≤ text.length
  bound_le : bound ≤ text.length
  ordered : if backward then bound ≤ pos else pos ≤ bound

/-- A search reports the match nearest to where it starts, of those in the text up to where that
ends for it. -/
theorem searchOnce_eq_some (finds : r.Finds isMatch) (ahead : Ahead text bound backward pos)
    (found : searchOnce r text bound backward pos = some spans) :
    ∃ a stop, spans.group? 0 = some (a, stop) ∧ a ≤ cutOff bound backward pos ∧
      stop ≤ cutOff bound backward pos ∧ isMatch (text.take (cutOff bound backward pos)) a stop ∧
        if backward then bound ≤ a ∧ ∀ b stop', a < b → b ≤ pos → ¬isMatch (text.take pos) b stop'
        else pos ≤ a ∧ ∀ b stop', pos ≤ b → b < a → ¬isMatch (text.take bound) b stop' := by
  obtain ⟨within, boundWithin, ordered⟩ := ahead
  cases backward with
  | true =>
      replace ordered : bound ≤ pos := ordered
      have room : bound + (pos - bound + 1) = pos + 1 := by omega
      have size := List.length_take_of_le within
      obtain ⟨a, stop, group, above, below, ends, isMatch, last⟩ :=
        findBackward_eq_some finds room (Nat.le_of_eq size.symm) found
      exact ⟨a, stop, group, below, size ▸ ends, isMatch, above, last⟩
  | false =>
      replace ordered : pos ≤ bound := ordered
      have size := List.length_take_of_le boundWithin
      obtain ⟨c, captured, rfl⟩ := Option.map_eq_some_iff.mp found
      obtain ⟨isMatch, above, first⟩ := finds.found _ pos c (by rwa [size]) captured
      have ends : c.whole.span.2 ≤ bound := Nat.le_trans c.whole.span_le (Nat.le_of_eq size)
      exact ⟨_, _, c.group?_spans, Nat.le_trans c.whole.span_ordered ends, ends, isMatch, above,
        first⟩

/-- A search that finds nothing passes by no match. -/
theorem searchOnce_eq_none (finds : r.Finds isMatch) (ahead : Ahead text bound backward pos)
    (nothing : searchOnce r text bound backward pos = none) :
    if backward then ∀ a stop, bound ≤ a → a ≤ pos → ¬isMatch (text.take pos) a stop
    else ∀ a stop, pos ≤ a → a ≤ bound → ¬isMatch (text.take bound) a stop := by
  obtain ⟨within, boundWithin, ordered⟩ := ahead
  cases backward with
  | true =>
      replace ordered : bound ≤ pos := ordered
      exact findBackward_eq_none finds (by omega)
        (Nat.le_of_eq (List.length_take_of_le within).symm) nothing
  | false =>
      replace ordered : pos ≤ bound := ordered
      have size := List.length_take_of_le boundWithin
      have none := finds.missed _ pos (by rwa [size]) (Option.map_eq_none_iff.mp nothing)
      intro a stop above below
      exact none a stop above (by rwa [size])

/-- What a search reports is a match of the whole text, if no condition of the pattern holds only
because the text is cut off. -/
theorem matches_of_searchOnce (finds : r.Finds isMatch) {looks : List Look}
    (sees : Sees looks isMatch) (ahead : Ahead text bound backward pos)
    (behind : let cut := cutOff bound backward pos;
      ∀ l ∈ looks, l.holdsAt (text.take cut) cut = true → l.holdsAt text cut = true)
    (found : searchOnce r text bound backward pos = some spans) :
    ∃ a stop, spans.group? 0 = some (a, stop) ∧ a ≤ text.length ∧ isMatch text a stop := by
  obtain ⟨a, stop, group, inside, ends, isMatch, -⟩ := searchOnce_eq_some finds ahead found
  have cut : cutOff bound backward pos ≤ text.length := by
    cases backward with
    | true => exact ahead.pos_le
    | false => exact ahead.bound_le
  exact ⟨a, stop, group, Nat.le_trans inside cut, sees.of_take behind ends isMatch⟩

/-! ## A search in the current buffer -/

/-- The bound that a search is given, as an offset: the end of the text if it is given none. -/
def searchBound (b : Buffer) (limit : Option Value) (backward : Bool) : Eval Nat :=
  match limit with
  | none => pure (if backward then 0 else b.size)
  | some v => do pure (b.clamp (← below (← integer v)).toInt.toNat)

/-- What a search does after it has found something or nothing. -/
def conclude (source : String) (noError : Value) (id : Nat) (backward : Bool) (bound : Nat) :
    Option Spans → Eval Value
  | some spans => do
    setMatchData (some ⟨recorded spans 1, .buffer id⟩)
    let target := if backward then spans.whole.1 else spans.whole.2
    modifyCurrent (·.goto target)
    return position target
  | none => do
    setMatchData none
    match noError with
    | .nil => signal "search-failed" [← Eval.text source]
    | .t => return .nil
    | _ =>
      modifyCurrent (·.goto bound)
      return .nil

variable {s t : Session} {b : Buffer} {source : String} {args : List Value} {count : Int64}

/-- A search from the point, once its pattern and its count are known. -/
theorem searchBuffer_eq (editing : s.Editing b) (compiled : searchPattern source s = .ok r s)
    (counted : countArg args 3 s = .ok count s) (positive : 0 < count.toInt) :
    searchBuffer source args backward s =
      (searchBound b (given? args 1) backward >>= fun bound =>
        if (if backward then b.point < bound else bound < b.point) then
          error "Invalid search bound (wrong side of point)"
        else conclude source (arg args 2) b.id backward bound
          (searchTimes r b.text.toList bound backward count.toInt.toNat b.point none)) s := by
  have onward : (backward != decide (count.toInt < 0)) = backward := by
    rw [decide_eq_false (by omega)]
    exact Bool.xor_false backward
  have times : max count.toInt.natAbs 1 = count.toInt.toNat := by omega
  unfold searchBuffer
  rw [bind_of_ok _ compiled, bind_of_ok _ editing.currentId_eq, bind_of_ok _ counted]
  dsimp only
  rw [bind_of_ok _ editing.currentBuffer_eq, onward, times]
  cases given? args 1 with
  | none => rfl
  | some v =>
      simp only [searchBound, bind_assoc, pure_bind]
      rfl

theorem searchTimes_succ (n : Nat) (last : Option Spans) :
    searchTimes r text bound backward (n + 1) pos last =
      match searchOnce r text bound backward pos with
      | none => none
      | some spans =>
        let (start, stop) := spans.whole
        let next :=
          if backward then start
          else if start = stop ∧ stop < bound then stop + 1
          else stop
        if next = pos then some spans
        else searchTimes r text bound backward n next (some spans) := rfl

theorem searchTimes_one (last : Option Spans) :
    searchTimes r text bound backward 1 pos last = searchOnce r text bound backward pos := by
  rw [searchTimes_succ]
  cases searchOnce r text bound backward pos with
  | none => rfl
  | some spans => exact ite_self _

/-- A session after a search that has found something in a buffer. -/
def searched (s : Session) (b : Buffer) (spans : Spans) (target : Nat) : Session :=
  (s.recording (some ⟨recorded spans 1, .buffer b.id⟩)).changing b.id (·.goto target)

theorem editing_searched (editing : s.Editing b) (spans : Spans) (target : Nat) :
    (searched s b spans target).Editing (b.goto target) :=
  (editing.recording _).changing (·.goto target)

theorem conclude_some (editing : s.Editing b) (source : String) (noError : Value) (bound : Nat)
    (backward : Bool) :
    let target := if backward then spans.whole.1 else spans.whole.2
    conclude source noError b.id backward bound (some spans) s =
      .ok (position target) (searched s b spans target) := by
  intro target
  unfold conclude
  refine (bind_of_ok _ rfl).trans ?_
  exact bind_of_ok _ ((editing.recording _).modifyCurrent_eq _)

/-! ## Patterns -/

/-- Whether searches ignore case. -/
def folds (s : Session) : Bool :=
  (s.valueIn? "case-fold-search" Store.rootFrame).any Value.isTrue

theorem pattern_of_ok {fold : Bool} (compiled : s.host.engine.ofPattern source fold = .ok r) :
    pattern source fold s = .ok r s := by
  refine (bind_of_ok _ rfl).trans ?_
  rw [compiled]
  rfl

theorem searchPattern_of_ok (compiled : s.host.engine.ofPattern source (folds s) = .ok r) :
    searchPattern source s = .ok r s :=
  pattern_of_ok compiled

/-- A pattern that is gone on with is valid. -/
theorem pattern_ok {fold : Bool} (compiled : pattern source fold s = .ok r t) :
    t = s ∧ s.host.engine.ofPattern source fold = .ok r := by
  obtain ⟨_, s', asked, compiled⟩ := ok_of_bind compiled
  cases asked
  cases parsed : s.host.engine.ofPattern source fold with
  | ok r' =>
      rw [parsed] at compiled
      cases compiled
      exact ⟨rfl, rfl⟩
  | error message =>
      rw [parsed] at compiled
      cases compiled

theorem searchPattern_ok (compiled : searchPattern source s = .ok r t) :
    t = s ∧ s.host.engine.ofPattern source (folds s) = .ok r :=
  pattern_ok compiled

/-- Where the point is does not matter for variables. -/
theorem folds_goto (editing : s.Editing b) (pos : Nat) :
    folds (s.changing b.id (·.goto pos)) = folds s := by
  have moved := (editing.changing (·.goto pos)).current?_eq
  unfold folds Session.valueIn? Session.outerValue?
  rw [moved, editing.current?_eq]
  rfl

/-! ## Bounds -/

/-- The offset that a bound stands for: a position counts from one and is brought into the text,
and without a bound it is the end of the text. -/
def boundOffset (b : Buffer) (backward : Bool) : Value → Nat
  | .int n => b.clamp (n.toInt - 1).toNat
  | _ => if backward then 0 else b.size

theorem boundOffset_le (b : Buffer) (backward : Bool) (limit : Value) :
    boundOffset b backward limit ≤ b.size := by
  have whole : (if backward then 0 else b.size) ≤ b.size := by
    cases backward with
    | true => exact Nat.zero_le _
    | false => exact Nat.le_refl _
  cases limit with
  | int n => exact Nat.min_le_right ..
  | _ => exact whole

/-- Any integer but the least has one before it. -/
theorem below_eq {n : Int64} (greater : Int64.minValue < n) (s : Session) :
    ∃ m, below n s = .ok m s ∧ m.toInt = n.toInt - 1 := by
  have least : Int64.minValue.toInt < n.toInt := Int64.lt_iff_toInt_lt.mp greater
  have most := n.toInt_le
  have one : Int64.toInt 1 = 1 := rfl
  refine ⟨Int64.ofInt (n.toInt - 1), ?_, ?_⟩
  · unfold below Number.sub? Number.fixed?
    rw [one, if_pos (by omega)]
    rfl
  · exact Int64.toInt_ofInt_of_le (Int.le_sub_one_of_lt least)
      (Int.lt_of_le_of_lt (Int.sub_le_self _ (by decide)) (Int.lt_of_le_of_lt most (by decide)))

theorem below_ok {n m : Int64} (found : below n s = .ok m t) : t = s ∧ m.toInt = n.toInt - 1 := by
  have greater : Int64.minValue < n := by
    rw [Int64.lt_iff_toInt_lt]
    by_contra least
    have one : Int64.toInt 1 = 1 := rfl
    unfold below Number.sub? Number.fixed? at found
    rw [one, if_neg (by omega)] at found
    cases found
  obtain ⟨m', counted, value⟩ := below_eq greater s
  rw [counted] at found
  cases found
  exact ⟨rfl, value⟩

/-- A search that goes on with its bound was given an integer or nothing. -/
theorem searchBound_ok {limit v : Value} {rest : List Value}
    (found : searchBound b (given? (v :: limit :: rest) 1) backward s = .ok bound t) :
    t = s ∧ bound = boundOffset b backward limit := by
  cases limit with
  | nil =>
      cases found
      exact ⟨rfl, rfl⟩
  | int n =>
      change (below n >>= fun m => pure (b.clamp m.toInt.toNat)) s = _ at found
      obtain ⟨m, s', isBelow, clamped⟩ := ok_of_bind found
      obtain ⟨rfl, value⟩ := below_ok isBelow
      cases clamped
      exact ⟨rfl, congrArg (fun i => b.clamp (Int.toNat i)) value⟩
  | _ => cases found

/-! ## Searches by name -/

/-- The name of the primitive that searches for a text or a pattern. -/
def searchName (literal backward : Bool) : String :=
  match literal, backward with
  | false, false => "re-search-forward"
  | false, true => "re-search-backward"
  | true, false => "search-forward"
  | true, true => "search-backward"

theorem callPrimitive_searchName (I : Interp) (literal backward : Bool) :
    callPrimitive I (searchName literal backward) =
      search (searchName literal backward) literal backward I := by
  cases literal <;> cases backward
  all_goals exact callPrimitive_of_searches I rfl

/-- A search by name is one in the current buffer, for the text quoted or for the pattern. -/
theorem callPrimitive_search (I : Interp) (literal backward : Bool) (handle : Nat) (source : String)
    {rest : List Value} (few : rest.length ≤ 3) (s : Session) :
    callPrimitive I (searchName literal backward) (.str handle source :: rest) s =
      searchBuffer (if literal then Regexp.quote source else source) (.str handle source :: rest)
        backward s := by
  have checked : between (searchName literal backward) (.str handle source :: rest) 1 4 s =
      .ok () s := by
    unfold between
    rw [if_pos ⟨Nat.succ_le_succ (Nat.zero_le _), Nat.succ_le_succ few⟩]
    rfl
  rw [callPrimitive_searchName]
  unfold search
  rw [bind_of_ok _ checked]
  rfl

variable {handle : Nat} {limit value : Value}

/-- A search for a pattern that succeeds has found the pattern once. -/
theorem searchOnce_of_search (I : Interp) (editing : s.Editing b)
    (found : callPrimitive I (searchName false backward) [.str handle source, limit, .t] s =
      .ok value t)
    (succeeded : value.isTrue = true) :
    ∃ r spans, let bound := boundOffset b backward limit;
      s.host.engine.ofPattern source (folds s) = .ok r ∧ Ahead b.text.toList bound backward b.point ∧
        searchOnce r b.text.toList bound backward b.point = some spans ∧
          t = searched s b spans (if backward then spans.whole.1 else spans.whole.2) := by
  rw [callPrimitive_search I _ _ _ _ (by simp)] at found
  change searchBuffer source [.str handle source, limit, .t] backward s = .ok value t at found
  have compiled : ∃ r, searchPattern source s = .ok r s := by
    obtain ⟨r, s', compiled, -⟩ := ok_of_bind (m := searchPattern source) found
    obtain ⟨rfl, -⟩ := searchPattern_ok compiled
    exact ⟨r, compiled⟩
  obtain ⟨r, compiled⟩ := compiled
  have once : countArg [.str handle source, limit, .t] 3 s = .ok 1 s := rfl
  rw [searchBuffer_eq editing compiled once (by decide)] at found
  obtain ⟨bound, s', bounded, ended⟩ := ok_of_bind found
  clear found
  obtain ⟨rfl, rfl⟩ := searchBound_ok bounded
  have within := boundOffset_le b backward limit
  generalize boundOffset b backward limit = bound at ended within
  by_cases wrongSide : if backward then b.point < bound else bound < b.point
  · rw [if_pos wrongSide] at ended
    cases ended
  · rw [if_neg wrongSide] at ended
    change conclude source .t b.id backward bound
      (searchTimes r b.text.toList bound backward 1 b.point none) _ = _ at ended
    rw [searchTimes_one] at ended
    have ahead : Ahead b.text.toList bound backward b.point := by
      refine ⟨editing.point_le_length, within.trans_eq (GapText.length_toList _).symm, ?_⟩
      cases backward with
      | true => exact Nat.le_of_not_lt wrongSide
      | false => exact Nat.le_of_not_lt wrongSide
    cases once : searchOnce r b.text.toList bound backward b.point with
    | none =>
        rw [once] at ended
        cases ended
        cases succeeded
    | some spans =>
        rw [once, conclude_some editing] at ended
        cases ended
        exact ⟨r, spans, (searchPattern_ok compiled).2, ahead, once, rfl⟩

/-! ## Looking at what was found -/

/-- A group that took part is recorded under its positions. -/
theorem group?_recorded {n a stop : Nat} (group : spans.group? n = some (a, stop)) (base : Nat)
    (source : MatchSource) :
    (MatchData.mk (recorded spans base) source).group? n =
      some (((a + base : Nat) : Int), ((stop + base : Nat) : Int)) := by
  have there : spans[n]? = some (some (a, stop)) := Option.join_eq_some_iff.mp group
  unfold MatchData.group? recorded
  rw [List.getElem?_map, there]
  exact Option.filter_eq_some_iff.mpr ⟨rfl, by simp; omega⟩

theorem matchBeginning_eq (I : Interp) {m : MatchData} {a stop : Nat}
    (recorded : t.matchData = some m)
    (group : m.group? 0 = some (((a + 1 : Nat) : Int), ((stop + 1 : Nat) : Int))) :
    callPrimitive I "match-beginning" [.int 0] t = .ok (position a) t := by
  rw [callPrimitive_of_searches I rfl]
  unfold matchEnd
  refine (bind_of_ok _ rfl).trans ((bind_of_ok _ rfl).trans ((bind_of_ok _ rfl).trans ?_))
  have zero : (Int64.toInt 0).toNat = 0 := rfl
  rw [recorded, Option.bind_some, zero, group]
  exact congrArg (fun n => Outcome.ok (Value.int n) t) (Int64.ofInt_eq_ofNat ..)

/-- The point is where a pattern matches. -/
theorem lookingAt_of_matches (I : Interp) (editing : s.Editing b)
    (compiled : s.host.engine.ofPattern source (folds s) = .ok r) (finds : r.Finds isMatch)
    {stop : Nat} (here : isMatch b.text.toList b.point stop) :
    ∃ t, callPrimitive I "looking-at" [.str handle source] s = .ok .t t := by
  have found : ∃ c, r.matchAt? b.text.toList (byteOffset b.text.toList b.point) = some c := by
    cases nothing : r.matchAt? b.text.toList (byteOffset b.text.toList b.point) with
    | some c => exact ⟨c, rfl⟩
    | none => exact absurd here (finds.matchAt?_eq_none editing.point_le_length nothing stop)
  obtain ⟨c, found⟩ := found
  rw [callPrimitive_of_searches I rfl]
  refine ⟨s.recording (some ⟨recorded c.spans 1, .buffer b.id⟩), ?_⟩
  show lookingAt true (.str handle source) s = _
  unfold lookingAt
  refine (bind_of_ok _ rfl).trans ?_
  rw [bind_of_ok _ (searchPattern_of_ok compiled), bind_of_ok _ editing.currentId_eq,
    bind_of_ok _ editing.currentBuffer_eq]
  dsimp only
  rw [found]
  rfl

theorem callPrimitive_gotoChar (I : Interp) : callPrimitive I "goto-char" = gotoChar I :=
  callPrimitive_of_motion I rfl

/-- A position of a text that machine words can count stands for its offset. -/
theorem gotoChar_eq (I : Interp) (editing : s.Editing b) (small : b.size < Int64.maxValue.toInt) {pos : Nat}
    (inside : pos ≤ b.size) :
    callPrimitive I "goto-char" [position pos] s =
      .ok (position pos) (s.changing b.id (·.goto pos)) := by
  have least : Int64.minValue.toInt = -2 ^ 63 := rfl
  have greatest : Int64.maxValue.toInt = 2 ^ 63 - 1 := rfl
  have value : (Int64.ofNat (pos + 1)).toInt = pos + 1 := Int64.toInt_ofNat_of_lt (by omega)
  have greater : Int64.minValue < Int64.ofNat (pos + 1) := by
    rw [Int64.lt_iff_toInt_lt, value]
    omega
  obtain ⟨m, counted, before⟩ := below_eq greater s
  have offset : offsetIn b (position pos) s = .ok pos s := by
    show (below (Int64.ofNat (pos + 1)) >>= fun n => pure (b.clamp n.toInt.toNat)) s = _
    rw [bind_of_ok _ counted, before, value, Int.add_sub_cancel, Int.toNat_natCast]
    exact congrArg (fun n => Outcome.ok n s) (Nat.min_eq_left inside)
  rw [callPrimitive_gotoChar]
  show (currentBuffer >>= fun b => offsetIn b (position pos) >>= fun offset =>
    modifyCurrent (·.goto offset) >>= fun _ => pure (position offset)) s = _
  rw [bind_of_ok _ editing.currentBuffer_eq, bind_of_ok _ offset,
    bind_of_ok _ (editing.modifyCurrent_eq _)]
  rfl

/-- If a search for a pattern from the point succeeds, the pattern matches where the match data
say that the match starts, in the same text with the point there; provided that no condition of
the pattern holds at the end of what was searched only because the text seems to end there.
(A text of fewer characters than machine words can count is one where `goto-char` goes to any
position.) -/
theorem lookingAt_of_search (I : Interp) (editing : s.Editing b) {looks : List Look}
    (finds : ∀ r, s.host.engine.ofPattern source (folds s) = .ok r → r.Finds isMatch)
    (sees : Sees looks isMatch)
    (behind : let chars := b.text.toList
      let cut := cutOff (boundOffset b backward limit) backward b.point
      ∀ l ∈ looks, l.holdsAt (chars.take cut) cut = true → l.holdsAt chars cut = true)
    (found : callPrimitive I (searchName false backward) [.str handle source, limit, .t] s =
      .ok value t)
    (succeeded : value.isTrue = true) :
    ∃ start ≤ b.size, callPrimitive I "match-beginning" [.int 0] t = .ok (position start) t ∧
      let there := t.changing b.id (·.goto start)
      (b.size < Int64.maxValue.toInt →
        callPrimitive I "goto-char" [position start] t = .ok (position start) there) ∧
      there.Editing (b.goto start) ∧
      ∃ u, callPrimitive I "looking-at" [.str handle source] there = .ok .t u := by
  obtain ⟨r, spans, compiled, ahead, once, rfl⟩ := searchOnce_of_search I editing found succeeded
  obtain ⟨start, stop, group, inside, here⟩ :=
    matches_of_searchOnce (finds r compiled) sees ahead behind once
  rw [GapText.length_toList] at inside
  generalize (if backward then spans.whole.1 else spans.whole.2) = target
  have after := editing_searched editing spans target
  have moved : ((searched s b spans target).changing b.id (·.goto start)).Editing (b.goto start) :=
    after.changing (·.goto start)
  refine ⟨start, inside, ?_, fun small => gotoChar_eq I after small inside, moved, ?_⟩
  · exact matchBeginning_eq I rfl (group?_recorded group 1 _)
  · have sameFold : folds ((searched s b spans target).changing b.id (·.goto start)) = folds s := by
      have first := folds_goto (editing.recording (some ⟨recorded spans 1, .buffer b.id⟩)) target
      exact (folds_goto after start).trans first
    have valid := finds r compiled
    rw [← sameFold] at compiled
    have here : isMatch (b.goto start).text.toList (b.goto start).point stop := by
      have clamped : b.clamp start = start := Nat.min_eq_left inside
      show isMatch b.text.toList (b.clamp start) stop
      rwa [clamped]
    exact lookingAt_of_matches I moved compiled valid here

/-- Whether a step returns a true value. -/
def returnsTrue (o : Outcome Value) : Bool :=
  match o with
  | .ok value _ => value.isTrue
  | _ => false

theorem exists_of_returnsTrue {o : Outcome Value} (succeeds : returnsTrue o = true) :
    ∃ value t, o = .ok value t ∧ value.isTrue = true := by
  cases o with
  | ok value t => exact ⟨value, t, rfl, succeeds⟩
  | _ => cases succeeds

/-- A new buffer with a text and the point somewhere in it. -/
def bufferOf (text : String) (point : Nat) : Buffer :=
  (({ id := 1, name := scratchName } : Buffer).insert text).goto point

/-- A session in which it is the only one. -/
def sessionOf (text : String) (point : Nat) : Session :=
  Session.changing { workspace := .initial } 1 fun b => (b.insert text).goto point

theorem editing_sessionOf (text : String) (point : Nat) :
    (sessionOf text point).Editing (bufferOf text point) := by
  have new : Session.Editing { workspace := .initial } { id := 1, name := scratchName } :=
    ⟨Workspace.wellFormed_initial, rfl⟩
  exact new.changing fun b => (b.insert text).goto point

/-- A line that starts in what is searched starts there in the whole text. -/
theorem lookingAt_of_search_lineStart :
    let s := sessionOf "a\nb c" 0
    let b := bufferOf "a\nb c" 0
    let isMatch := matching "(?m)^b"
    let looks := [Look.lineStart]
    s.Editing b ∧
      (∀ r, s.host.engine.ofPattern "^b" (folds s) = .ok r → r.Finds isMatch) ∧
      Sees looks isMatch ∧
      (let chars := b.text.toList
        let cut := cutOff (boundOffset b false (.int 4)) false b.point
        ∀ l ∈ looks, l.holdsAt (chars.take cut) cut = true → l.holdsAt chars cut = true) ∧
      ∃ value t,
        callPrimitive .top (searchName false false) [.str 0 "^b", .int 4, .t] s = .ok value t ∧
        value.isTrue = true ∧
        ∃ start ≤ b.size, callPrimitive .top "match-beginning" [.int 0] t = .ok (position start) t ∧
          let there := t.changing b.id (·.goto start)
          (b.size < Int64.maxValue.toInt →
            callPrimitive .top "goto-char" [position start] t = .ok (position start) there) ∧
          there.Editing (b.goto start) ∧
          ∃ u, callPrimitive .top "looking-at" [.str 0 "^b"] there = .ok .t u := by
  intro s b isMatch looks
  have finds : ∀ r, s.host.engine.ofPattern "^b" (folds s) = .ok r → r.Finds isMatch := by
    intro r compiled
    have strict : folds s = false := by decide +kernel
    have written : extended automaton.escape "^b" = .ok "(?m)^b" := by decide +kernel
    rw [strict] at compiled
    exact finds_matching ((Engine.ofPattern_of_extended written).symm.trans compiled)
  have sees : Sees looks isMatch := by
    refine sees_matching fun p made => ?_
    have all : (Program.ofSource "(?m)^b").toOption.all (·.looks ⊆ looks) = true := by
      decide +kernel
    rw [made] at all
    exact of_decide_eq_true all
  have searches : returnsTrue
      (search (searchName false false) false false .top [.str 0 "^b", .int 4, .t] s) = true := by
    decide +kernel
  obtain ⟨value, t, found, succeeded⟩ := exists_of_returnsTrue searches
  rw [← callPrimitive_searchName] at found
  have editing := editing_sessionOf "a\nb c" 0
  have behind : let chars := b.text.toList
      let cut := cutOff (boundOffset b false (.int 4)) false b.point
      ∀ l ∈ looks, l.holdsAt (chars.take cut) cut = true → l.holdsAt chars cut = true := by
    decide +kernel
  exact ⟨editing, finds, sees, behind, value, t, found, succeeded,
    lookingAt_of_search .top editing finds sees behind found succeeded⟩

/-- Search for a pattern, go to where the match starts and look whether the pattern matches
there; the answers are whether it was found and whether it matches. -/
def searchAndLook (backward : Bool) (source : String) (limit : Value) : Eval (Bool × Bool) := do
  let found ← callPrimitive .top (searchName false backward) [.str 0 source, limit, .t]
  let start ← callPrimitive .top "match-beginning" [.int 0]
  let _ ← callPrimitive .top "goto-char" [start]
  let looking ← callPrimitive .top "looking-at" [.str 0 source]
  return (found.isTrue, looking.isTrue)

/-- A step's answer. -/
def answer? {α : Type} : Outcome α → Option α
  | .ok a _ => some a
  | _ => none

/-- A line ends at the bound of a search and a word at the point, although the text goes on. -/
theorem not_lookingAt_of_search :
    answer? (searchAndLook false "a$" (.int 2) (sessionOf "ab" 0)) = some (true, false) ∧
      answer? (searchAndLook true "foo\\>" .nil (sessionOf "foobar" 3)) = some (true, false) := by
  have byName (name : String) (q : Primitive) (found : searches.lookup name = some q) :
      callPrimitive .top name = q .top := callPrimitive_of_searches .top found
  unfold searchAndLook
  rw [callPrimitive_searchName, callPrimitive_searchName, callPrimitive_gotoChar,
    byName "match-beginning" _ rfl, byName "looking-at" _ rfl]
  decide +kernel

end Primitives

end EditorLisp
