import EditorLisp.Proofs.Primitives.Browse
import EditorLisp.Proofs.Regexp.Laws

/-!
# Match data saved and put back

Match data that a search has recorded can be saved as a list of positions and put back
after other searches.  The list leaves out groups at the end that took no part, which makes
no difference: such groups have no span, whether they are listed or not.  It does not say
where the match was, in a string or in which buffer.  That stays as the last search before
has left it, and it matters when the text of a match is asked for and no string is given.
-/

namespace EditorLisp

open Eval

/-! ## Spans as a list of positions -/

namespace MatchData

/-- A span of positions that machine words hold, or of a group that took no part. -/
def Fits (span : Int × Int) : Prop :=
  span = noSpan ∨
    (0 ≤ span.1 ∧ span.1 ≤ Int64.maxValue.toInt) ∧ 0 ≤ span.2 ∧ span.2 ≤ Int64.maxValue.toInt

/-- The positions of a span in a list. -/
def ends (span : Int × Int) : List (Option Int) :=
  if span.1 < 0 then [none, none] else [some span.1, some span.2]

theorem flat_eq (m : MatchData) :
    m.flat = ((m.groups.flatMap ends).reverse.dropWhile Option.isNone).reverse := rfl

/-- Only groups at the end that took no part are left out. -/
theorem exists_flat_eq (groups : List (Int × Int)) (fit : ∀ span ∈ groups, Fits span)
    (source : MatchSource) :
    ∃ kept missing, groups = kept ++ List.replicate missing noSpan ∧
      (MatchData.mk groups source).flat = kept.flatMap ends := by
  induction groups using List.reverseRecOn with
  | nil => exact ⟨[], 0, rfl, rfl⟩
  | append_singleton groups span ih =>
      rw [flat_eq]
      dsimp only
      rw [List.flatMap_append, List.flatMap_singleton, List.reverse_append]
      rcases fit span (by simp) with rfl | ⟨⟨positive, -⟩, -⟩
      · obtain ⟨kept, missing, same, flat⟩ := ih fun span member => fit span (by simp [member])
        refine ⟨kept, missing + 1, ?_, flat⟩
        rw [same, List.replicate_succ', List.append_assoc]
      · refine ⟨groups ++ [span], 0, (List.append_nil _).symm, ?_⟩
        have taken : ends span = [some span.1, some span.2] := if_neg (by omega)
        rw [List.flatMap_append, List.flatMap_singleton, taken, List.reverse_cons,
          List.reverse_singleton, List.singleton_append, List.cons_append,
          List.dropWhile_cons_of_neg Bool.false_ne_true]
        simp

/-- Groups that took no part have no span, whether they are listed or not. -/
theorem group?_append_replicate (kept : List (Int × Int)) (missing : Nat)
    (source source' : MatchSource) (n : Nat) :
    (MatchData.mk (kept ++ List.replicate missing noSpan) source).group? n =
      (MatchData.mk kept source').group? n := by
  unfold group?
  dsimp only
  rcases Nat.lt_or_ge n kept.length with inside | behind
  · rw [List.getElem?_append_left inside]
  · rw [List.getElem?_append_right behind, List.getElem?_eq_none behind, List.getElem?_replicate]
    split
    next => rfl
    next => rfl

end MatchData

namespace Primitives

open MatchData

/-- A position in a list, `nil` where a group took no part. -/
def entry : Option Int → Value
  | some n => .int (Int64.ofInt n)
  | none => .nil

theorem toInt_ofInt_of_fits {n : Int} (positive : 0 ≤ n) (small : n ≤ Int64.maxValue.toInt) :
    (Int64.ofInt n).toInt = n := by
  have least : Int64.minValue.toInt = -2 ^ 63 := rfl
  have greatest : Int64.maxValue.toInt = 2 ^ 63 - 1 := rfl
  exact Int64.toInt_ofInt_of_le (by omega) (by omega)

theorem matchSpans_cons {v w : Value} {rest : List Value} {start stop : Int}
    {groups : List (Int × Int)} {s : Session} (first : matchPosition v s = .ok start s)
    (second : matchPosition w s = .ok stop s) (others : matchSpans rest s = .ok groups s) :
    matchSpans (v :: w :: rest) s =
      .ok ((if start < 0 ∨ stop < 0 then noSpan else (start, stop)) :: groups) s := by
  rw [matchSpans]
  refine (bind_of_ok _ first).trans ((bind_of_ok _ second).trans ?_)
  exact bind_of_ok _ others

/-- The spans of a list of positions are read back. -/
theorem matchSpans_ends {groups : List (Int × Int)} (fit : ∀ span ∈ groups, Fits span)
    (s : Session) : matchSpans ((groups.flatMap ends).map entry) s = .ok groups s := by
  induction groups with
  | nil => rfl
  | cons span groups ih =>
      have others := ih fun other member => fit other (.tail _ member)
      rw [List.flatMap_cons, List.map_append]
      rcases fit span (.head _) with rfl | ⟨⟨positive, small⟩, positive', small'⟩
      · have nowhere : matchPosition .nil s = .ok (-1) s := rfl
        exact matchSpans_cons nowhere nowhere others
      · obtain ⟨start, stop⟩ := span
        have given (n : Int) (positive : 0 ≤ n) (small : n ≤ Int64.maxValue.toInt) :
            matchPosition (entry (some n)) s = .ok n s := by
          show Outcome.ok (Int64.ofInt n).toInt s = _
          rw [toInt_ofInt_of_fits positive small]
        have taken : ends (start, stop) = [some start, some stop] := if_neg (by omega)
        have read :=
          matchSpans_cons (given start positive small) (given stop positive' small') others
        rw [if_neg (by omega)] at read
        rw [taken]
        exact read

/-! ## What is put back -/

/-- The list of positions that `match-data` makes. -/
def positions (m : Option MatchData) : List Value := ((m.map MatchData.flat).getD []).map entry

theorem matchData_eq (I : Interp) (s : Session) :
    callPrimitive I "match-data" [] s =
      .ok (s.store.list (positions s.matchData)).1
        { s with store := (s.store.list (positions s.matchData)).2 } := by
  rw [callPrimitive_of_searches I rfl]
  rfl

/-- Match data have the same groups, wherever they come from. -/
def SameGroups (m m' : Option MatchData) : Prop :=
  ∀ n, (m.bind (·.group? n)) = m'.bind (·.group? n)

/-- Putting saved positions back gives the same groups, and leaves where the last match was as it
is. -/
theorem setMatchData_eq (I : Interp) {m : MatchData} (fit : ∀ span ∈ m.groups, Fits span)
    {saved : Value} {t : Session} (read : t.store.list? saved = some (positions (some m))) :
    ∃ m', callPrimitive I "set-match-data" [saved] t = .ok .nil (t.recording m') ∧
      SameGroups (some m) m' ∧
      ∀ put, m' = some put →
        put.source = (t.matchData.map MatchData.source).getD .string := by
  obtain ⟨groups, source⟩ := m
  obtain ⟨kept, missing, rfl, flat⟩ := exists_flat_eq groups fit source
  have fitKept : ∀ span ∈ kept, Fits span := fun span member =>
    fit span (List.mem_append_left _ member)
  have items : t.store.list? saved = some ((kept.flatMap ends).map entry) := by
    rw [read, positions, Option.map_some, flat]
    rfl
  have listed : properList saved "listp" t = .ok ((kept.flatMap ends).map entry) t := by
    unfold properList
    rw [items]
  rw [callPrimitive_of_searches I rfl]
  unfold setMatchDataForm
  cases kept with
  | nil =>
      refine ⟨none, ?_, fun n => ?_, nofun⟩
      · exact (bind_of_ok _ rfl).trans (bind_of_ok _ listed)
      · rw [Option.bind_some, group?_append_replicate [] missing source source n]
        rfl
  | cons span kept =>
      have nonempty : (((span :: kept).flatMap ends).map entry).isEmpty = false := by
        rw [List.flatMap_cons, List.map_append]
        unfold ends
        split
        next => rfl
        next => rfl
      let before := (t.matchData.map MatchData.source).getD .string
      refine ⟨some ⟨span :: kept, before⟩, ?_, fun n => ?_, fun put same => ?_⟩
      · refine (bind_of_ok _ rfl).trans ((bind_of_ok _ listed).trans ?_)
        dsimp only
        rw [nonempty]
        exact bind_of_ok _ (matchSpans_ends fitKept t)
      · exact group?_append_replicate (span :: kept) missing source before n
      · cases same
        rfl

/-! ## What is recorded -/

/-- What a search has recorded, if it has found something. -/
def Recorded (value : Value) (s : Session) : Prop :=
  value.isTrue = true → ∃ m, s.matchData = some m ∧ ∀ span ∈ m.groups, Fits span

/-- Texts of fewer characters than machine words can count, in buffers and as arguments. -/
structure ShortTexts (args : List Value) (s : Session) : Prop where
  buffers : ∀ id b, s.workspace.buffer? id = some b → b.size < Int64.maxValue.toInt
  strings : ∀ handle text, .str handle text ∈ args → text.length < Int64.maxValue.toInt

variable {I : Interp} {name source : String} {args : List Value} {value : Value} {s t : Session}
  {b : Buffer} {backward : Bool}

theorem fits_recorded {spans : Regexp.Spans} {limit base : Nat} (inside : spans.Inside limit)
    (small : limit + base ≤ Int64.maxValue.toInt) : ∀ span ∈ recorded spans base, Fits span := by
  intro span member
  obtain ⟨span, listed, rfl⟩ := List.mem_map.mp member
  cases span with
  | none => exact .inl rfl
  | some span =>
      obtain ⟨start, stop⟩ := span
      obtain ⟨startInside, stopInside⟩ := inside start stop listed
      right
      dsimp only
      omega

section Inside

variable {r : Regexp.Regex} {text : List Char} {spans : Regexp.Spans}

theorem inside_findBackward {tries pos : Nat}
    (found : findBackward r text tries pos = some spans) : spans.Inside text.length := by
  induction tries generalizing pos with
  | zero => cases found
  | succ tries ih =>
      rw [findBackward] at found
      split at found
      next c _ =>
        cases found
        exact c.inside_spans
      next => exact ih found

/-- Whatever part of the text is looked at, what is found lies in the text. -/
theorem inside_searchOnce {bound pos : Nat} {backward : Bool}
    (found : searchOnce r text bound backward pos = some spans) : spans.Inside text.length := by
  have part (n : Nat) : (text.take n).length ≤ text.length := by
    rw [List.length_take]
    exact Nat.min_le_right ..
  unfold searchOnce at found
  split at found
  next => exact (inside_findBackward found).mono (part pos)
  next =>
    obtain ⟨c, -, same⟩ := Option.map_eq_some_iff.mp found
    exact same ▸ c.inside_spans.mono (part bound)

theorem inside_searchTimes {bound times pos : Nat} {backward : Bool} {last : Option Regexp.Spans}
    (before : ∀ spans ∈ last, spans.Inside text.length)
    (found : searchTimes r text bound backward times pos last = some spans) :
    spans.Inside text.length := by
  induction times generalizing pos last with
  | zero => exact before spans found
  | succ times ih =>
      rw [searchTimes] at found
      split at found
      next => cases found
      next one first =>
        have inside := inside_searchOnce first
        dsimp only at found
        generalize (if backward then one.whole.1
          else if one.whole.1 = one.whole.2 ∧ one.whole.2 < bound then one.whole.2 + 1
          else one.whole.2) = next at found
        by_cases again : next = pos
        · rw [if_pos again] at found
          cases found
          exact inside
        · rw [if_neg again] at found
          exact ih (fun spans same => Option.some.inj same ▸ inside) found

end Inside

theorem string_ok {v : Value} {text : String} (given : string v s = .ok text t) :
    t = s ∧ ∃ handle, v = .str handle text := by
  cases v with
  | str handle text' =>
      cases given
      exact ⟨rfl, handle, rfl⟩
  | _ => cases given

theorem between_ok {minimum maximum : Nat}
    (checked : between name args minimum maximum s = .ok () t) : t = s := by
  unfold between at checked
  split at checked
  next =>
    cases checked
    rfl
  next => cases checked

theorem integer_ok {v : Value} {n : Int64} (given : integer v s = .ok n t) : t = s := by
  unfold integer at given
  split at given
  next =>
    cases given
    rfl
  next => cases given

theorem integerOr_ok {default n : Int64} {v : Option Value}
    (given : integerOr default v s = .ok n t) : t = s := by
  cases v with
  | none =>
      cases given
      rfl
  | some v => exact integer_ok given

theorem resolveIndex_ok {v : Option Value} {length i : Nat}
    (given : resolveIndex v length 0 s = .ok (some i) t) : t = s ∧ i ≤ length := by
  cases v with
  | none =>
      cases given
      exact ⟨rfl, Nat.zero_le _⟩
  | some v =>
      cases v with
      | int n =>
          let i' := if n.toInt < 0 then length + n.toInt else n.toInt
          change Outcome.ok (if 0 ≤ i' ∧ i' ≤ length then some i'.toNat else none) s = _ at given
          split at given
          next inside =>
            cases given
            exact ⟨rfl, by omega⟩
          next => cases given
      | _ => cases given

theorem recorded_conclude (editing : s.Editing b) (small : b.size < Int64.maxValue.toInt)
    {noError : Value} {bound : Nat} {spans : Option Regexp.Spans}
    (inside : ∀ found ∈ spans, found.Inside b.size)
    (ended : conclude source noError b.id backward bound spans s = .ok value t) :
    Recorded value t := by
  cases spans with
  | some spans =>
      rw [conclude_some editing] at ended
      cases ended
      exact fun _ => ⟨_, rfl, fits_recorded (inside spans rfl) (by omega)⟩
  | none =>
      intro succeeded
      have nothing : value = .nil := by
        unfold conclude at ended
        obtain ⟨_, s₁, -, ended⟩ := ok_of_bind ended
        split at ended
        next =>
          obtain ⟨_, s₂, -, ended⟩ := ok_of_bind ended
          cases ended
        next =>
          cases ended
          rfl
        next =>
          obtain ⟨_, s₂, -, ended⟩ := ok_of_bind ended
          cases ended
          rfl
      rw [nothing] at succeeded
      cases succeeded

theorem recorded_searchBuffer (editing : s.Editing b) (small : b.size < Int64.maxValue.toInt)
    (found : searchBuffer source args backward s = .ok value t) : Recorded value t := by
  unfold searchBuffer at found
  obtain ⟨r, s, compiled, rest⟩ := ok_of_bind found
  clear found
  obtain ⟨rfl, -⟩ := searchPattern_ok compiled
  rw [bind_of_ok _ editing.currentId_eq] at rest
  obtain ⟨count, s, counted, found⟩ := ok_of_bind rest
  clear rest
  obtain rfl := integerOr_ok counted
  generalize (backward != decide (count.toInt < 0)) = backward at found
  dsimp only at found
  rw [bind_of_ok _ editing.currentBuffer_eq] at found
  have search (bound : Nat) (found : (
      if (if backward then b.point < bound else bound < b.point) then
        Eval.error "Invalid search bound (wrong side of point)"
      else conclude source (arg args 2) b.id backward bound
        (searchTimes r b.text.toList bound backward (max count.toInt.natAbs 1) b.point none)) s =
          .ok value t) : Recorded value t := by
    by_cases wrongSide : if backward then b.point < bound else bound < b.point
    · rw [if_pos wrongSide] at found
      cases found
    · rw [if_neg wrongSide] at found
      refine recorded_conclude editing small (fun spans same => ?_) found
      have nothingBefore : ∀ last ∈ none, Regexp.Spans.Inside b.text.toList.length last :=
        fun last listed => absurd listed (Option.not_mem_none last)
      exact (inside_searchTimes nothingBefore same).mono (Nat.le_of_eq b.text.length_toList)
  cases given : given? args 1 with
  | none =>
      rw [given] at found
      exact search _ found
  | some v =>
      rw [given] at found
      obtain ⟨n, s, counted, rest⟩ := ok_of_bind found
      clear found
      obtain rfl := integer_ok counted
      obtain ⟨m, s, before, found⟩ := ok_of_bind rest
      clear rest
      obtain ⟨rfl, -⟩ := below_ok before
      exact search _ found

theorem recorded_lookingAt (editing : s.Editing b) (small : b.size < Int64.maxValue.toInt)
    {pattern : Value} (found : lookingAt true pattern s = .ok value t) : Recorded value t := by
  unfold lookingAt at found
  obtain ⟨source, s, given, rest⟩ := ok_of_bind found
  clear found
  obtain ⟨rfl, -⟩ := string_ok given
  obtain ⟨r, s, compiled, found⟩ := ok_of_bind rest
  clear rest
  obtain ⟨rfl, -⟩ := searchPattern_ok compiled
  rw [bind_of_ok _ editing.currentId_eq, bind_of_ok _ editing.currentBuffer_eq] at found
  intro succeeded
  cases here : r.matchAt? b.text.toList (Text.byteOffset b.text.toList b.point) with
  | none =>
      rw [here] at found
      cases found
      cases succeeded
  | some c =>
      rw [here] at found
      cases found
      have inside : c.spans.Inside b.size :=
        c.inside_spans.mono (Nat.le_of_eq b.text.length_toList)
      exact ⟨_, rfl, fits_recorded inside (by omega)⟩

theorem mem_of_arg {i handle : Nat} {text : String} (given : arg args i = .str handle text) :
    .str handle text ∈ args := by
  unfold arg at given
  rw [List.getD_eq_getElem?_getD] at given
  cases there : args[i]? with
  | none =>
      rw [there] at given
      cases given
  | some v =>
      rw [there] at given
      exact given ▸ List.mem_of_getElem? there

theorem recorded_stringMatch {maximum : Nat}
    (small : ∀ handle text, .str handle text ∈ args → text.length < Int64.maxValue.toInt)
    (found : stringMatch name maximum true I args s = .ok value t) : Recorded value t := by
  unfold stringMatch at found
  obtain ⟨_, s, checked, found₁⟩ := ok_of_bind found
  obtain rfl := between_ok checked
  clear found
  obtain ⟨source, s, given, found⟩ := ok_of_bind found₁
  obtain ⟨rfl, -⟩ := string_ok given
  clear found₁
  obtain ⟨r, s, compiled, found₁⟩ := ok_of_bind found
  obtain ⟨rfl, -⟩ := searchPattern_ok compiled
  clear found
  obtain ⟨text, s, given', found⟩ := ok_of_bind found₁
  obtain ⟨rfl, handle, isText⟩ := string_ok given'
  clear found₁
  obtain ⟨index, s, resolved, found₁⟩ := ok_of_bind found
  clear found
  have short := small handle text (mem_of_arg isText)
  cases index with
  | none => cases found₁
  | some start =>
      obtain ⟨rfl, within⟩ := resolveIndex_ok resolved
      dsimp only at found₁
      obtain ⟨_, s', recording, found⟩ := ok_of_bind found₁
      clear found₁
      intro succeeded
      cases matched : r.capturesAt text.toList (Text.byteOffset text.toList start) with
      | none =>
          rw [matched] at found
          cases found
          cases succeeded
      | some c =>
          rw [matched] at found recording
          cases found
          cases recording
          have inside := c.inside_spans.mono (Nat.le_of_eq text.length_toList)
          exact ⟨_, rfl, fits_recorded inside (by omega)⟩

theorem recorded_of_recordingSearches (wf : s.workspace.WellFormed)
    (short : ShortTexts args s) (records : name ∈ recordingSearches)
    (found : callPrimitive I name args s = .ok value t) : Recorded value t := by
  obtain ⟨b, current, -, there⟩ := Workspace.current?_of_wellFormed wf
  have editing : s.Editing b := ⟨wf, current⟩
  have small := short.buffers _ _ there
  have buffer {name : String} {literal backward : Bool}
      (ended : search name literal backward I args s = .ok value t) : Recorded value t := by
    clear found
    unfold search at ended
    obtain ⟨_, s, checked, rest⟩ := ok_of_bind ended
    clear ended
    obtain rfl := between_ok checked
    obtain ⟨source, s, given, ended⟩ := ok_of_bind rest
    obtain ⟨rfl, -⟩ := string_ok given
    exact recorded_searchBuffer editing small ended
  have byName (name : String) (q : Primitive) (found : searches.lookup name = some q) :
      callPrimitive I name = q I := callPrimitive_of_searches I found
  unfold recordingSearches at records
  simp only [List.mem_cons, List.not_mem_nil, or_false] at records
  rcases records with rfl | rfl | rfl | rfl | rfl | rfl | rfl | rfl
  all_goals rw [byName _ _ rfl] at found
  all_goals try exact buffer found
  · obtain ⟨_, s, checked, looked⟩ := ok_of_bind found
    obtain rfl := between_ok checked
    exact recorded_lookingAt editing small looked
  · exact recorded_stringMatch short.strings found

/-! ## Answers -/

/-- Two answers that a program cannot tell apart: the same value, or strings with the same
text. -/
inductive SameAnswer : Outcome Value → Outcome Value → Prop where
  | value (v : Value) (s t : Session) : SameAnswer (.ok v s) (.ok v t)
  | text (out : String) (handle handle' : Nat) (s t : Session) :
      SameAnswer (.ok (.str handle out) s) (.ok (.str handle' out) t)

variable {n : Int64}

theorem natural_eq (natural : 0 ≤ n.toInt) (s : Session) :
    Eval.natural (.int n) s = .ok n.toInt.toNat s := by
  unfold Eval.natural
  dsimp only
  rw [if_pos natural]
  rfl

theorem sameAnswer_matchEnd (name : String) (side : Int × Int → Int)
    (same : SameGroups s.matchData t.matchData) (natural : 0 ≤ n.toInt) :
    SameAnswer (matchEnd name side I [.int n] s) (matchEnd name side I [.int n] t) := by
  have eq (s : Session) : matchEnd name side I [.int n] s =
      .ok (entry ((s.matchData.bind (·.group? n.toInt.toNat)).map side)) s := by
    unfold matchEnd
    refine (bind_of_ok _ rfl).trans ((bind_of_ok _ (natural_eq natural s)).trans ?_)
    refine (bind_of_ok _ rfl).trans ?_
    cases s.matchData.bind (·.group? n.toInt.toNat) with
    | none => rfl
    | some span => rfl
  rw [eq s, eq t, same n.toInt.toNat]
  exact .value ..

/-- What `match-string` returns is the text of the group. -/
theorem matchString_eq (natural : 0 ≤ n.toInt) {rest : List Value} (few : rest.length ≤ 1)
    {string : Option String} (given : string? (given? (.int n :: rest) 1) s = .ok string s) :
    matchString I (.int n :: rest) s =
      match matchedText? s n.toInt.toNat string with
      | some out => text out s
      | none => .ok .nil s := by
  have checked : between "match-string" (.int n :: rest) 1 2 s = .ok () s := by
    unfold between
    rw [if_pos ⟨Nat.succ_le_succ (Nat.zero_le _), Nat.succ_le_succ few⟩]
    rfl
  unfold matchString
  refine (bind_of_ok _ checked).trans ((bind_of_ok _ (natural_eq natural s)).trans ?_)
  refine (bind_of_ok _ given).trans ((bind_of_ok _ rfl).trans ?_)
  cases matchedText? s n.toInt.toNat string with
  | none => rfl
  | some out => rfl

theorem sameAnswer_of_matchedText? (natural : 0 ≤ n.toInt) {rest : List Value}
    (few : rest.length ≤ 1) {string : Option String}
    (given : ∀ s, string? (given? (.int n :: rest) 1) s = .ok string s)
    (same : matchedText? s n.toInt.toNat string = matchedText? t n.toInt.toNat string) :
    SameAnswer (matchString I (.int n :: rest) s) (matchString I (.int n :: rest) t) := by
  rw [matchString_eq natural few (given s), matchString_eq natural few (given t), same]
  cases matchedText? t n.toInt.toNat string with
  | none => exact .value ..
  | some out => exact .text ..

theorem matchedText?_some (s : Session) (n : Nat) (text : String) :
    matchedText? s n (some text) =
      (s.matchData.bind (·.group? n)).map fun (start, stop) =>
        let tail := text.toList.drop start.toNat
        String.ofList (if stop < start then tail else tail.take (stop - start).toNat) := by
  unfold matchedText?
  cases s.matchData with
  | none => rfl
  | some m =>
      show (m.group? n >>= _) = _
      rw [Option.bind_some]
      cases m.group? n with
      | none => rfl
      | some span => rfl

theorem matchedText?_none {id : Nat} (n : Nat)
    (inBuffer : ∀ m, s.matchData = some m → m.source = .buffer id) :
    matchedText? s n none =
      (s.matchData.bind (·.group? n)).bind fun span =>
        (s.workspace.buffer? id).bind fun b =>
          (bufferOffsets? span).map fun (start, stop) => b.substring start stop := by
  unfold matchedText?
  cases recorded : s.matchData with
  | none => rfl
  | some m =>
      obtain ⟨groups, source⟩ := m
      obtain rfl : source = .buffer id := inBuffer _ recorded
      show ((MatchData.mk groups (.buffer id)).group? n >>= _) = _
      rw [Option.bind_some]
      cases (MatchData.mk groups (.buffer id)).group? n with
      | none => rfl
      | some span =>
          rw [Option.bind_some]
          show (s.workspace.buffer? id >>= _) = _
          cases s.workspace.buffer? id with
          | none => rfl
          | some b =>
              rw [Option.bind_some]
              show (bufferOffsets? span >>= _) = _
              cases bufferOffsets? span with
              | none => rfl
              | some offsets => rfl

theorem substring_congr {b b' : Buffer} (same : b.text = b'.text) (x y : Nat) :
    b.substring x y = b'.substring x y := by
  unfold Buffer.substring Buffer.ordered Buffer.clamp Buffer.size
  rw [same]

theorem sameAnswer_matchString (same : SameGroups s.matchData t.matchData) (natural : 0 ≤ n.toInt)
    (handle : Nat) (text : String) :
    SameAnswer (matchString I [.int n, .str handle text] s)
      (matchString I [.int n, .str handle text] t) := by
  refine sameAnswer_of_matchedText? natural (Nat.le_refl _) (fun _ => rfl) ?_
  rw [matchedText?_some, matchedText?_some, same n.toInt.toNat]

theorem sameAnswer_matchString_buffer (same : SameGroups s.matchData t.matchData)
    (browsed : s.Browsed t) (id : Nat)
    (source : ∀ m, s.matchData = some m → m.source = .buffer id)
    (source' : ∀ m, t.matchData = some m → m.source = .buffer id) (natural : 0 ≤ n.toInt) :
    SameAnswer (matchString I [.int n] s) (matchString I [.int n] t) := by
  refine sameAnswer_of_matchedText? natural (Nat.zero_le _) (fun _ => rfl) ?_
  rw [matchedText?_none _ source, matchedText?_none _ source', same n.toInt.toNat]
  congr 1
  funext span
  have texts := browsed.texts id
  cases before : s.workspace.buffer? id with
  | none =>
      rw [before] at texts
      rw [Option.map_eq_none_iff.mp texts]
  | some b =>
      rw [before] at texts
      obtain ⟨b', there, same⟩ := Option.map_eq_some_iff.mp texts
      rw [there, Option.bind_some, Option.bind_some]
      congr 1
      funext offsets
      exact substring_congr same.symm ..

/-! ## Saving and putting back -/

/-- Searches one after the other, whether they return or leave, in buffers that are made current in
between. -/
inductive Searches (I : Interp) (s : Session) : Session → Prop where
  | none : Searches I s s
  | returned {name : String} {args : List Value} {value : Value} {t u : Session} :
      Searches I s t → name ∈ searchNames → callPrimitive I name args t = .ok value u →
        Searches I s u
  | left {name : String} {args : List Value} {flow : Flow} {t u : Session} :
      Searches I s t → name ∈ searchNames → callPrimitive I name args t = .exit flow u →
        Searches I s u
  | inBuffer {t : Session} (id : Nat) :
      Searches I s t → Searches I s { t with workspace := t.workspace.setCurrent id }

theorem Searches.browsed (run : Searches I s t) (wf : s.workspace.WellFormed) : s.Browsed t := by
  induction run with
  | none => exact .refl wf
  | @returned _ args _ _ _ _ isSearch found ih =>
      have step := (browses_of_searchNames I isSearch args).browses _ ih.wellFormed
      rw [found] at step
      exact ih.trans step
  | @left _ args _ _ _ _ isSearch found ih =>
      have step := (browses_of_searchNames I isSearch args).browses _ ih.wellFormed
      rw [found] at step
      exact ih.trans step
  | inBuffer id _ ih => exact ih.trans (.setCurrent ih.wellFormed id)

/-- A primitive answers alike in two sessions. -/
def Alike (I : Interp) (name : String) (args : List Value) (s t : Session) : Prop :=
  SameAnswer (callPrimitive I name args s) (callPrimitive I name args t)

/-- The match of one session is back in another: its ends are the same and so is its text in any
string, and its text in a buffer if that is where the match before was.  (It is putting match data
back that leaves where the last match was.) -/
structure MatchIsBack (I : Interp) (saved before back : Session) : Prop where
  starts (n : Int64) : 0 ≤ n.toInt → Alike I "match-beginning" [.int n] saved back
  stops (n : Int64) : 0 ≤ n.toInt → Alike I "match-end" [.int n] saved back
  ofString (n : Int64) (handle : Nat) (text : String) : 0 ≤ n.toInt →
    Alike I "match-string" [.int n, .str handle text] saved back
  ofBuffer (n : Int64) (id : Nat) : 0 ≤ n.toInt →
    saved.matchData.map MatchData.source = some (.buffer id) →
      before.matchData.map MatchData.source = some (.buffer id) →
        Alike I "match-string" [.int n] saved back

/-- Match data that a search has recorded are restored, whatever is searched in between. -/
theorem restored_matchData (wf : s.workspace.WellFormed) (short : ShortTexts args s)
    (records : name ∈ recordingSearches) (found : callPrimitive I name args s = .ok value t)
    (succeeded : value.isTrue = true) :
    ∃ saved t', callPrimitive I "match-data" [] t = .ok saved t' ∧
      ∀ u, Searches I t' u →
        ∃ u', callPrimitive I "set-match-data" [saved] u = .ok .nil u' ∧ MatchIsBack I t u u' := by
  have isSearch : name ∈ searchNames := List.mem_append_left _ records
  have after := (browses_of_searchNames I isSearch args).browses s wf
  rw [found] at after
  obtain ⟨m, recorded, fit⟩ := recorded_of_recordingSearches wf short records found succeeded
  have saving : t.Browsed { t with store := (t.store.list (positions t.matchData)).2 } :=
    ⟨after.wellFormed, fun _ => rfl, (Store.lists_list ..).2⟩
  refine ⟨_, _, matchData_eq I t, fun u run => ?_⟩
  have browsed := run.browsed saving.wellFormed
  have read := Store.list?_list (positions t.matchData) browsed.pairs
  rw [recorded] at read
  obtain ⟨m', restored, same, kept⟩ := setMatchData_eq I fit read
  rw [← recorded] at same restored
  refine ⟨u.recording m', restored, ?_⟩
  constructor
  case starts =>
    intro n natural
    unfold Alike
    rw [callPrimitive_of_searches I rfl]
    exact sameAnswer_matchEnd "match-beginning" Prod.fst same natural
  case stops =>
    intro n natural
    unfold Alike
    rw [callPrimitive_of_searches I rfl]
    exact sameAnswer_matchEnd "match-end" Prod.snd same natural
  case ofString =>
    intro n handle text natural
    unfold Alike
    rw [callPrimitive_of_searches I rfl]
    exact sameAnswer_matchString same natural handle text
  case ofBuffer =>
    intro n id natural inBuffer stillThere
    have putBack : t.Browsed (u.recording m') :=
      saving.trans ⟨browsed.wellFormed, browsed.texts, browsed.pairs⟩
    unfold Alike
    rw [callPrimitive_of_searches I rfl]
    apply sameAnswer_matchString_buffer same putBack id _ _ natural
    · intro m there
      rw [there] at inBuffer
      exact Option.some.inj inBuffer
    · intro m there
      rw [kept m there, stillThere]
      rfl

theorem shortTexts_sessionOf_ab : ShortTexts [.str 0 "a"] (sessionOf "ab" 0) := by
  constructor
  · intro id b there
    have only : (sessionOf "ab" 0).workspace.buffer? id =
      if 1 = id then some (bufferOf "ab" 0) else none := rfl
    rw [only] at there
    split at there
    next =>
      cases there
      decide
    next => cases there
  · intro handle text listed
    cases List.mem_singleton.mp listed
    decide

/-- A match in a buffer. -/
theorem restored_matchData_ab :
    let s := sessionOf "ab" 0
    s.workspace.WellFormed ∧ ShortTexts [.str 0 "a"] s ∧ "re-search-forward" ∈ recordingSearches ∧
      ∃ value t, callPrimitive .top "re-search-forward" [.str 0 "a"] s = .ok value t ∧
        value.isTrue = true ∧
        ∃ saved t', callPrimitive .top "match-data" [] t = .ok saved t' ∧
          ∀ u, Searches .top t' u →
            ∃ u', callPrimitive .top "set-match-data" [saved] u = .ok .nil u' ∧
              MatchIsBack .top t u u' := by
  intro s
  have wf : s.workspace.WellFormed := (editing_sessionOf "ab" 0).wellFormed
  have short := shortTexts_sessionOf_ab
  have records : "re-search-forward" ∈ recordingSearches := by decide
  have searches :
      returnsTrue (search "re-search-forward" false false .top [.str 0 "a"] s) = true := by
    decide +kernel
  obtain ⟨value, t, found, succeeded⟩ := exists_of_returnsTrue searches
  have called : callPrimitive .top "re-search-forward" [.str 0 "a"] s = .ok value t := by
    rw [callPrimitive_of_searches .top rfl]
    exact found
  exact ⟨wf, short, records, value, t, called, succeeded,
    restored_matchData wf short records called succeeded⟩

/-- Find something in a buffer and ask for its text; then save the match data, search for something
else, put the match data back and ask again. -/
def saveAndRestore (other : String) (args : List Value) : Eval (Value × Value) := do
  let _ ← callPrimitive .top "re-search-forward" [.str 0 "a"]
  let before ← callPrimitive .top "match-string" [.int 0]
  let saved ← callPrimitive .top "match-data" []
  let _ ← callPrimitive .top other args
  let _ ← callPrimitive .top "set-match-data" [saved]
  let after ← callPrimitive .top "match-string" [.int 0]
  return (before, after)

/-- Whether either of two answers is true. -/
def truths (answers : Value × Value) : Bool × Bool := (answers.1.isTrue, answers.2.isTrue)

/-- After a search in a string, or one that has failed, the text that was found in the buffer is not
found again. -/
theorem not_restored_matchData :
    (answer? (saveAndRestore "string-match" [.str 0 "x", .str 0 "x"]
      (sessionOf "ab" 0))).map truths = some (true, false) ∧
    (answer? (saveAndRestore "re-search-forward" [.str 0 "z", .nil, .t]
      (sessionOf "ab" 0))).map truths = some (true, false) := by
  have byName (name : String) (q : Primitive) (found : searches.lookup name = some q) :
      callPrimitive .top name = q .top := callPrimitive_of_searches .top found
  unfold saveAndRestore
  rw [byName "re-search-forward" _ rfl, byName "match-string" _ rfl, byName "match-data" _ rfl,
    byName "set-match-data" _ rfl, byName "string-match" _ rfl]
  decide +kernel

end Primitives

end EditorLisp
