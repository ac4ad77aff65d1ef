import EditorLisp.Proofs.Document.Edits
import EditorLisp.Proofs.Primitives.Expansion
import EditorLisp.Proofs.Primitives.Literal
import EditorLisp.Proofs.Primitives.MatchData

/-!
# Replacing matches

A group of the last match is replaced in the buffer where the match was, or in a string.  Match data
may be stale by then: the buffer may have been edited or killed since, or the positions set by hand.
In a buffer the span of the group is looked at as a whole before anything is changed, so a
replacement that fails has changed nothing.  In a string the span is not looked at: what is before
its start is followed by the replacement and by what is behind its end, and that is the string with
the span replaced only if the span is one of the string.

If every match in a string is replaced, the answer is put together from what is between the matches
and what comes in their place.
-/

namespace EditorLisp

open Eval

/-! ## Failing -/

/-- A step has failed and has changed nothing in the session but the store of data. -/
def Outcome.Fails {α : Type} (o : Outcome α) (s : Session) : Prop :=
  ∃ flow store, o = .exit flow { s with store }

theorem fails_signal {α : Type} (condition : String) (data : List Value) (s : Session) :
    (signal condition data s : Outcome α).Fails s :=
  ⟨_, _, rfl⟩

theorem fails_error {α : Type} (message : String) (s : Session) :
    (error message s : Outcome α).Fails s :=
  ⟨_, _, rfl⟩

/-- A step that looks at an argument: it returns or fails, and does nothing to the session. -/
def Eval.Checks {α : Type} (m : Eval α) : Prop :=
  ∀ s, (∃ a, m s = .ok a s) ∨ ∃ flow, m s = .exit flow s

theorem checks_between (name : String) (args : List Value) (minimum maximum : Nat) :
    (between name args minimum maximum).Checks := by
  intro s
  unfold between
  split
  · exact .inl ⟨(), rfl⟩
  · exact .inr ⟨_, rfl⟩

theorem checks_string (v : Value) : (string v).Checks := by
  intro s
  cases v with
  | str handle text => exact .inl ⟨text, rfl⟩
  | _ => exact .inr ⟨_, rfl⟩

theorem checks_naturalOr (default : Nat) (v : Option Value) : (naturalOr default v).Checks := by
  intro s
  cases v with
  | none => exact .inl ⟨default, rfl⟩
  | some v =>
      cases v with
      | int n =>
          by_cases natural : 0 ≤ n.toInt
          · exact .inl ⟨_, Primitives.natural_eq natural s⟩
          · exact .inr ⟨_, congrFun (if_neg natural) s⟩
      | _ => exact .inr ⟨_, rfl⟩

namespace Primitives

variable {I : Interp} {s : Session} {args : List Value} {template whole : String}
  {source : Option String} {literal : Bool} {n : Nat}

/-! ## What is put in -/

/-- The string that a step answers. -/
def textOf? : Outcome Value → Option String
  | .ok (.str _ text) _ => some text
  | _ => none

/-- The text of a group of the last match, as `match-string` gives it. -/
def groupText (I : Interp) (s : Session) (source : List Value) (n : Nat) : Option String :=
  textOf? (callPrimitive I "match-string" (.ofNat n :: source) s)

/-- What comes in the place of a group: a literal text, or a template with the texts of groups. -/
def replacement (I : Interp) (s : Session) (template : String) (literal : Bool)
    (source : List Value) : String :=
  if literal then template else expandTemplate (groupText I s source) template.toList ""

theorem groupText_eq (small : n ≤ 9) {rest : List Value} (few : rest.length ≤ 1)
    (given : string? (given? (.ofNat n :: rest) 1) s = .ok source s) :
    groupText I s rest n = matchedText? s n source := by
  have value : (Int64.ofNat n).toInt = n := Int64.toInt_ofNat_of_lt (by omega)
  have natural : 0 ≤ (Int64.ofNat n).toInt := value ▸ Int.natCast_nonneg n
  have byName : callPrimitive I "match-string" = matchString I := callPrimitive_of_searches I rfl
  have called := matchString_eq (I := I) natural few given
  rw [value, Int.toNat_natCast] at called
  rw [groupText, byName, Value.ofNat, called]
  cases matchedText? s n source with
  | none => rfl
  | some out => rfl

/-- The program takes the texts of groups from where `match-string` takes them. -/
theorem replacement_eq (source : Option String) (rest : List Value) (few : rest.length ≤ 1)
    (given : ∀ n : Nat, string? (given? (.ofNat n :: rest) 1) s = .ok source s) :
    (if literal then template
      else expandTemplate (fun n => matchedText? s n source) template.toList "") =
      replacement I s template literal rest := by
  have groups := expandTemplate_congr
    (fun n small => groupText_eq (I := I) small few (given n)) template.toList ""
  rw [replacement, groups]

/-! ## A call -/

/-- What a replacement does to a session with certain match data once it is known what to put
in. -/
def replaceGroup (source : Option String) (new : String) (n : Nat) : Option MatchData → Eval Value
  | none => error "replace-match called before any match found"
  | some m =>
    match m.group? n with
    | none => signal "args-out-of-range" [.ofNat n]
    | some span =>
      match source, m.source with
      | some whole, _ => text (replaceSpan whole.toList span.1.toNat span.2.toNat new)
      | none, .buffer id => replaceInBuffer id span new
      | none, .string => error "replace-match: last match was not in a buffer"

/-- The arguments are a template, perhaps a string and perhaps the number of a group. -/
structure Asks (args : List Value) (s : Session) (template : String) (source : Option String)
    (n : Nat) : Prop where
  counted : between "replace-match" args 1 5 s = .ok () s
  template : string (arg args 0) s = .ok template s
  source : string? (given? args 3) s = .ok source s
  group : naturalOr 0 (given? args 4) s = .ok n s

theorem Asks.unique {template' : String} {n' : Nat} (asks : Asks args s template source n)
    (asks' : Asks args s template' source n') : template = template' ∧ n = n' := by
  have sameTemplate := asks.template.symm.trans asks'.template
  have sameGroup := asks.group.symm.trans asks'.group
  cases sameTemplate
  cases sameGroup
  exact ⟨rfl, rfl⟩

theorem replaceMatch_eq (asks : Asks args s template source n) (rest : List Value)
    (few : rest.length ≤ 1)
    (given : ∀ n : Nat, string? (given? (.ofNat n :: rest) 1) s = .ok source s) :
    callPrimitive I "replace-match" args s =
      replaceGroup source (replacement I s template (flag args 2) rest) n s.matchData s := by
  rw [callPrimitive_of_searches I rfl, ← replacement_eq source rest few given]
  refine (bind_of_ok _ asks.counted).trans ((bind_of_ok _ asks.template).trans ?_)
  refine (bind_of_ok _ asks.source).trans ((bind_of_ok _ asks.group).trans ?_)
  refine (bind_of_ok _ rfl).trans ?_
  cases s.matchData with
  | none => rfl
  | some m => rfl

/-- Arguments of any other kind are refused before anything else is done. -/
theorem asks_or_fails (known : string? (given? args 3) s = .ok source s) :
    (∃ template n, Asks args s template source n) ∨
      (callPrimitive I "replace-match" args s).Fails s := by
  rw [callPrimitive_of_searches I rfl]
  rcases checks_between "replace-match" args 1 5 s with ⟨⟨⟩, counted⟩ | ⟨flow, refused⟩
  · rcases checks_string (arg args 0) s with ⟨template, isTemplate⟩ | ⟨flow, refused⟩
    · rcases checks_naturalOr 0 (given? args 4) s with ⟨n, group⟩ | ⟨flow, refused⟩
      · exact .inl ⟨template, n, counted, isTemplate, known, group⟩
      · refine .inr ⟨flow, s.store, (bind_of_ok _ counted).trans ?_⟩
        refine (bind_of_ok _ isTemplate).trans ((bind_of_ok _ known).trans ?_)
        exact bind_of_exit _ refused
    · exact .inr ⟨flow, s.store, (bind_of_ok _ counted).trans (bind_of_exit _ refused)⟩
  · exact .inr ⟨flow, s.store, bind_of_exit _ refused⟩

/-! ## In a buffer -/

/-- A group of the last match is a span of a buffer that is still there. -/
structure MatchedIn (s : Session) (n id : Nat) (b : Buffer) (start stop : Nat) : Prop where
  source : s.matchData.map MatchData.source = some (.buffer id)
  group : s.matchData.bind (·.group? n) = some ((start : Int) + 1, (stop : Int) + 1)
  there : s.workspace.buffer? id = some b
  ordered : start ≤ stop
  inside : stop ≤ b.size

theorem MatchedIn.unique {id id' : Nat} {b b' : Buffer} {start start' stop stop' : Nat}
    (matched : MatchedIn s n id b start stop) (matched' : MatchedIn s n id' b' start' stop') :
    id = id' ∧ b = b' ∧ start = start' ∧ stop = stop' := by
  have source := matched.source.symm.trans matched'.source
  have group := matched.group.symm.trans matched'.group
  simp only [Option.some.injEq, MatchSource.buffer.injEq] at source
  simp only [Option.some.injEq, Prod.mk.injEq] at group
  subst source
  have there := matched.there.symm.trans matched'.there
  exact ⟨rfl, Option.some.inj there, by omega, by omega⟩

/-- A buffer with a span replaced and the point behind the replacement. -/
def replaced (start stop : Nat) (new : String) (b : Buffer) : Buffer :=
  (b.replaceRegion start stop new).goto (start + new.length)

/-- Positions count from one, and offsets from zero. -/
theorem bufferOffsets?_eq_some {span : Int × Int} {start stop : Nat} :
    bufferOffsets? span = some (start, stop) ↔ span = ((start : Int) + 1, (stop : Int) + 1) := by
  obtain ⟨first, last⟩ := span
  simp only [bufferOffsets?, Option.ite_none_right_eq_some, Option.some.injEq, Prod.mk.injEq]
  omega

theorem toList_replaced {b : Buffer} {start stop : Nat} (new : String) (ordered : start ≤ stop)
    (inside : stop ≤ b.size) :
    (replaced start stop new b).text.toList =
      b.text.toList.take start ++ new.toList ++ b.text.toList.drop stop := by
  have region := b.toList_replaceRegion start stop new
  rwa [Buffer.ordered_of_le ordered inside] at region

theorem point_replaced {b : Buffer} {start stop : Nat} (new : String) (ordered : start ≤ stop)
    (inside : stop ≤ b.size) : (replaced start stop new b).point = start + new.length := by
  have length := congrArg List.length (toList_replaced new ordered inside)
  have front := b.text.length_take_toList (Nat.le_trans ordered inside)
  rw [List.length_append, List.length_append, front, String.length_toList,
    GapText.length_toList] at length
  have room : start + new.length ≤ (b.replaceRegion start stop new).size :=
    Nat.le.intro length.symm
  exact Nat.min_eq_left room

theorem replaceGroup_of_matchedIn {id : Nat} {b : Buffer} {start stop : Nat} (new : String)
    (matched : MatchedIn s n id b start stop) :
    replaceGroup none new n s.matchData s =
      .ok .nil ((s.changing id (replaced start stop new)).recording none) := by
  obtain ⟨m, recorded, source⟩ := Option.map_eq_some_iff.mp matched.source
  have group := matched.group
  rw [recorded, Option.bind_some] at group
  have span : (bufferOffsets? ((start : Int) + 1, (stop : Int) + 1)).filter
      (fun x => x.1 ≤ x.2 && x.2 ≤ b.size) = some (start, stop) := by
    rw [bufferOffsets?_eq_some.mpr rfl, Option.filter_some_pos]
    simp [matched.ordered, matched.inside]
  simp only [replaceGroup, recorded, group, source]
  refine (bind_of_ok _ rfl).trans ?_
  simp only [matched.there, span]
  rfl

theorem fails_or_inside (id : Nat) (span : Int × Int) (new : String) (s : Session) :
    (replaceInBuffer id span new s).Fails s ∨
      ∃ (b : Buffer) (start stop : Nat), s.workspace.buffer? id = some b ∧
        span = ((start : Int) + 1, (stop : Int) + 1) ∧ start ≤ stop ∧ stop ≤ b.size := by
  have looked : replaceInBuffer id span new s = _ := bind_of_ok _ rfl
  rw [looked]
  cases there : s.workspace.buffer? id with
  | none => exact .inl (fails_error ..)
  | some b =>
      dsimp only
      cases checked : (bufferOffsets? span).filter fun x => x.1 ≤ x.2 && x.2 ≤ b.size with
      | none => exact .inl (fails_signal ..)
      | some offsets =>
          obtain ⟨read, inOrder⟩ := Option.filter_eq_some_iff.mp checked
          obtain ⟨ordered, inside⟩ := Bool.and_eq_true_iff.mp inOrder
          exact .inr ⟨b, offsets.1, offsets.2, rfl, bufferOffsets?_eq_some.mp read,
            of_decide_eq_true ordered, of_decide_eq_true inside⟩

/-- Whatever keeps a group from being replaced is noticed before anything is changed. -/
theorem fails_or_matchedIn (new : String) (n : Nat) (s : Session) :
    (replaceGroup none new n s.matchData s).Fails s ∨
      ∃ id b start stop, MatchedIn s n id b start stop := by
  unfold replaceGroup
  cases recorded : s.matchData with
  | none => exact .inl (fails_error ..)
  | some m =>
      dsimp only
      cases group : m.group? n with
      | none => exact .inl (fails_signal ..)
      | some span =>
          dsimp only
          cases source : m.source with
          | string => exact .inl (fails_error ..)
          | buffer id =>
              refine (fails_or_inside id span new s).imp_right ?_
              rintro ⟨b, start, stop, there, rfl, ordered, inside⟩
              refine ⟨id, b, start, stop, ?_, ?_, there, ordered, inside⟩
              · rw [recorded, Option.map_some, source]
              · rw [recorded, Option.bind_some, group]

/-- A group of the last match is replaced in the buffer where the match was, by a literal text or by
a template that is filled with what `match-string` says of the groups before.  That takes a span in
order that lies within the buffer.  In any other case the call fails, and no buffer and no match
data are changed. -/
theorem replaceMatch_inBuffer (I : Interp) (s : Session) {args : List Value}
    (noString : given? args 3 = none) :
    (callPrimitive I "replace-match" args s).Fails s ∧
        (∀ template n id b start stop, Asks args s template none n →
          ¬ MatchedIn s n id b start stop) ∨
      ∃ template n id b start stop, Asks args s template none n ∧
        MatchedIn s n id b start stop ∧
        ∃ t b', callPrimitive I "replace-match" args s = .ok .nil t ∧
          t.workspace.buffer? id = some b' ∧
          b'.text.toList = b.text.toList.take start ++
            (replacement I s template (flag args 2) []).toList ++ b.text.toList.drop stop ∧
          b'.point = start + (replacement I s template (flag args 2) []).length ∧
          t.matchData = none ∧
          ∀ other, other ≠ id → t.workspace.buffer? other = s.workspace.buffer? other := by
  have source : string? (given? args 3) s = .ok none s := by
    rw [noString]
    rfl
  have called {template : String} {n : Nat} (asks : Asks args s template none n) :=
    replaceMatch_eq (I := I) asks [] (Nat.zero_le 1) fun _ => rfl
  by_cases chosen : ∃ template n id b start stop,
      Asks args s template none n ∧ MatchedIn s n id b start stop
  case pos =>
    obtain ⟨template, n, id, b, start, stop, asks, matched⟩ := chosen
    let new := replacement I s template (flag args 2) []
    refine .inr ⟨template, n, id, b, start, stop, asks, matched, _, replaced start stop new b,
      (called asks).trans (replaceGroup_of_matchedIn new matched), ?_,
      toList_replaced new matched.ordered matched.inside,
      point_replaced new matched.ordered matched.inside, rfl, fun other ne => ?_⟩
    · exact (Workspace.buffer?_modifyBuffer ..).trans
        ((if_pos rfl).trans (congrArg _ matched.there))
    · exact (Workspace.buffer?_modifyBuffer ..).trans (if_neg ne.symm)
  case neg =>
    refine .inl ⟨?_, fun template n id b start stop asks matched =>
      chosen ⟨template, n, id, b, start, stop, asks, matched⟩⟩
    obtain ⟨template, n, asks⟩ | refused := asks_or_fails (I := I) source
    · obtain failed | ⟨id, b, start, stop, matched⟩ :=
        fails_or_matchedIn (replacement I s template (flag args 2) []) n s
      · rwa [called asks]
      · exact (chosen ⟨template, n, id, b, start, stop, asks, matched⟩).elim
    · exact refused

/-- A match in the middle of a buffer, replaced by the text of its first group and its own. -/
theorem replaceMatch_inBuffer_foobar :
    let s := (sessionOf "foobar" 0).recording (some ⟨[(2, 5), (3, 4)], .buffer 1⟩)
    let args : List Value := [.str 0 "<\\1\\&>"]
    given? args 3 = none ∧
      ∃ t b', callPrimitive .top "replace-match" args s = .ok .nil t ∧
        t.workspace.buffer? 1 = some b' ∧ b'.text.toList = "f<ooob>ar".toList ∧ b'.point = 7 ∧
        t.matchData = none := by
  intro s args
  have noString : given? args 3 = none := rfl
  have asks : Asks args s "<\\1\\&>" none 0 := ⟨rfl, rfl, rfl, rfl⟩
  have matched : MatchedIn s 0 1 (bufferOf "foobar" 0) 1 4 :=
    ⟨rfl, rfl, rfl, by decide, by decide⟩
  have filled : replacement .top s "<\\1\\&>" false [] = "<ooob>" := by
    rw [← replacement_eq none [] (Nat.zero_le 1) fun _ => rfl]
    decide +kernel
  refine ⟨noString, ?_⟩
  obtain ⟨-, unmatched⟩ | ⟨template, n, id, b, start, stop, asks', matched', t, b', called, after,
    text, point, cleared, -⟩ := replaceMatch_inBuffer .top s noString
  · exact (unmatched _ _ _ _ _ _ asks matched).elim
  · obtain ⟨rfl, rfl⟩ := asks.unique asks'
    obtain ⟨rfl, rfl, rfl, rfl⟩ := matched.unique matched'
    rw [show flag args 2 = false from rfl, filled] at text point
    exact ⟨t, b', called, after, text.trans (by decide +kernel), point, cleared⟩

/-! ## In a string -/

theorem replaceGroup_inString {span : Int × Int} (new : String)
    (group : s.matchData.bind (·.group? n) = some span) :
    replaceGroup (some whole) new n s.matchData s =
      text (replaceSpan whole.toList span.1.toNat span.2.toNat new) s := by
  obtain ⟨m, recorded, group⟩ := Option.bind_eq_some_iff.mp group
  simp only [replaceGroup, recorded, group]

theorem fails_of_no_group (new : String) (absent : s.matchData.bind (·.group? n) = none) :
    (replaceGroup source new n s.matchData s).Fails s := by
  unfold replaceGroup
  cases recorded : s.matchData with
  | none => exact fails_error ..
  | some m =>
      rw [recorded, Option.bind_some] at absent
      dsimp only
      rw [absent]
      exact fails_signal ..

/-- What is between two positions follows the text up to the first one. -/
theorem take_append_between {chars : List Char} {start stop : Nat} (ordered : start ≤ stop) :
    chars.take start ++ (chars.drop start).take (stop - start) = chars.take stop := by
  rw [← List.take_add, Nat.add_sub_cancel' ordered]

/-- Where a span is one of a string, replacing it leaves what is around it. -/
theorem replaceSpan_eq {chars : List Char} {start stop : Nat} (new : String)
    (ordered : start ≤ stop) (inside : stop ≤ chars.length) :
    ∃ before matched after, chars = before ++ matched ++ after ∧ before.length = start ∧
      (before ++ matched).length = stop ∧
      replaceSpan chars start stop new = String.ofList (before ++ new.toList ++ after) := by
  refine ⟨chars.take start, (chars.drop start).take (stop - start), chars.drop stop, ?_, ?_, ?_, ?_⟩
  · rw [take_append_between ordered, List.take_append_drop]
  · exact List.length_take_of_le (Nat.le_trans ordered inside)
  · rw [take_append_between ordered]
    exact List.length_take_of_le inside
  · rw [String.ofList_append, String.ofList_append, String.ofList_toList]
    rfl

theorem nonneg_of_group {span : Int × Int} (group : s.matchData.bind (·.group? n) = some span) :
    0 ≤ span.1 ∧ 0 ≤ span.2 := by
  obtain ⟨m, -, group⟩ := Option.bind_eq_some_iff.mp group
  obtain ⟨-, positive⟩ := Option.filter_eq_some_iff.mp group
  simpa using positive

/-- A group of the last match is replaced in a string.  If its span is one of the string, what is
before the span and what is behind it are kept.  A call with arguments of another kind fails, and so
does one that asks for a group that is not there. -/
theorem replaceMatch_inString (I : Interp) (s : Session) {args : List Value} {handle : Nat}
    {whole : String} (given : given? args 3 = some (.str handle whole))
    (inside : ∀ n span, naturalOr 0 (given? args 4) s = .ok n s →
      s.matchData.bind (·.group? n) = some span →
        span.1 ≤ span.2 ∧ span.2 ≤ whole.length) :
    (callPrimitive I "replace-match" args s).Fails s ∧
        (∀ template n, Asks args s template (some whole) n →
          s.matchData.bind (·.group? n) = none) ∨
      ∃ (template : String) (n start stop : Nat), Asks args s template (some whole) n ∧
        s.matchData.bind (·.group? n) = some ((start : Int), (stop : Int)) ∧
        start ≤ stop ∧ stop ≤ whole.length ∧
        ∃ before matched after, whole.toList = before ++ matched ++ after ∧
          before.length = start ∧ (before ++ matched).length = stop ∧
          callPrimitive I "replace-match" args s =
            text (String.ofList (before ++
              (replacement I s template (flag args 2) [.str handle whole]).toList ++ after)) s := by
  have source : string? (given? args 3) s = .ok (some whole) s := by
    rw [given]
    rfl
  have called {template : String} {n : Nat} (asks : Asks args s template (some whole) n) :=
    replaceMatch_eq (I := I) asks [.str handle whole] (Nat.le_refl 1) fun _ => rfl
  by_cases chosen : ∃ template n span,
      Asks args s template (some whole) n ∧ s.matchData.bind (·.group? n) = some span
  case pos =>
    obtain ⟨template, n, ⟨start, stop⟩, asks, group⟩ := chosen
    obtain ⟨ordered, stopInside⟩ := inside n _ asks.group group
    obtain ⟨positive, positive'⟩ := nonneg_of_group group
    lift start to ℕ using positive
    lift stop to ℕ using positive'
    let new := replacement I s template (flag args 2) [.str handle whole]
    have startLe : start ≤ stop := Int.ofNat_le.mp ordered
    have stopLe : stop ≤ whole.length := Int.ofNat_le.mp stopInside
    obtain ⟨before, matched, after, parts, starts, stops, result⟩ :=
      replaceSpan_eq new startLe (stopLe.trans_eq String.length_toList.symm)
    refine .inr ⟨template, n, start, stop, asks, group, startLe, stopLe, before, matched, after,
      parts, starts, stops, ?_⟩
    rw [called asks, replaceGroup_inString new group, ← result]
    rfl
  case neg =>
    have absent {template : String} {n : Nat} (asks : Asks args s template (some whole) n) :
        s.matchData.bind (·.group? n) = none :=
      Option.eq_none_iff_forall_ne_some.mpr fun span group =>
        chosen ⟨template, n, span, asks, group⟩
    refine .inl ⟨?_, fun _ _ asks => absent asks⟩
    obtain ⟨template, n, asks⟩ | refused := asks_or_fails (I := I) source
    · rw [called asks]
      exact fails_of_no_group _ (absent asks)
    · exact refused

/-- The last group is replaced by the one before it. -/
theorem replaceMatch_inString_foo :
    let s := (sessionOf "" 0).recording (some ⟨[(0, 7), (0, 3), (4, 7)], .string⟩)
    let args : List Value := [.str 0 "<\\1>", .nil, .nil, .str 0 "foo-bar", .int 2]
    given? args 3 = some (.str 0 "foo-bar") ∧
      (∀ n span, naturalOr 0 (given? args 4) s = .ok n s →
        s.matchData.bind (·.group? n) = some span →
          span.1 ≤ span.2 ∧ span.2 ≤ "foo-bar".length) ∧
      callPrimitive .top "replace-match" args s = text "foo-<foo>" s := by
  intro s args
  have given : given? args 3 = some (.str 0 "foo-bar") := rfl
  have asks : Asks args s "<\\1>" (some "foo-bar") 2 := ⟨rfl, rfl, rfl, rfl⟩
  have group : s.matchData.bind (·.group? 2) = some (4, 7) := rfl
  have inside : ∀ n span, naturalOr 0 (given? args 4) s = .ok n s →
      s.matchData.bind (·.group? n) = some span → span.1 ≤ span.2 ∧ span.2 ≤ "foo-bar".length := by
    intro n span number there
    cases asks.group.symm.trans number
    cases group.symm.trans there
    decide
  have filled : replacement .top s "<\\1>" false [.str 0 "foo-bar"] = "<foo>" := by
    rw [← replacement_eq (some "foo-bar") [.str 0 "foo-bar"] (Nat.le_refl 1) fun _ => rfl]
    decide +kernel
  refine ⟨given, inside, ?_⟩
  obtain ⟨-, nowhere⟩ | ⟨template, n, start, stop, asks', group', -, -, before, matched, after,
    parts, starts, stops, called⟩ := replaceMatch_inString .top s given inside
  · cases group.symm.trans (nowhere _ _ asks)
  · obtain ⟨rfl, rfl⟩ := asks.unique asks'
    cases group.symm.trans group'
    have front : before = "foo-".toList := by
      have rest := congrArg (List.take 4) parts
      rw [List.append_assoc, List.take_left' starts] at rest
      exact rest.symm.trans (by decide)
    have back : after = [] := by
      have rest := congrArg (List.drop 7) parts
      rw [List.drop_left' stops] at rest
      exact rest.symm.trans (by decide)
    have result : String.ofList ("foo-".toList ++ "<foo>".toList ++ []) = "foo-<foo>" := by decide
    rw [called, show flag args 2 = false from rfl, filled, front, back, result]

/-- The span of the group is set by hand and ends before it starts.  The string has no such span,
and what is between the two ends comes twice. -/
theorem not_replaceMatch_inString :
    let made := ({} : Store).list [.int 5, .int 2]
    let s : Session := { sessionOf "" 0 with store := made.2 }
    ∃ t, callPrimitive .top "set-match-data" [made.1] s = .ok .nil t ∧
      t.matchData.bind (·.group? 0) = some (5, 2) ∧
      textOf? (callPrimitive .top "replace-match"
        [.str 0 "X", .nil, .nil, .str 0 "abcdef"] t) = some "abcdeXcdef" := by
  intro made s
  have byName (name : String) (q : Primitive) (found : searches.lookup name = some q) :
      callPrimitive .top name = q .top := callPrimitive_of_searches .top found
  have put : setMatchDataForm .top [made.1] s =
      .ok .nil (s.recording (some ⟨[(5, 2)], .string⟩)) := rfl
  refine ⟨s.recording (some ⟨[(5, 2)], .string⟩), ?_, rfl, ?_⟩
  · rw [byName "set-match-data" _ rfl, put]
  · rw [byName "replace-match" _ rfl]
    decide +kernel

/-! ## Every match in a string -/

open Regexp Text

variable {r : Regex} {chars : List Char} {done : Nat}

/-- The template that stands for what was matched. -/
def itself : String := "\\&"

theorem expandTemplate_itself (groups : Nat → Option String) :
    expandTemplate groups itself.toList "" = (groups 0).getD "" := by
  have chars : itself.toList = ['\\', '&'] := rfl
  rw [chars, expandTemplate, if_pos rfl, expandTemplate, String.empty_append]

/-- The text up to a byte offset. -/
def textBefore (chars : List Char) (byte : Nat) : String :=
  String.ofList (chars.take (charOffset chars byte))

theorem textBefore_zero (chars : List Char) : textBefore chars 0 = "" := by
  have start : charOffset chars 0 = 0 := charOffset_byteOffset chars 0 (Nat.zero_le _)
  rw [textBefore, start, List.take_zero, String.ofList_nil]

theorem textBefore_byteLength (chars : List Char) :
    textBefore chars (byteLength chars) = String.ofList chars := by
  rw [textBefore, charOffset_byteLength, List.take_length]

theorem exists_slice (chars : List Char) {start stop : Nat} (ordered : start ≤ stop) :
    ∃ part, slice? chars start stop = some part ∧
      textBefore chars start ++ String.ofList part = textBefore chars stop := by
  obtain ⟨part, slice, joined⟩ := take_append_slice? chars ordered
  refine ⟨part, slice, ?_⟩
  rw [textBefore, textBefore, ← String.ofList_append, joined]

/-- A match follows the text before it. -/
theorem textBefore_append (m : Match chars) :
    textBefore chars m.start ++ m.text = textBefore chars m.stop := by
  obtain ⟨part, slice, joined⟩ := exists_slice chars m.ordered
  rw [Match.text, slice, Option.getD_some, joined]

/-- A match that is replaced by itself: the text up to where the last one ended becomes the text up
to where this one ends. -/
theorem replaceMatches_next {c : Captures chars} (above : done ≤ c.whole.start) (handle : Nat)
    (more : List (Captures chars)) :
    replaceMatches I (.str handle itself) false 0 chars done (textBefore chars done) (c :: more) s =
      replaceMatches I (.str handle itself) false 0 chars c.whole.stop
        (textBefore chars c.whole.stop) more s := by
  obtain ⟨kept, slice, joined⟩ := exists_slice chars above
  have group : c.group? 0 = some c.whole := rfl
  rw [replaceMatches]
  refine (bind_of_ok _ rfl).trans ?_
  simp only [group, slice, Bool.false_eq_true, if_false, expandTemplate_itself, Option.map_some,
    Option.getD_some]
  refine (bind_of_ok _ rfl).trans ?_
  rw [joined, textBefore_append]

/-- The induction is on the matches that are left, all of them behind what is done. -/
theorem replaceMatches_itself (handle : Nat) {all : List (Captures chars)}
    (ordered : all.Pairwise fun c c' => c.whole.stop ≤ c'.whole.start)
    (above : ∀ c ∈ all, done ≤ c.whole.start) (inside : done ≤ byteLength chars) :
    replaceMatches I (.str handle itself) false 0 chars done (textBefore chars done) all s =
      .ok (String.ofList chars) s := by
  induction all generalizing done with
  | nil =>
      obtain ⟨rest, slice, joined⟩ := exists_slice chars inside
      rw [replaceMatches, slice]
      refine (bind_of_ok _ rfl).trans ?_
      rw [joined, textBefore_byteLength]
      rfl
  | cons c more ih =>
      obtain ⟨first, ordered⟩ := List.pairwise_cons.mp ordered
      rw [replaceMatches_next (above c (.head _)),
        ih ordered first c.whole.stop_boundary.le_byteLength]

/-- A string in which every match of a valid pattern is replaced by itself is the same string,
whatever is matched in it. -/
theorem replaceRegexpInString_itself (I : Interp) (s : Session) {source : String}
    (valid : s.host.engine.ofPattern source (folds s) = .ok r) (ordered : r.InOrder)
    (handle handle' handle'' : Nat) (whole : String) :
    callPrimitive I "replace-regexp-in-string"
        [.str handle source, .str handle' itself, .str handle'' whole] s = Eval.text whole s := by
  have result := replaceMatches_itself (I := I) (s := s) handle' (ordered whole.toList)
    (fun _ _ => Nat.zero_le _) (Nat.zero_le _)
  rw [textBefore_zero] at result
  rw [callPrimitive_of_searches I rfl]
  refine (bind_of_ok _ rfl).trans ((bind_of_ok _ rfl).trans ?_)
  refine (bind_of_ok _ (searchPattern_of_ok valid)).trans ?_
  refine (bind_of_ok _ rfl).trans ((bind_of_ok _ rfl).trans ((bind_of_ok _ rfl).trans ?_))
  refine (bind_of_ok _ result).trans ?_
  rw [String.ofList_toList]

/-- Empty matches at both ends, and one of a character that takes two bytes. -/
theorem replaceRegexpInString_itself_empty :
    let s := sessionOf "" 0
    ∃ r, s.host.engine.ofPattern "ñ*" (folds s) = .ok r ∧ r.InOrder ∧
      (r.captures "añb".toList).map (·.whole.span) = [(0, 0), (1, 2), (3, 3)] ∧
      callPrimitive .top "replace-regexp-in-string"
        [.str 0 "ñ*", .str 0 itself, .str 0 "añb"] s = Eval.text "añb" s := by
  intro s
  have spans : (s.host.engine.ofPattern "ñ*" (folds s)).toOption.map
      (fun r => (r.captures "añb".toList).map (·.whole.span)) =
        some [(0, 0), (1, 2), (3, 3)] := by
    decide +kernel
  obtain ⟨r, compiled, spans⟩ := Option.map_eq_some_iff.mp spans
  have valid : s.host.engine.ofPattern "ñ*" (folds s) = .ok r := by
    cases made : s.host.engine.ofPattern "ñ*" (folds s) with
    | error fault =>
        rw [made] at compiled
        cases compiled
    | ok r' =>
        rw [made] at compiled
        cases compiled
        rfl
  have strict : folds s = false := by decide +kernel
  have written : extended automaton.escape "ñ*" = .ok "(?m)ñ*" := by decide +kernel
  have ordered : r.InOrder := by
    rw [strict] at valid
    exact inOrder_of_compile ((Engine.ofPattern_of_extended written).symm.trans valid)
  exact ⟨r, valid, ordered, spans, replaceRegexpInString_itself .top s valid ordered 0 0 0 "añb"⟩

end Primitives

end EditorLisp
