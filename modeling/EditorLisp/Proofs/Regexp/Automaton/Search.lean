import EditorLisp.Proofs.Regexp.Automaton.Frontier
import Mathlib.Data.List.TakeWhile

/-!
# What a search finds

A search finds a match if there is one, and no other match starts before the one it finds.
The ways that it keeps at a place are in the order of their starts.  Every way from a start that
could still lead to an earlier match is among them, or one to the same instruction that
starts no later; the ways that a match puts an end to come after it, so they start no earlier.
Which of several matches with the same start is found is a matter of preference, about which
nothing is said.  All matches in a text are found by one search after the other, so they come
in order.
-/

namespace EditorLisp.Regexp

open Text

/-- The start that a match remembers. -/
def beginOf (slots : Slots) : Nat := (slots[0]?.join).getD 0

/-- A way remembers the start of the whole match under the first number, and no instruction
changes it. -/
structure Program.Proper (p : Program) : Prop where
  keepsStart : p.KeepsStart
  groups_pos : 0 < p.groups

namespace Program

variable {p : Program} {text : Subject} {start pos a stop : Nat} {threads ways : List Thread} {best : Option Slots} {slots : Slots} {t : Thread}

/-- A match may start at a position that is at or behind the one where the search starts. -/
structure MayStart (text : Subject) (start a : Nat) : Prop where
  le : start ≤ a
  inside : a ≤ text.size

/-- A way at a position with where it has come from. -/
structure Comes (p : Program) (text : Subject) (start pos : Nat) (t : Thread) :
    Prop where
  way : p.Reaches text t.begin t.pc pos
  mayStart : MayStart text start t.begin
  remembers : t.slots[0]? = some (some t.begin)
  size_eq : t.slots.size = 2 * p.groups

/-- A match with the places it remembers, which ends at a position or before. -/
structure Found (p : Program) (text : Subject) (start pos : Nat) (slots : Slots) :
    Prop where
  mayStart : MayStart text start (beginOf slots)
  remembers : slots[0]? = some (some (beginOf slots))
  exists_stop : ∃ stop ≤ pos, slots[1]? = some (some stop) ∧ p.Matches text (beginOf slots) stop
  size_eq : slots.size = 2 * p.groups

/-- A start comes before the best match, if there is one. -/
def Better (best : Option Slots) (a : Nat) : Prop := ∀ slots, best = some slots → a < beginOf slots

/-- A search on its way to a position, with the ways that lead there. -/
structure Underway (p : Program) (text : Subject) (start pos : Nat)
    (threads : List Thread) (best : Option Slots) : Prop where
  comes : ∀ t ∈ threads, p.Comes text start pos t
  sorted : threads.Pairwise fun t t' => t.begin ≤ t'.begin
  ahead : ∀ slots, best = some slots → ∀ t ∈ threads, t.begin ≤ beginOf slots
  found : ∀ slots, best = some slots → p.Found text start pos slots
  /-- Starts at the position itself are taken care of when the search arrives there. -/
  complete : ∀ a q, MayStart text start a → Better best a → p.Arrives text a q pos →
    a = pos ∨ ∃ t ∈ threads, t.pc = q ∧ t.begin ≤ a
  passed : ∀ a stop, MayStart text start a → Better best a → stop < pos →
    ¬p.Matches text a stop

/-- A search at a position, with the ways that take the character there. -/
structure Arrived (p : Program) (text : Subject) (start pos : Nat)
    (ways : List Thread) (best : Option Slots) : Prop where
  comes : ∀ t ∈ ways, p.Comes text start pos t
  sorted : ways.Pairwise fun t t' => t.begin ≤ t'.begin
  ahead : ∀ slots, best = some slots → ∀ t ∈ ways, t.begin ≤ beginOf slots
  found : ∀ slots, best = some slots → p.Found text start pos slots
  complete : ∀ a q set next, MayStart text start a → Better best a →
    p.Reaches text a q pos → p.code[q]? = some (.one set next) → ∃ t ∈ ways, t.pc = q ∧ t.begin ≤ a
  passed : ∀ a stop, MayStart text start a → Better best a → stop ≤ pos →
    ¬p.Matches text a stop

theorem isDone_iff (rests : p.Rests t.pc) : p.isDone t = true ↔ p.code[t.pc]? = some .done := by
  unfold isDone
  rw [Array.getD_eq_getD_getElem?, beq_iff_eq]
  rcases rests with ⟨set, next, here⟩ | here
  · rw [here]
    exact ⟨nofun, nofun⟩
  · rw [here]
    exact ⟨fun _ => rfl, fun _ => rfl⟩

/-- A way that goes on from one that led to a place comes from the same start. -/
theorem Comes.goesOn {seed : Thread} (comes : p.Comes text start pos seed)
    (onward : p.GoesOn (text.place pos) seed.pc seed.slots t) : p.Comes text start pos t where
  way := onward.begin_eq ▸ comes.way.trans_skips onward.steps
  mayStart := onward.begin_eq ▸ comes.mayStart
  remembers := by rw [onward.start_eq, onward.begin_eq, comes.remembers]
  size_eq := onward.size_eq.trans comes.size_eq

/-- The way in which a search starts at a position. -/
theorem comes_entry (proper : p.Proper) (mayStart : MayStart text start pos) :
    (p.entry pos).begin = pos ∧ p.Comes text start pos (p.entry pos) := by
  have room : 0 < 2 * p.groups := Nat.mul_pos Nat.two_pos proper.groups_pos
  have first : (p.entry pos).slots[0]? = some (some pos) := by
    simp [entry, room]
  have begins : (p.entry pos).begin = pos := by
    rw [Thread.begin, first]
    rfl
  refine ⟨begins, ?_, ?_, ?_, ?_⟩
  · rw [begins]
    exact .start
  · rwa [begins]
  · rw [begins, first]
  · simp [entry]

/-- The ways that lead to a position, with the one that starts there. -/
def seeds (p : Program) (pos : Nat) (threads : List Thread) (best : Option Slots) :
    List Thread :=
  if best.isNone then threads ++ [p.entry pos] else threads

theorem Arrives.pos_eq {q : Nat} (arrives : p.Arrives text pos q pos) : q = p.start := by
  generalize same : pos = b at arrives
  cases arrives with
  | start => rfl
  | take way _ =>
      have := way.le
      omega

/-- A match that has been found ends no later than where the search is, so it started
before. -/
theorem Found.begin_le (found : p.Found text start pos slots) : beginOf slots ≤ pos := by
  obtain ⟨stop, le, -, pc, way, -⟩ := found.exists_stop
  exact Nat.le_trans way.le le

/-- The ways that a search follows at a position. -/
theorem Underway.seeds (underway : p.Underway text start pos threads best) (proper : p.Proper)
    (begun : start ≤ pos) (inside : pos ≤ text.size) :
    (∀ t ∈ p.seeds pos threads best, p.Comes text start pos t) ∧
      (p.seeds pos threads best).Pairwise (fun t t' => t.begin ≤ t'.begin) ∧
      (∀ slots, best = some slots → ∀ t ∈ p.seeds pos threads best, t.begin ≤ beginOf slots) ∧
      ∀ a q, MayStart text start a → Better best a → p.Arrives text a q pos →
        ∃ t ∈ p.seeds pos threads best, t.pc = q ∧ t.begin ≤ a := by
  unfold Program.seeds
  split
  next anew =>
      cases Option.isNone_iff_eq_none.mp anew
      have mayStart : MayStart text start pos := ⟨begun, inside⟩
      obtain ⟨begins, comes⟩ := comes_entry proper mayStart
      refine ⟨fun t member => ?_, ?_, nofun, fun a q mayStart better arrives => ?_⟩
      · rcases List.mem_append.mp member with earlier | this
        · exact underway.comes t earlier
        · exact List.mem_singleton.mp this ▸ comes
      · refine List.pairwise_append.mpr
          ⟨underway.sorted, List.pairwise_singleton _ _, fun t member t' this => ?_⟩
        rw [List.mem_singleton.mp this, begins]
        exact (underway.comes t member).way.le
      · rcases underway.complete a q mayStart better arrives with rfl | ⟨t, member, same, le⟩
        · exact ⟨_, List.mem_append_right _ (List.mem_singleton_self _), arrives.pos_eq.symm,
            Nat.le_of_eq begins⟩
        · exact ⟨t, List.mem_append_left _ member, same, le⟩
  next carriedOn =>
      refine ⟨underway.comes, underway.sorted, underway.ahead,
        fun a q mayStart better arrives => ?_⟩
      rcases underway.complete a q mayStart better arrives with rfl | there
      · -- A search only goes without a new start once it has found a match.
        cases best with
        | none => exact absurd rfl carriedOn
        | some slots =>
            exact absurd (better slots rfl) (Nat.not_lt.mpr (underway.found slots rfl).begin_le)
      · exact there

/-- The ways at a position, before the best match is noted. -/
theorem Underway.frontier (underway : p.Underway text start pos threads best)
    (proper : p.Proper) (begun : start ≤ pos) (inside : pos ≤ text.size) :
    let ways := p.frontier (text.place pos) (p.seeds pos threads best)
    (∀ t ∈ ways, p.Rests t.pc ∧ p.Comes text start pos t) ∧
      ways.Pairwise (fun t t' => t.begin ≤ t'.begin) ∧
      (∀ slots, best = some slots → ∀ t ∈ ways, t.begin ≤ beginOf slots) ∧
      ∀ a q, MayStart text start a → Better best a → p.Reaches text a q pos → p.Rests q →
        ∃ t ∈ ways, t.pc = q ∧ t.begin ≤ a := by
  intro ways
  obtain ⟨comes, sorted, ahead, complete⟩ := underway.seeds proper begun inside
  have origin {t : Thread} (member : t ∈ ways) := mem_frontier proper.keepsStart sorted member
  refine ⟨fun t member => ?_, sorted_frontier proper.keepsStart sorted,
    fun slots isBest t member => ?_, fun a q mayStart better way rests => ?_⟩
  · obtain ⟨rests, seed, given, onward⟩ := origin member
    exact ⟨rests, (comes seed given).goesOn onward⟩
  · obtain ⟨-, seed, given, onward⟩ := origin member
    exact onward.begin_eq ▸ ahead slots isBest seed given
  · obtain ⟨q', arrives, steps⟩ := way.exists_arrives
    obtain ⟨seed, given, rfl, le⟩ := complete a q' mayStart better arrives
    obtain ⟨t, member, same, le'⟩ :=
      exists_mem_frontier proper.keepsStart sorted given steps rests
    exact ⟨t, member, same, Nat.le_trans le' le⟩

theorem arrive_eq (p : Program) (text : Subject) (pos : Nat) (threads : List Thread)
    (best : Option Slots) :
    p.arrive text pos threads best =
      let ways := p.frontier (text.place pos) (p.seeds pos threads best)
      (ways, ((ways.find? p.isDone).map fun t => t.slots.setIfInBounds 1 (some pos)).or best) := by
  unfold arrive seeds
  dsimp only
  split
  next found => rw [found]; rfl
  next none => rw [none]; rfl

/-- The best match once ways at a position are known, and before that. -/
def noted (p : Program) (pos : Nat) (ways : List Thread) (best : Option Slots) : Option Slots :=
  ((ways.find? p.isDone).map fun t => t.slots.setIfInBounds 1 (some pos)).or best

theorem beginOf_setIfInBounds (slots : Slots) (stop : Option Nat) :
    beginOf (slots.setIfInBounds 1 stop) = beginOf slots := by
  rw [beginOf, Array.getElem?_setIfInBounds_ne Nat.one_ne_zero, beginOf]

/-- Ways that start before the best match come before the first one that is done, and that one
starts no later than what was best. -/
theorem noted_cases (p : Program) (pos : Nat)
    (sorted : ways.Pairwise fun t t' => t.begin ≤ t'.begin)
    (ahead : ∀ slots, best = some slots → ∀ t ∈ ways, t.begin ≤ beginOf slots) :
    (∀ slots, p.noted pos ways best = some slots →
        ∀ t ∈ ways.takeWhile (!p.isDone ·), t.begin ≤ beginOf slots) ∧
      ∀ a, Better (p.noted pos ways best) a →
        Better best a ∧ ∀ t ∈ ways, t.begin ≤ a → t ∈ ways.takeWhile (!p.isDone ·) := by
  unfold noted
  cases found : ways.find? p.isDone with
  | none =>
      have noneDone : ∀ t ∈ ways, (!p.isDone t) = true := fun t member => by
        simp [List.find?_eq_none.mp found t member]
      have all : ways.takeWhile (!p.isDone ·) = ways := List.takeWhile_eq_self_iff.mpr noneDone
      rw [all, Option.map_none, Option.none_or]
      exact ⟨ahead, fun a better => ⟨better, fun t member _ => member⟩⟩
  | some done =>
      obtain ⟨isDone, before, after, rfl, noneDone⟩ := List.find?_eq_some_iff_append.mp found
      have untilDone : (before ++ done :: after).takeWhile (!p.isDone ·) = before := by
        rw [List.takeWhile_append_of_pos noneDone, List.takeWhile_cons_of_neg (by simp [isDone]),
          List.append_nil]
      obtain ⟨-, sortedAfter, sortedBefore⟩ := List.pairwise_append.mp sorted
      have begins : beginOf (done.slots.setIfInBounds 1 (some pos)) = done.begin :=
        beginOf_setIfInBounds ..
      rw [untilDone, Option.map_some, Option.some_or]
      refine ⟨fun slots isBest t member => ?_, fun a better => ⟨fun slots isBest => ?_, ?_⟩⟩
      · cases isBest
        rw [begins]
        exact sortedBefore t member done List.mem_cons_self
      · have earlier := better _ rfl
        rw [begins] at earlier
        exact Nat.lt_of_lt_of_le earlier
          (ahead slots isBest done (List.mem_append_right _ List.mem_cons_self))
      · intro t member le
        have earlier := better _ rfl
        rw [begins] at earlier
        rcases List.mem_append.mp member with isBefore | notBefore
        · exact isBefore
        · have late : done.begin ≤ t.begin := by
            rcases List.mem_cons.mp notBefore with rfl | isAfter
            · exact Nat.le_refl _
            · exact (List.pairwise_cons.mp sortedAfter).1 t isAfter
          omega

/-- What is noted is a match. -/
theorem found_noted (proper : p.Proper)
    (comes : ∀ t ∈ ways, p.Rests t.pc ∧ p.Comes text start pos t)
    (found : ∀ slots, best = some slots → p.Found text start pos slots) :
    ∀ slots, p.noted pos ways best = some slots → p.Found text start pos slots := by
  intro slots isNoted
  unfold noted at isNoted
  cases first : ways.find? p.isDone with
  | none =>
      rw [first, Option.map_none, Option.none_or] at isNoted
      exact found slots isNoted
  | some done =>
      rw [first, Option.map_some, Option.some_or, Option.some.injEq] at isNoted
      subst isNoted
      have isDone := List.find?_some first
      obtain ⟨rests, came⟩ := comes done (List.mem_of_find?_eq_some first)
      have begins : beginOf (done.slots.setIfInBounds 1 (some pos)) = done.begin :=
        beginOf_setIfInBounds ..
      have room : 1 < done.slots.size := by
        have := proper.groups_pos
        rw [came.size_eq]
        omega
      refine ⟨begins ▸ came.mayStart, ?_, ⟨pos, Nat.le_refl pos, ?_, ?_⟩, ?_⟩
      · rw [begins, Array.getElem?_setIfInBounds_ne Nat.one_ne_zero, came.remembers]
      · simp [room]
      · rw [begins]
        exact ⟨done.pc, came.way, (isDone_iff rests).mp isDone⟩
      · rw [Array.size_setIfInBounds, came.size_eq]

/-- A search notes the first way that has come to the end of the program and goes on with
those before it. -/
theorem Underway.arrived (underway : p.Underway text start pos threads best)
    (proper : p.Proper) (begun : start ≤ pos) (inside : pos ≤ text.size) :
    p.Arrived text start pos
      ((p.arrive text pos threads best).1.takeWhile (!p.isDone ·))
      (p.arrive text pos threads best).2 := by
  obtain ⟨comes, sorted, ahead, complete⟩ := underway.frontier proper begun inside
  rw [arrive_eq]
  show p.Arrived text start pos
    ((p.frontier (text.place pos) (p.seeds pos threads best)).takeWhile (!p.isDone ·))
    (p.noted pos (p.frontier (text.place pos) (p.seeds pos threads best)) best)
  generalize p.frontier (text.place pos) (p.seeds pos threads best) = ways at *
  obtain ⟨aheadNoted, early⟩ := noted_cases p pos sorted ahead
  have isFound := found_noted proper comes underway.found
  have kept : (ways.takeWhile (!p.isDone ·)).Sublist ways := List.takeWhile_sublist _
  refine ⟨fun t member => (comes t (kept.subset member)).2, sorted.sublist kept, aheadNoted,
    isFound, fun a q set next mayStart better way here => ?_, fun a stop mayStart better le => ?_⟩
  · obtain ⟨betterBefore, inTime⟩ := early a better
    obtain ⟨t, member, same, le⟩ := complete a q mayStart betterBefore way (.inl ⟨set, next, here⟩)
    exact ⟨t, inTime t member le, same, le⟩
  · obtain ⟨betterBefore, inTime⟩ := early a better
    rcases Nat.lt_or_eq_of_le le with before | rfl
    · exact underway.passed a stop mayStart betterBefore before
    · rintro ⟨pc, way, done⟩
      obtain ⟨t, member, rfl, le⟩ := complete a pc mayStart betterBefore way (.inr done)
      have notDone := List.mem_takeWhile_imp (inTime t member le)
      rw [(isDone_iff (.inr done)).mpr done] at notDone
      cases notDone

/-- A way past a position has arrived there on its way. -/
theorem Reaches.exists_arrives_between {pc mid : Nat} (way : p.Reaches text a pc pos)
    (after : a < mid) (before : mid ≤ pos) : ∃ q, p.Arrives text a q mid := by
  induction way with
  | start => omega
  | skip _ _ ih => exact ih before
  | @take pc next pos _ _ way step ih =>
      rcases Nat.lt_or_eq_of_le before with inside | rfl
      · exact ih (Nat.le_of_lt_succ inside)
      · exact ⟨next, .take way step⟩

theorem mem_advance {c : Char} :
    t ∈ p.advance c ways ↔ ∃ way ∈ ways, ∃ set, p.code[way.pc]? = some (.one set t.pc) ∧
      set.accepts p.fold c = true ∧ t.slots = way.slots := by
  unfold advance
  rw [List.mem_filterMap]
  refine exists_congr fun way => and_congr_right fun _ => ?_
  rw [Array.getD_eq_getD_getElem?]
  cases here : p.code[way.pc]? with
  | none => simp
  | some i =>
      cases i with
      | one set next =>
          cases accepts : set.accepts p.fold c with
          | true =>
              simp only [Option.getD_some, accepts, if_true, Option.some.injEq]
              constructor
              · rintro rfl
                exact ⟨set, rfl, accepts, rfl⟩
              · rintro ⟨set', same, -, slots_eq⟩
                cases same
                exact slots_eq ▸ rfl
          | false =>
              simp only [Option.getD_some, accepts, Bool.false_eq_true, if_false, reduceCtorEq,
                false_iff, not_exists, not_and]
              intro set' same taken
              cases same
              rw [accepts] at taken
              cases taken
      | _ => simp

theorem begin_of_slots {way : Thread} (slots_eq : t.slots = way.slots) : t.begin = way.begin := by
  rw [Thread.begin, slots_eq, Thread.begin]

theorem sorted_advance (c : Char) (sorted : ways.Pairwise fun t t' => t.begin ≤ t'.begin) :
    (p.advance c ways).Pairwise fun t t' => t.begin ≤ t'.begin := by
  induction ways with
  | nil => exact .nil
  | cons way rest ih =>
      obtain ⟨first, sortedRest⟩ := List.pairwise_cons.mp sorted
      have split : p.advance c (way :: rest) = p.advance c [way] ++ p.advance c rest :=
        List.filterMap_append (l := [way])
      have begins {t : Thread} (member : t ∈ p.advance c [way]) : t.begin = way.begin := by
        obtain ⟨way', same, -, -, -, slots_eq⟩ := mem_advance.mp member
        cases List.mem_singleton.mp same
        exact begin_of_slots slots_eq
      rw [split]
      refine List.pairwise_append.mpr ⟨?_, ih sortedRest, fun t member t' later => ?_⟩
      · refine List.pairwise_of_forall_mem_list fun t member t' member' => ?_
        rw [begins member, begins member']
      · obtain ⟨way', given, -, -, -, slots_eq⟩ := mem_advance.mp later
        rw [begins member, begin_of_slots slots_eq]
        exact first way' given

theorem Found.mono {pos' : Nat} (found : p.Found text start pos slots) (le : pos ≤ pos') :
    p.Found text start pos' slots := by
  obtain ⟨stop, before, ends, isMatch⟩ := found.exists_stop
  exact { found with exists_stop := ⟨stop, Nat.le_trans before le, ends, isMatch⟩ }

/-- The ways that take the character at a position are those at the next one. -/
theorem Arrived.advance {c : Char} (arrived : p.Arrived text start pos ways best)
    (after : text.after? pos = some c) :
    p.Underway text start (pos + 1) (p.advance c ways) best where
  comes t member := by
    obtain ⟨way, given, set, here, accepts, slots_eq⟩ := mem_advance.mp member
    have came := arrived.comes way given
    have begins := begin_of_slots slots_eq
    exact ⟨begins ▸ came.way.take ⟨here, after, accepts⟩, begins ▸ came.mayStart,
      by rw [slots_eq, begins, came.remembers], slots_eq ▸ came.size_eq⟩
  sorted := sorted_advance c arrived.sorted
  ahead slots isBest t member := by
    obtain ⟨way, given, -, -, -, slots_eq⟩ := mem_advance.mp member
    rw [begin_of_slots slots_eq]
    exact arrived.ahead slots isBest way given
  found slots isBest := (arrived.found slots isBest).mono (Nat.le_succ pos)
  complete a q mayStart better arrives := by
    cases arrives with
    | start => exact .inl rfl
    | @take pc _ _ set d way step =>
        right
        cases after.symm.trans step.after
        obtain ⟨found, given, rfl, le⟩ := arrived.complete a pc set q mayStart better way step.here
        exact ⟨⟨q, found.slots⟩, mem_advance.mpr ⟨found, given, set, step.here, step.accepts, rfl⟩,
          rfl, le⟩
  passed a stop mayStart better before :=
    arrived.passed a stop mayStart better (Nat.le_of_lt_succ before)

/-- What a search has to answer: a match before which no other one starts, or none where there
is none. -/
structure Answers (p : Program) (text : Subject) (start : Nat)
    (answer : Option Slots) : Prop where
  found : ∀ slots, answer = some slots → ∃ pos, p.Found text start pos slots
  first : ∀ a stop, MayStart text start a → Better answer a → ¬p.Matches text a stop

/-- At the end of the text all matches have been passed. -/
theorem Arrived.answers (arrived : p.Arrived text start pos ways best)
    (past : text.size ≤ pos) : p.Answers text start best where
  found slots isBest := ⟨pos, arrived.found slots isBest⟩
  first a stop mayStart better isMatch := by
    obtain ⟨pc, way, done⟩ := isMatch
    have within := way.le_size mayStart.inside
    exact arrived.passed a stop mayStart better (Nat.le_trans within past) ⟨pc, way, done⟩

/-- Without ways left a search need not go on, once it has found something. -/
theorem Underway.answers_of_nil (underway : p.Underway text start (pos + 1) [] best)
    (ended : best.isSome = true) : p.Answers text start best where
  found slots isBest := ⟨pos + 1, underway.found slots isBest⟩
  first a stop mayStart better isMatch := by
    have early : a < pos + 1 := by
      obtain ⟨slots, isBest⟩ := Option.isSome_iff_exists.mp ended
      exact Nat.lt_of_lt_of_le (better slots isBest) (underway.found slots isBest).begin_le
    by_cases before : stop < pos + 1
    · exact underway.passed a stop mayStart better before isMatch
    · obtain ⟨pc, way, -⟩ := isMatch
      obtain ⟨q, arrives⟩ := way.exists_arrives_between early (Nat.le_of_not_lt before)
      rcases underway.complete a q mayStart better arrives with same | ⟨t, member, -⟩
      · omega
      · exact absurd member List.not_mem_nil

/-- A search answers as it should: the induction is on the room that is left. -/
theorem answers_searchOn (proper : p.Proper) (room : Nat)
    (whole : pos + room = text.size) (begun : start ≤ pos)
    (underway : p.Underway text start pos threads best) :
    p.Answers text start (p.searchOn text room pos threads best) := by
  induction room generalizing pos threads best with
  | zero =>
      have arrived := underway.arrived proper begun (by omega)
      exact arrived.answers (by omega)
  | succ room ih =>
      have arrived := underway.arrived proper begun (by omega)
      unfold searchOn
      generalize p.arrive text pos threads best = reached at arrived
      obtain ⟨ways, best⟩ := reached
      dsimp only at arrived ⊢
      split
      next none => exact arrived.answers (Subject.after?_eq_none_iff.mp none)
      next c after =>
          have next := arrived.advance after
          split
          next ended =>
              rw [Bool.and_eq_true, List.isEmpty_iff] at ended
              rw [ended.1] at next
              exact next.answers_of_nil ended.2
          next => exact ih (by omega) (by omega) next

/-! ## Answers as spans -/

/-- The span of the whole match, from what it remembers. -/
theorem Found.whole (found : p.Found text start pos slots) (proper : p.Proper) :
    ∃ stop, (spansOf slots).group? 0 = some (beginOf slots, stop) ∧
      (spansOf slots).whole = (beginOf slots, stop) ∧ p.Matches text (beginOf slots) stop := by
  obtain ⟨stop, -, ends, isMatch⟩ := found.exists_stop
  have first : (spansOf slots)[0]? = some (some (beginOf slots, stop)) := by
    have positive : 0 < slots.size / 2 := by
      have := proper.groups_pos
      rw [found.size_eq]
      omega
    unfold spansOf
    rw [List.getElem?_map, List.getElem?_range positive, Option.map_some,
      Array.getD_eq_getD_getElem?, Array.getD_eq_getD_getElem?, Nat.mul_zero, found.remembers, ends]
    rfl
  refine ⟨stop, ?_, ?_, isMatch⟩
  · rw [Spans.group?, first]
    rfl
  · rw [Spans.whole, List.head?_eq_getElem?, first]
    rfl

/-- An answer with a match is one with its spans. -/
theorem Answers.whole {answer : Option Slots} {spans : Spans}
    (answers : p.Answers text start answer) (proper : p.Proper)
    (isAnswer : answer.map spansOf = some spans) :
    ∃ a stop, spans.group? 0 = some (a, stop) ∧ spans.whole = (a, stop) ∧
      MayStart text start a ∧ p.Matches text a stop ∧
        ∀ b stop', MayStart text start b → b < a → ¬p.Matches text b stop' := by
  obtain ⟨slots, rfl, rfl⟩ := Option.map_eq_some_iff.mp isAnswer
  obtain ⟨pos, found⟩ := answers.found slots rfl
  obtain ⟨stop, group, whole, isMatch⟩ := found.whole proper
  refine ⟨beginOf slots, stop, group, whole, found.mayStart, isMatch, fun b stop' mayStart lt => ?_⟩
  exact answers.first b stop' mayStart fun slots' same => by cases same; exact lt

variable {spans : Spans}

theorem answers_search? (proper : p.Proper) (inside : start ≤ text.size) :
    p.Answers text start (p.searchOn text (text.size - start) start [] none) := by
  refine answers_searchOn proper _ (by omega) (Nat.le_refl start)
    ⟨?_, .nil, nofun, nofun, ?_, ?_⟩
  · exact List.forall_mem_nil _
  · intro a q mayStart _ arrives
    have := arrives.reaches.le
    exact .inl (Nat.le_antisymm this mayStart.le)
  · intro a stop mayStart _ before isMatch
    obtain ⟨pc, way, -⟩ := isMatch
    have := way.le
    have := mayStart.le
    omega

/-- What a search finds is a match from the first position at which there is one. -/
theorem search?_eq_some (proper : p.Proper) (inside : start ≤ text.size)
    (found : p.search? text start = some spans) :
    ∃ a stop, spans.group? 0 = some (a, stop) ∧ spans.whole = (a, stop) ∧ start ≤ a ∧
      a ≤ text.size ∧ p.Matches text a stop ∧
        ∀ b stop', start ≤ b → b < a → ¬p.Matches text b stop' := by
  obtain ⟨a, stop, group, whole, mayStart, isMatch, first⟩ :=
    (answers_search? proper inside).whole proper found
  refine ⟨a, stop, group, whole, mayStart.le, mayStart.inside, isMatch, fun b stop' le lt => ?_⟩
  exact first b stop' ⟨le, Nat.le_trans (Nat.le_of_lt lt) mayStart.inside⟩ lt

/-- A search that finds nothing passes by no match. -/
theorem search?_eq_none (proper : p.Proper) (inside : start ≤ text.size)
    (nothing : p.search? text start = none) :
    ∀ a stop, start ≤ a → a ≤ text.size → ¬p.Matches text a stop := by
  intro a stop le within
  rw [search?, Option.map_eq_none_iff] at nothing
  have answers := answers_search? proper inside
  rw [nothing] at answers
  exact answers.first a stop ⟨le, within⟩ nofun

/-! ## All matches in a text -/

/-- Matches one after the other in a text, from a position on: none overlaps the one before it. -/
inductive Successive (p : Program) (text : Subject) : Nat → List Spans → Prop
  | none {pos : Nat} (inside : pos ≤ text.size) : Successive p text pos []
  | next {pos first stop : Nat} {spans : Spans} {more : List Spans}
      (whole : spans.whole = (first, stop)) (group : spans.group? 0 = some (first, stop))
      (above : pos ≤ first) (isMatch : p.Matches text first stop)
      (rest : Successive p text stop more) : Successive p text pos (spans :: more)

/-- They are so from any position before. -/
theorem Successive.of_le {all : List Spans} (successive : p.Successive text pos all)
    (le : start ≤ pos) : p.Successive text start all := by
  cases successive with
  | none inside => exact .none (Nat.le_trans le inside)
  | next whole group above isMatch rest =>
      exact .next whole group (Nat.le_trans le above) isMatch rest

theorem Matches.le (isMatch : p.Matches text a stop) : a ≤ stop := by
  obtain ⟨_, way, -⟩ := isMatch
  exact way.le

theorem Matches.le_size (isMatch : p.Matches text a stop) (inside : a ≤ text.size) :
    stop ≤ text.size := by
  obtain ⟨_, way, -⟩ := isMatch
  exact way.le_size inside

/-- The induction is on the searches that are made.  Each goes on where the last match has ended, or
a character behind it if it would only find the empty match there. -/
theorem exists_successive (proper : p.Proper) (fuel : Nat)
    (inside : start ≤ text.size) (lastEnd : Option Nat) (found : List Spans) :
    ∃ more, p.matchesOn text fuel start lastEnd found = found.reverse ++ more ∧
      p.Successive text start more := by
  have ended {start : Nat} (inside : start ≤ text.size) (found : List Spans) :
      ∃ more, found.reverse = found.reverse ++ more ∧ p.Successive text start more :=
    ⟨[], (List.append_nil _).symm, .none inside⟩
  induction fuel generalizing start lastEnd found with
  | zero => exact ended inside found
  | succ fuel ih =>
      rw [matchesOn]
      cases search : p.search? text start with
      | none => exact ended inside found
      | some spans =>
          obtain ⟨first, stop, group, whole, above, within, isMatch, -⟩ :=
            search?_eq_some proper inside search
          simp only [whole]
          split_ifs with again before
          · obtain ⟨more, same, successive⟩ := ih before lastEnd found
            exact ⟨more, same, successive.of_le (Nat.le_succ start)⟩
          · exact ended inside found
          · obtain ⟨more, same, successive⟩ :=
              ih (isMatch.le_size within) (some stop) (spans :: found)
            refine ⟨spans :: more, ?_, .next whole group above isMatch successive⟩
            rw [same, List.reverse_cons, List.append_assoc, List.singleton_append]

theorem successive_allMatches (proper : p.Proper) :
    p.Successive text 0 (p.allMatches text) := by
  obtain ⟨more, same, successive⟩ :=
    exists_successive proper (2 * text.size + 3) (Nat.zero_le _) none []
  rw [allMatches, same]
  exact successive

end Program

/-! ## Answers as matches -/

section Matches

variable {p : Program} {text : List Char} {spans : Spans} {a stop pos : Nat}

/-- Spans between positions in order are those of a match between them. -/
theorem ofSpans?_eq_some (text : List Char) (group : spans.group? 0 = some (a, stop))
    (ordered : a ≤ stop) :
    ∃ c, Captures.ofSpans? text spans = some c ∧ c.whole.start = byteOffset text a ∧
      c.whole.stop = byteOffset text stop := by
  cases spans with
  | nil => cases group
  | cons whole groups =>
      cases (show whole = some (a, stop) from group)
      unfold Captures.ofSpans? Match.between?
      dsimp only
      rw [dif_pos ordered]
      exact ⟨_, rfl, rfl, rfl⟩

/-- What a search finds, as a match. -/
theorem Program.exists_capturesAt (proper : p.Proper) (inside : pos ≤ text.length)
    (found : p.search? (.ofList text) pos = some spans) :
    ∃ c, p.regex.capturesAt text (byteOffset text pos) = some c ∧
      p.Matches (.ofList text) c.whole.span.1 c.whole.span.2 ∧ pos ≤ c.whole.span.1 ∧
        ∀ b stop', pos ≤ b → b < c.whole.span.1 → ¬p.Matches (.ofList text) b stop' := by
  obtain ⟨a, stop, group, -, above, within, isMatch, first⟩ :=
    search?_eq_some proper inside found
  obtain ⟨c, made, start_eq, stop_eq⟩ := ofSpans?_eq_some text group isMatch.le
  have span : c.whole.span = (a, stop) := by
    unfold Match.span
    rw [start_eq, stop_eq, charOffset_byteOffset text a within,
      charOffset_byteOffset text stop (isMatch.le_size within)]
  refine ⟨c, ?_, ?_⟩
  · show (p.search? (.ofList text) (charOffset text (byteOffset text pos))).bind _ = _
    rw [charOffset_byteOffset text pos inside, found]
    exact made
  · rw [span]
    exact ⟨isMatch, above, first⟩

/-- A program finds the first of its matches. -/
theorem Program.finds_regex (proper : p.Proper) :
    p.regex.Finds fun text a stop => p.Matches (.ofList text) a stop := by
  have search_eq (text : List Char) {pos : Nat} (inside : pos ≤ text.length) :
      p.regex.capturesAt text (byteOffset text pos) =
        (p.search? (.ofList text) pos).bind (Captures.ofSpans? text) := by
    show (p.search? (.ofList text) (charOffset text (byteOffset text pos))).bind _ = _
    rw [charOffset_byteOffset text pos inside]
  constructor
  · intro text pos c inside captured
    cases found : p.search? (.ofList text) pos with
    | none =>
        rw [search_eq text inside, found] at captured
        cases captured
    | some spans =>
        obtain ⟨c', captured', first⟩ := exists_capturesAt proper inside found
        cases captured.symm.trans captured'
        exact first
  · intro text pos inside nothing
    cases found : p.search? (.ofList text) pos with
    | none => exact search?_eq_none proper inside found
    | some spans =>
        obtain ⟨c, captured, -⟩ := exists_capturesAt proper inside found
        cases nothing.symm.trans captured

/-- Matches one after the other are in order, all of them behind where the first one may start. -/
theorem Program.Successive.pairwise {all : List Spans}
    (successive : p.Successive (.ofList text) pos all) :
    (∀ c ∈ all.filterMap (Captures.ofSpans? text), byteOffset text pos ≤ c.whole.start) ∧
      (all.filterMap (Captures.ofSpans? text)).Pairwise
        fun c c' => c.whole.stop ≤ c'.whole.start := by
  induction successive with
  | none => exact ⟨List.forall_mem_nil _, .nil⟩
  | @next pos first stop spans more _ group above isMatch _ ih =>
      obtain ⟨c, made, start_eq, stop_eq⟩ := ofSpans?_eq_some text group isMatch.le
      obtain ⟨later, ordered⟩ := ih
      rw [List.filterMap_cons_some made]
      have ahead : byteOffset text pos ≤ byteOffset text first := byteOffset_le_byteOffset text above
      have whole : byteOffset text first ≤ byteOffset text stop :=
        byteOffset_le_byteOffset text isMatch.le
      refine ⟨List.forall_mem_cons.mpr ⟨start_eq ▸ ahead, fun c' member => ?_⟩,
        List.pairwise_cons.mpr ⟨fun c' member => stop_eq ▸ later c' member, ordered⟩⟩
      exact (ahead.trans whole).trans (later c' member)

theorem Program.inOrder_regex (proper : p.Proper) : p.regex.InOrder := fun _ =>
  (successive_allMatches proper).pairwise.2

end Matches

end EditorLisp.Regexp
