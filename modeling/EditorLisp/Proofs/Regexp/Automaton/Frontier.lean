import EditorLisp.Proofs.Regexp.Automaton.Ways
import Mathlib.Data.Finset.Card
import Mathlib.Data.List.Pairwise

/-!
# Ways at one place

Following a way passes every instruction that it leads to without taking a character, each of
them once, and stops at those that take one and at the end of the program.  Of several ways
that are followed one after the other, a later one stops nowhere that an earlier one has
passed.  So of two ways to the same instruction the one that comes first is kept, and ways in
the order of their starts stay in that order.
-/

namespace EditorLisp.Regexp

/-- Where a way starts, according to what it remembers. -/
def Thread.begin (t : Thread) : Nat := (t.slots[0]?.join).getD 0

namespace Frontier

/-- An instruction has been passed, or is none of the program. -/
def Has (f : Frontier) (pc : Nat) : Prop := f.seen.getD pc true = true

/-- The number of instructions not passed yet. -/
def room (f : Frontier) : Nat :=
  ((Finset.range f.seen.size).filter fun pc => f.seen.getD pc true = false).card

/-- With an instruction passed. -/
def mark (f : Frontier) (pc : Nat) : Frontier := { f with seen := f.seen.setIfInBounds pc true }

variable {f : Frontier} {pc q : Nat}

theorem lt_size_of_not_has (new : ¬f.Has pc) : pc < f.seen.size := by
  by_contra outside
  apply new
  rw [Has, Array.getD_eq_getD_getElem?, Array.getElem?_eq_none (Nat.le_of_not_lt outside)]
  rfl

@[simp]
theorem size_mark (f : Frontier) (pc : Nat) : (f.mark pc).seen.size = f.seen.size :=
  Array.size_setIfInBounds

theorem has_mark_iff (new : ¬f.Has pc) : (f.mark pc).Has q ↔ q = pc ∨ f.Has q := by
  unfold Has mark
  rw [Array.getD_eq_getD_getElem?, Array.getD_eq_getD_getElem?, Array.getElem?_setIfInBounds]
  by_cases same : pc = q
  · subst same
    simp [lt_size_of_not_has new]
  · simp [same, Ne.symm same]

theorem room_le_size (f : Frontier) : f.room ≤ f.seen.size :=
  (Finset.card_filter_le ..).trans (Nat.le_of_eq (Finset.card_range _))

theorem room_mono {f' : Frontier} (size_eq : f'.seen.size = f.seen.size)
    (mono : ∀ q, f.Has q → f'.Has q) : f'.room ≤ f.room := by
  refine Finset.card_le_card fun q member => ?_
  obtain ⟨inside, unseen⟩ := Finset.mem_filter.mp member
  rw [size_eq] at inside
  refine Finset.mem_filter.mpr ⟨inside, Bool.eq_false_iff.mpr fun there => ?_⟩
  rw [mono q there] at unseen
  cases unseen

theorem room_mark (new : ¬f.Has pc) : (f.mark pc).room < f.room := by
  refine Finset.card_lt_card (Finset.ssubset_iff_of_subset (fun q member => ?_) |>.mpr ⟨pc, ?_, ?_⟩)
  · obtain ⟨inside, unseen⟩ := Finset.mem_filter.mp member
    rw [size_mark] at inside
    refine Finset.mem_filter.mpr ⟨inside, Bool.eq_false_iff.mpr fun there => ?_⟩
    rw [(has_mark_iff new).mpr (.inr there)] at unseen
    cases unseen
  · exact Finset.mem_filter.mpr
      ⟨Finset.mem_range.mpr (lt_size_of_not_has new), Bool.eq_false_iff.mpr new⟩
  · intro member
    have unseen := (Finset.mem_filter.mp member).2
    rw [(has_mark_iff new).mpr (.inl rfl)] at unseen
    cases unseen

end Frontier

namespace Program

variable {p : Program} {place : Place} {pc q fuel : Nat} {slots : Slots} {f f' f'' : Frontier}

/-- A way stops at an instruction that takes a character and at the end of the program. -/
def Rests (p : Program) (pc : Nat) : Prop :=
  (∃ set next, p.code[pc]? = some (.one set next)) ∨ p.code[pc]? = some .done

theorem rests_iff {i : Instruction} (here : p.code[pc]? = some i) :
    p.Rests pc ↔ (∃ set next, i = .one set next) ∨ i = .done := by
  unfold Rests
  rw [here]
  simp only [Option.some.injEq]

theorem Skips.not_rests {next : Nat} (step : p.Skips place pc next) : ¬p.Rests pc := by
  rintro (⟨set, after, here⟩ | here)
  · exact absurd (step.mem_onward here) List.not_mem_nil
  · exact absurd (step.mem_onward here) List.not_mem_nil

/-- No instruction remembers a place as the start of the whole match. -/
def KeepsStart (p : Program) : Prop :=
  ∀ (pc slot next : Nat), p.code[pc]? = some (.save slot next) → slot ≠ 0

/-- A way that goes on from an instruction without taking a character: it has started where
the way there has. -/
structure GoesOn (p : Program) (place : Place) (pc : Nat) (slots : Slots) (t : Thread) : Prop where
  steps : Relation.ReflTransGen (p.Skips place) pc t.pc
  size_eq : t.slots.size = slots.size
  start_eq : t.slots[0]? = slots[0]?

/-- What following ways of some kind does to the instructions passed and to the ways found. -/
structure Grows (p : Program) (place : Place) (kind : Thread → Prop) (f f' : Frontier) : Prop where
  size_eq : f'.seen.size = f.seen.size
  mono : ∀ q, f.Has q → f'.Has q
  closed : ∀ q q', f'.Has q → ¬f.Has q → p.Skips place q q' → f'.Has q'
  exists_new : ∃ new, f'.threads = new ++ f.threads ∧ (∀ t ∈ new, p.Rests t.pc ∧ kind t) ∧
    ∀ q, f'.Has q → ¬f.Has q → p.Rests q → ∃ t ∈ new, t.pc = q

namespace Grows

variable {kind kind' : Thread → Prop}

theorem refl (f : Frontier) : p.Grows place kind f f :=
  ⟨rfl, fun _ there => there, fun _ _ there new => absurd there new,
    [], rfl, List.forall_mem_nil _, fun _ there new => absurd there new⟩

theorem mono_kind (grows : p.Grows place kind f f') (weaker : ∀ t, kind t → kind' t) :
    p.Grows place kind' f f' := by
  obtain ⟨new, threads_eq, sound, complete⟩ := grows.exists_new
  exact ⟨grows.size_eq, grows.mono, grows.closed, new, threads_eq,
    fun t member => (sound t member).imp_right (weaker t), complete⟩

theorem trans (first : p.Grows place kind f f') (second : p.Grows place kind f' f'') :
    p.Grows place kind f f'' := by
  obtain ⟨new, threads_eq, sound, complete⟩ := first.exists_new
  obtain ⟨new', threads_eq', sound', complete'⟩ := second.exists_new
  refine ⟨second.size_eq.trans first.size_eq, fun q there => second.mono q (first.mono q there),
    fun q q' there new step => ?_, new' ++ new, ?_, fun t member => ?_,
    fun q there new rests => ?_⟩
  · by_cases before : f'.Has q
    · exact second.mono _ (first.closed q q' before new step)
    · exact second.closed q q' there before step
  · rw [threads_eq', threads_eq, List.append_assoc]
  · exact (List.mem_append.mp member).elim (sound' t) (sound t)
  · by_cases before : f'.Has q
    · obtain ⟨t, member, same⟩ := complete q before new rests
      exact ⟨t, List.mem_append_right _ member, same⟩
    · obtain ⟨t, member, same⟩ := complete' q there before rests
      exact ⟨t, List.mem_append_left _ member, same⟩

/-- Before the ways that go on from it, an instruction is passed itself. -/
theorem of_mark {i : Instruction} (here : p.code[pc]? = some i) (new : ¬f.Has pc)
    (moves : ¬p.Rests pc) (grows : p.Grows place kind (f.mark pc) f')
    (onward : ∀ q ∈ i.onward place, f'.Has q) : p.Grows place kind f f' := by
  obtain ⟨threads, threads_eq, sound, complete⟩ := grows.exists_new
  have marked (q : Nat) (unseen : ¬f.Has q) (other : q ≠ pc) : ¬(f.mark pc).Has q := fun there =>
    ((Frontier.has_mark_iff new).mp there).elim other unseen
  refine ⟨grows.size_eq.trans (f.size_mark pc), fun q there => ?_,
    fun q q' there unseen step => ?_, threads, threads_eq, sound, fun q there unseen rests => ?_⟩
  · exact grows.mono q ((Frontier.has_mark_iff new).mpr (.inr there))
  · by_cases same : q = pc
    · subst same
      exact onward q' (step.mem_onward here)
    · exact grows.closed q q' there (marked q unseen same) step
  · have other : q ≠ pc := fun same => moves (same ▸ rests)
    exact complete q there (marked q unseen other) rests

/-- A way that stops at an instruction is found. -/
theorem stop {t : Thread} (new : ¬f.Has t.pc) (rests : p.Rests t.pc) (isKind : kind t) :
    p.Grows place kind f { f.mark t.pc with threads := t :: f.threads } := by
  have has_iff (q : Nat) : Frontier.Has { f.mark t.pc with threads := t :: f.threads } q ↔
      q = t.pc ∨ f.Has q := Frontier.has_mark_iff new
  refine ⟨f.size_mark t.pc, fun q there => (has_iff q).mpr (.inr there),
    fun q q' there unseen step => ?_, [t], rfl, ?_, fun q there unseen _ => ?_⟩
  · have same : q = t.pc := ((has_iff q).mp there).resolve_right unseen
    subst same
    exact absurd rests step.not_rests
  · exact List.forall_mem_singleton.mpr ⟨rests, isKind⟩
  · exact ⟨t, List.mem_singleton_self t, (((has_iff q).mp there).resolve_right unseen).symm⟩

theorem closed_all (grows : p.Grows place kind f f')
    (closed : ∀ q q', f.Has q → p.Skips place q q' → f.Has q') (q q' : Nat) (there : f'.Has q)
    (step : p.Skips place q q') : f'.Has q' := by
  by_cases before : f.Has q
  · exact grows.mono q' (closed q q' before step)
  · exact grows.closed q q' there before step

theorem complete_all (grows : p.Grows place kind f f')
    (complete : ∀ q, f.Has q → p.Rests q → ∃ t ∈ f.threads, t.pc = q) (q : Nat) (there : f'.Has q)
    (rests : p.Rests q) : ∃ t ∈ f'.threads, t.pc = q := by
  obtain ⟨new, threads_eq, -, completeNew⟩ := grows.exists_new
  rw [threads_eq]
  by_cases before : f.Has q
  · obtain ⟨found, member, same⟩ := complete q before rests
    exact ⟨found, List.mem_append_right _ member, same⟩
  · obtain ⟨found, member, same⟩ := completeNew q there before rests
    exact ⟨found, List.mem_append_left _ member, same⟩

end Grows

theorem GoesOn.of_step {next : Nat} {slots' : Slots} {t : Thread} (step : p.Skips place pc next)
    (size_eq : slots'.size = slots.size) (start_eq : slots'[0]? = slots[0]?)
    (onward : p.GoesOn place next slots' t) : p.GoesOn place pc slots t :=
  ⟨.head step onward.steps, onward.size_eq.trans size_eq, onward.start_eq.trans start_eq⟩

/-- An instruction with one way on is passed before that way is followed. -/
theorem Grows.of_next {i : Instruction} {next : Nat} {slots' : Slots}
    (here : p.code[pc]? = some i) (onward : i.onward place = [next]) (new : ¬f.Has pc)
    (step : p.Skips place pc next) (size_eq : slots'.size = slots.size)
    (start_eq : slots'[0]? = slots[0]?)
    (rest : p.Grows place (p.GoesOn place next slots') (f.mark pc) f' ∧ f'.Has next) :
    p.Grows place (p.GoesOn place pc slots) f f' ∧ f'.Has pc := by
  have found := rest.1.mono_kind fun t => GoesOn.of_step step size_eq start_eq
  refine ⟨found.of_mark here new step.not_rests ?_, rest.1.mono pc ?_⟩
  · rw [onward]
    exact List.forall_mem_singleton.mpr rest.2
  · exact (Frontier.has_mark_iff new).mpr (.inl rfl)

/-- Of two ways on the second one is followed with what the first one has passed and found. -/
theorem Grows.of_branch {first second : Nat} (here : p.code[pc]? = some (.branch first second))
    (new : ¬f.Has pc)
    (left : p.Grows place (p.GoesOn place first slots) (f.mark pc) f' ∧ f'.Has first)
    (right : p.Grows place (p.GoesOn place second slots) f' f'' ∧ f''.Has second) :
    p.Grows place (p.GoesOn place pc slots) f f'' ∧ f''.Has pc := by
  have found := (left.1.mono_kind fun t => GoesOn.of_step (.first here) rfl rfl).trans
    (right.1.mono_kind fun t => GoesOn.of_step (.second here) rfl rfl)
  have step : p.Skips place pc first := .first here
  have onward : ∀ q ∈ (Instruction.branch first second).onward place, f''.Has q :=
    List.forall_mem_cons.mpr ⟨right.1.mono _ left.2, List.forall_mem_singleton.mpr right.2⟩
  exact ⟨found.of_mark here new step.not_rests onward,
    found.mono pc ((Frontier.has_mark_iff new).mpr (.inl rfl))⟩

/-- The induction is on the fuel, of which there is more than instructions not passed yet. -/
theorem grows_follow (keeps : p.KeepsStart) (place : Place) (fuel pc : Nat) (slots : Slots)
    (f : Frontier) (size : f.seen.size = p.code.size) (enough : f.room < fuel) :
    p.Grows place (p.GoesOn place pc slots) f (p.follow place fuel pc slots f) ∧
      (p.follow place fuel pc slots f).Has pc := by
  induction fuel generalizing pc slots f with
  | zero => exact absurd enough (Nat.not_lt_zero _)
  | succ fuel ih =>
      unfold follow
      split
      next seen => exact ⟨.refl f, seen⟩
      next unseen =>
          have new : ¬f.Has pc := unseen
          have inside : pc < p.code.size := size ▸ Frontier.lt_size_of_not_has new
          obtain ⟨i, here⟩ : ∃ i, p.code[pc]? = some i := ⟨_, Array.getElem?_eq_getElem inside⟩
          have fetched : p.code.getD pc .done = i := by
            rw [Array.getD_eq_getD_getElem?, here, Option.getD_some]
          have less : (f.mark pc).room < fuel :=
            Nat.lt_of_lt_of_le (Frontier.room_mark new) (Nat.le_of_lt_succ enough)
          have sizeMark : (f.mark pc).seen.size = p.code.size := (f.size_mark pc).trans size
          have passed : (f.mark pc).Has pc := (Frontier.has_mark_iff new).mpr (.inl rfl)
          rw [fetched]
          cases i with
          | one set next =>
              have rests : p.Rests pc := .inl ⟨set, next, here⟩
              exact ⟨.stop (t := ⟨pc, slots⟩) new rests ⟨.refl, rfl, rfl⟩, passed⟩
          | done => exact ⟨.stop (t := ⟨pc, slots⟩) new (.inr here) ⟨.refl, rfl, rfl⟩, passed⟩
          | look l next =>
              dsimp only
              split
              next holds =>
                  exact Grows.of_next here (if_pos holds) new (.look here holds) rfl rfl
                    (ih next slots (f.mark pc) sizeMark less)
              next fails =>
                  have moves : ¬p.Rests pc := by simp [rests_iff here]
                  refine ⟨(Grows.refl (f.mark pc)).of_mark here new moves ?_, passed⟩
                  rw [Instruction.onward, if_neg fails]
                  exact List.forall_mem_nil _
          | save slot next =>
              have start_eq : (slots.setIfInBounds slot (some place.pos))[0]? = slots[0]? :=
                Array.getElem?_setIfInBounds_ne (keeps pc slot next here)
              exact Grows.of_next here rfl new (.save here) Array.size_setIfInBounds start_eq
                (ih next _ (f.mark pc) sizeMark less)
          | branch first second =>
              have left := ih first slots (f.mark pc) sizeMark less
              have lessAgain :=
                Nat.lt_of_le_of_lt (Frontier.room_mono left.1.size_eq left.1.mono) less
              exact Grows.of_branch here new left
                (ih second slots _ (left.1.size_eq.trans sizeMark) lessAgain)

/-! ## Several ways after each other -/

theorem GoesOn.begin_eq {seed t : Thread} (onward : p.GoesOn place seed.pc seed.slots t) :
    t.begin = seed.begin := by
  rw [Thread.begin, onward.start_eq, Thread.begin]

/-- What has been passed and found once some ways, in the order of their starts, have been
followed. -/
structure Gathered (p : Program) (place : Place) (seeds : List Thread) (f : Frontier) : Prop where
  size_eq : f.seen.size = p.code.size
  closed : ∀ q q', f.Has q → p.Skips place q q' → f.Has q'
  has : ∀ t ∈ seeds, f.Has t.pc
  sound : ∀ t ∈ f.threads, p.Rests t.pc ∧ ∃ seed ∈ seeds, p.GoesOn place seed.pc seed.slots t
  complete : ∀ q, f.Has q → p.Rests q → ∃ t ∈ f.threads, t.pc = q
  /-- The ways found are listed with the last one first. -/
  sorted : f.threads.Pairwise fun t t' => t'.begin ≤ t.begin
  /-- Wherever a way leads it is found, or one that starts no later. -/
  first : ∀ seed ∈ seeds, ∀ q, Relation.ReflTransGen (p.Skips place) seed.pc q → p.Rests q →
    ∃ t ∈ f.threads, t.pc = q ∧ t.begin ≤ seed.begin

theorem Skips.lt_size {q' : Nat} (step : p.Skips place q q') : q < p.code.size := by
  cases step with
  | look here => exact (Array.getElem?_eq_some_iff.mp here).1
  | save here => exact (Array.getElem?_eq_some_iff.mp here).1
  | first here => exact (Array.getElem?_eq_some_iff.mp here).1
  | second here => exact (Array.getElem?_eq_some_iff.mp here).1

theorem Rests.lt_size (rests : p.Rests q) : q < p.code.size := by
  rcases rests with ⟨set, next, here⟩ | here
  · exact (Array.getElem?_eq_some_iff.mp here).1
  · exact (Array.getElem?_eq_some_iff.mp here).1

theorem gathered_nil (p : Program) (place : Place) :
    p.Gathered place [] { seen := Array.replicate p.code.size false } := by
  have nothing (q : Nat) (inside : q < p.code.size) :
      ¬Frontier.Has { seen := Array.replicate p.code.size false } q := by
    simp [Frontier.Has, Array.getD_eq_getD_getElem?, inside]
  exact ⟨Array.size_replicate, fun q _ there step => absurd there (nothing q step.lt_size),
    List.forall_mem_nil _, List.forall_mem_nil _,
    fun q there rests => absurd there (nothing q rests.lt_size), .nil, List.forall_mem_nil _⟩

theorem has_of_steps (closed : ∀ q q', f.Has q → p.Skips place q q' → f.Has q')
    (has : f.Has pc) (steps : Relation.ReflTransGen (p.Skips place) pc q) : f.Has q := by
  induction steps with
  | refl => exact has
  | tail _ step ih => exact closed _ _ ih step

namespace Gathered

variable {seeds : List Thread} {t : Thread}

/-- With one more way every way found goes on from one that was followed. -/
theorem sound_concat (gathered : p.Gathered place seeds f)
    (grows : p.Grows place (p.GoesOn place t.pc t.slots) f f') :
    ∀ found ∈ f'.threads,
      p.Rests found.pc ∧ ∃ seed ∈ seeds ++ [t], p.GoesOn place seed.pc seed.slots found := by
  obtain ⟨new, threads_eq, sound, -⟩ := grows.exists_new
  intro found member
  rw [threads_eq] at member
  rcases List.mem_append.mp member with isNew | isOld
  · obtain ⟨rests, onward⟩ := sound found isNew
    exact ⟨rests, t, List.mem_append_right _ (List.mem_singleton_self t), onward⟩
  · obtain ⟨rests, seed, given, onward⟩ := gathered.sound found isOld
    exact ⟨rests, seed, List.mem_append_left _ given, onward⟩

/-- What is found by then starts no later than the way that is followed last. -/
theorem begin_le (gathered : p.Gathered place seeds f)
    (later : ∀ seed ∈ seeds, seed.begin ≤ t.begin)
    (grows : p.Grows place (p.GoesOn place t.pc t.slots) f f') :
    ∀ found ∈ f'.threads, found.begin ≤ t.begin := by
  intro found member
  obtain ⟨-, seed, given, onward⟩ := gathered.sound_concat grows found member
  rw [onward.begin_eq]
  rcases List.mem_append.mp given with earlier | this
  · exact later seed earlier
  · rw [List.mem_singleton.mp this]

theorem sorted_concat (gathered : p.Gathered place seeds f)
    (later : ∀ seed ∈ seeds, seed.begin ≤ t.begin)
    (grows : p.Grows place (p.GoesOn place t.pc t.slots) f f') :
    f'.threads.Pairwise fun found found' => found'.begin ≤ found.begin := by
  obtain ⟨new, threads_eq, sound, -⟩ := grows.exists_new
  have begins := gathered.begin_le later grows
  rw [threads_eq] at begins ⊢
  refine List.pairwise_append.mpr ⟨?_, gathered.sorted, fun found isNew old isOld => ?_⟩
  · refine List.pairwise_of_forall_mem_list fun found isNew other isNew' => ?_
    rw [(sound found isNew).2.begin_eq, (sound other isNew').2.begin_eq]
  · rw [(sound found isNew).2.begin_eq]
    exact begins old (List.mem_append_right _ isOld)

theorem concat (gathered : p.Gathered place seeds f) (later : ∀ seed ∈ seeds, seed.begin ≤ t.begin)
    (grows : p.Grows place (p.GoesOn place t.pc t.slots) f f') (has : f'.Has t.pc) :
    p.Gathered place (seeds ++ [t]) f' where
  size_eq := grows.size_eq.trans gathered.size_eq
  closed := grows.closed_all gathered.closed
  has := by
    intro seed given
    rcases List.mem_append.mp given with earlier | this
    · exact grows.mono _ (gathered.has seed earlier)
    · rw [List.mem_singleton.mp this]
      exact has
  sound := gathered.sound_concat grows
  complete := grows.complete_all gathered.complete
  sorted := gathered.sorted_concat later grows
  first := by
    intro seed given q steps rests
    rcases List.mem_append.mp given with earlier | this
    · obtain ⟨found, member, same, le⟩ := gathered.first seed earlier q steps rests
      obtain ⟨new, threads_eq, -⟩ := grows.exists_new
      exact ⟨found, threads_eq ▸ List.mem_append_right _ member, same, le⟩
    · cases List.mem_singleton.mp this
      have there := has_of_steps (grows.closed_all gathered.closed) has steps
      obtain ⟨found, member, same⟩ := grows.complete_all gathered.complete q there rests
      exact ⟨found, member, same, gathered.begin_le later grows found member⟩

end Gathered

/-- The ways at a place that come from ways in the order of their starts. -/
theorem gathered_foldl (keeps : p.KeepsStart) (place : Place) {seeds : List Thread}
    (sorted : seeds.Pairwise fun t t' => t.begin ≤ t'.begin) :
    p.Gathered place seeds
      (seeds.foldl (fun f t => p.follow place (p.code.size + 1) t.pc t.slots f)
        { seen := Array.replicate p.code.size false }) := by
  induction seeds using List.reverseRecOn with
  | nil => exact gathered_nil p place
  | append_singleton seeds t ih =>
      obtain ⟨sortedBefore, -, later⟩ := List.pairwise_append.mp sorted
      have gathered := ih sortedBefore
      rw [List.foldl_concat]
      have enough := Nat.lt_succ_of_le (gathered.size_eq ▸ Frontier.room_le_size _)
      obtain ⟨grows, has⟩ := grows_follow keeps place (p.code.size + 1) t.pc t.slots _
        gathered.size_eq enough
      have latest (seed : Thread) (given : seed ∈ seeds) : seed.begin ≤ t.begin :=
        later seed given t (List.mem_singleton_self t)
      exact gathered.concat latest grows has

/-- Every way at a place goes on from one that led there, and stops. -/
theorem mem_frontier (keeps : p.KeepsStart) {seeds : List Thread}
    (sorted : seeds.Pairwise fun t t' => t.begin ≤ t'.begin) {t : Thread}
    (found : t ∈ p.frontier place seeds) :
    p.Rests t.pc ∧ ∃ seed ∈ seeds, p.GoesOn place seed.pc seed.slots t :=
  (gathered_foldl keeps place sorted).sound t (List.mem_reverse.mp found)

theorem sorted_frontier (keeps : p.KeepsStart) {seeds : List Thread}
    (sorted : seeds.Pairwise fun t t' => t.begin ≤ t'.begin) :
    (p.frontier place seeds).Pairwise fun t t' => t.begin ≤ t'.begin :=
  List.pairwise_reverse.mpr (gathered_foldl keeps place sorted).sorted

/-- Wherever a way leads it is among the ways at the place, or one that starts no later. -/
theorem exists_mem_frontier (keeps : p.KeepsStart) {seeds : List Thread}
    (sorted : seeds.Pairwise fun t t' => t.begin ≤ t'.begin) {seed : Thread} (given : seed ∈ seeds)
    (steps : Relation.ReflTransGen (p.Skips place) seed.pc q) (rests : p.Rests q) :
    ∃ t ∈ p.frontier place seeds, t.pc = q ∧ t.begin ≤ seed.begin := by
  obtain ⟨t, member, same, le⟩ :=
    (gathered_foldl keeps place sorted).first seed given q steps rests
  exact ⟨t, List.mem_reverse.mpr member, same, le⟩

end Program

end EditorLisp.Regexp
