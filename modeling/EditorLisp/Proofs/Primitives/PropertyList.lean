import EditorLisp.Proofs.Evaluation.Call
import EditorLisp.Proofs.Levels
import EditorLisp.Proofs.Store.Lists
import EditorLisp.Proofs.Store.Equality

/-!
# Property lists

A property list has keys and values by turns.  Putting a value into it exchanges the value that is
there under the key, or links two more pairs to the pair that was passed last.  So a property list
is a finite map: whatever was put into it, in whatever order, under each key there is the value
that was put last, and the keys stand in the order in which they first came.  The map is changed
where it is, and whoever holds the list sees the change.
-/

namespace EditorLisp

open Eval Store

namespace Primitives

variable {key v : Value} {entries puts : List (Value × Value)}
  {st : Store} {refs : List Nat} {s t : Session}

/-! ## The map -/

/-- The value of the first property with a key, or the empty list. -/
def property (key : Value) (entries : List (Value × Value)) : Value :=
  ((entries.find? fun e => e.1.same key).map Prod.snd).getD .nil

theorem property_cons (key : Value) (e : Value × Value) (entries : List (Value × Value)) :
    property key (e :: entries) = if e.1.same key then e.2 else property key entries := by
  unfold property
  rw [List.find?_cons]
  split <;> simp_all

/-- A value is put under one key, and the other keys keep theirs. -/
theorem property_putProperty (key value other : Value) (entries : List (Value × Value)) :
    property other (putProperty key value entries) =
      if key.same other then value else property other entries := by
  induction entries with
  | nil => rw [putProperty, property_cons]
  | cons e entries ih =>
      rw [putProperty, property_cons]
      by_cases here : e.1.same key = true
      · obtain ⟨same, -⟩ := Value.same_iff.mp here
        rw [if_pos here, property_cons, same]
        split <;> rfl
      · rw [if_neg here, property_cons, ih]
        split
        next found =>
          rw [if_neg]
          intro same
          obtain ⟨rfl, -⟩ := Value.same_iff.mp same
          exact here found
        next => rfl

/-- A key that was not there comes last. -/
theorem keys_putProperty (key value : Value) (entries : List (Value × Value)) :
    (putProperty key value entries).map Prod.fst =
      if entries.any fun e => e.1.same key then entries.map Prod.fst
      else entries.map Prod.fst ++ [key] := by
  induction entries with
  | nil => rfl
  | cons e entries ih =>
      rw [putProperty, List.any_cons]
      by_cases here : e.1.same key = true
      · rw [if_pos here, here]
        rfl
      · rw [if_neg here, List.map_cons, ih, Bool.eq_false_iff.mpr here, Bool.false_or]
        split <;> rfl

/-- The properties after some were put in, one after the other. -/
def collected (puts : List (Value × Value)) : List (Value × Value) :=
  puts.foldl (fun entries e => putProperty e.1 e.2 entries) []

theorem collected_append (puts : List (Value × Value)) (key value : Value) :
    collected (puts ++ [(key, value)]) = putProperty key value (collected puts) := by
  unfold collected
  rw [List.foldl_append]
  rfl

/-- The keys that were used, in the order in which they came first. -/
def keysOf (puts : List (Value × Value)) : List Value :=
  (puts.map Prod.fst).eraseDupsBy Value.same

/-- One more key is a new one or is left out. -/
theorem eraseDupsBy_concat (keys : List Value) (key : Value) :
    (keys ++ [key]).eraseDupsBy Value.same =
      if (keys.eraseDupsBy Value.same).any fun k => k.same key then keys.eraseDupsBy Value.same
      else keys.eraseDupsBy Value.same ++ [key] := by
  induction h : keys.length using Nat.strong_induction_on generalizing keys with
  | _ n ih =>
    subst h
    cases keys with
    | nil => rfl
    | cons k keys =>
      -- what is the same as the first key is left out, and among the others there are fewer
      have shorter := List.length_filter_le (fun b => b.same k = false) keys
      have rest := ih _ (Nat.lt_succ_of_le shorter) (keys.filter fun b => b.same k = false) rfl
      rw [List.cons_append, List.eraseDupsBy_cons, List.eraseDupsBy_cons, List.filter_append,
        List.any_cons]
      cases first : k.same key with
      | true =>
          have left : [key].filter (fun b => b.same k = false) = [] := by
            simp [Value.same_comm key k, first]
          rw [left, List.append_nil, Bool.true_or, if_pos rfl]
      | false =>
          have kept : [key].filter (fun b => b.same k = false) = [key] := by
            simp [Value.same_comm key k, first]
          rw [kept, rest, Bool.false_or]
          split <;> rfl

theorem keysOf_append (puts : List (Value × Value)) (key value : Value) :
    keysOf (puts ++ [(key, value)]) =
      if (keysOf puts).any fun k => k.same key then keysOf puts else keysOf puts ++ [key] := by
  unfold keysOf
  rw [List.map_append]
  exact eraseDupsBy_concat _ _

theorem mem_keysOf : key ∈ keysOf puts ↔ ∃ value, (key, value) ∈ puts := by
  induction puts using List.reverseRecOn with
  | nil => simp [keysOf]
  | append_singleton puts e ih =>
      obtain ⟨k, w⟩ := e
      rw [keysOf_append]
      split
      next known =>
        obtain ⟨k', member, same⟩ := List.any_eq_true.mp known
        cases Value.eq_of_same same
        rw [ih]
        refine ⟨fun ⟨value, found⟩ => ⟨value, List.mem_append_left _ found⟩, ?_⟩
        rintro ⟨value, found⟩
        rcases List.mem_append.mp found with before | last
        · exact ⟨value, before⟩
        · cases List.mem_singleton.mp last
          exact ih.mp member
      next =>
        simp [ih, exists_or]

/-- Keys that are identical to themselves do not come twice. -/
theorem nodup_keysOf (ordinary : ∀ e ∈ puts, ∀ x, e.1 ≠ .float x) : (keysOf puts).Nodup := by
  induction puts using List.reverseRecOn with
  | nil => exact List.nodup_nil
  | append_singleton puts e ih =>
      obtain ⟨before, last⟩ := List.forall_mem_append.mp ordinary
      rw [keysOf_append]
      split
      next => exact ih before
      next new =>
        refine List.nodup_append.mpr ⟨ih before, List.nodup_singleton _, ?_⟩
        rintro k member _ (_ | ⟨_, ⟨⟩⟩) rfl
        have itself := Value.same_iff.mpr ⟨rfl, last e (List.mem_singleton_self e)⟩
        exact new (List.any_eq_true.mpr ⟨_, member, itself⟩)

theorem keys_collected (puts : List (Value × Value)) :
    (collected puts).map Prod.fst = keysOf puts := by
  induction puts using List.reverseRecOn with
  | nil => rfl
  | append_singleton puts e ih =>
      have known : (collected puts).any (fun e' => e'.1.same e.1) =
          (keysOf puts).any fun k => k.same e.1 := by
        rw [← ih, List.any_map]
        rfl
      rw [collected_append, keys_putProperty, keysOf_append, known, ih]

/-- Under each key there is the value that was put last. -/
theorem property_collected (key : Value) (puts : List (Value × Value)) :
    property key (collected puts) = property key puts.reverse := by
  induction puts using List.reverseRecOn with
  | nil => rfl
  | append_singleton puts e ih =>
      rw [collected_append, property_putProperty, List.reverse_concat, property_cons, ih]

theorem property_of_mem {e : Value × Value} (ordinary : ∀ x, e.1 ≠ .float x)
    (different : (entries.map Prod.fst).Nodup) (member : e ∈ entries) :
    property e.1 entries = e.2 := by
  induction entries with
  | nil => cases member
  | cons e' entries ih =>
      obtain ⟨notLater, different⟩ := List.nodup_cons.mp different
      rw [property_cons]
      rcases List.mem_cons.mp member with rfl | later
      · rw [if_pos (Value.same_iff.mpr ⟨rfl, ordinary⟩)]
      · rw [if_neg, ih different later]
        intro same
        exact notLater (Value.eq_of_same same ▸ List.mem_map_of_mem later)

/-- Some keys in the order in which they first came, and the values that were put last. -/
theorem collected_eq (ordinary : ∀ e ∈ puts, ∀ x, e.1 ≠ .float x) :
    collected puts = (keysOf puts).map fun key => (key, property key puts.reverse) := by
  have different : ((collected puts).map Prod.fst).Nodup :=
    keys_collected puts ▸ nodup_keysOf ordinary
  rw [← keys_collected, List.map_map]
  refine (List.map_id _).symm.trans (List.map_congr_left fun e member => ?_)
  have used : e.1 ∈ keysOf puts := keys_collected puts ▸ List.mem_map_of_mem member
  obtain ⟨value, put⟩ := mem_keysOf.mp used
  have itself : ∀ x, e.1 ≠ .float x := ordinary (e.1, value) put
  have found := property_of_mem itself different member
  rw [property_collected] at found
  exact Prod.ext rfl found.symm

/-! ## The list -/

/-- Keys and values by turns. -/
def alternating (entries : List (Value × Value)) : List Value :=
  entries.flatMap fun e => [e.1, e.2]

theorem exists_of_alternating_cons {e : Value × Value}
    (listed : st.ListsAt v refs (alternating (e :: entries))) :
    ∃ i j next later, v = .cons i ∧ refs = i :: j :: later ∧
      st.pairs[i]? = some ⟨e.1, .cons j⟩ ∧ st.pairs[j]? = some ⟨e.2, next⟩ ∧
        st.ListsAt next later (alternating entries) := by
  obtain ⟨i, _, _, rfl, rfl, keyThere, rest⟩ := listed.uncons
  obtain ⟨j, next, later, rfl, rfl, valueThere, rest⟩ := rest.uncons
  exact ⟨i, j, next, later, rfl, rfl, keyThere, valueThere, rest⟩

theorem alternating_append (entries entries' : List (Value × Value)) :
    alternating (entries ++ entries') = alternating entries ++ alternating entries' :=
  List.flatMap_append

theorem length_alternating (entries : List (Value × Value)) :
    (alternating entries).length = 2 * entries.length := by
  induction entries with
  | nil => rfl
  | cons e entries ih =>
      rw [List.length_cons, Nat.mul_succ, ← ih]
      rfl

theorem findProperty_nil (st : Store) (key lastValue : Value) (fuel : Nat) :
    findProperty st key fuel lastValue .nil = .error lastValue := by
  cases fuel <;> rfl

/-- One key is looked at, and its value is passed if it is another key. -/
theorem findProperty_cons {i j : Nat} {k w next : Value}
    (keyThere : st.pairs[i]? = some ⟨k, .cons j⟩) (valueThere : st.pairs[j]? = some ⟨w, next⟩)
    (key : Value) (fuel : Nat) (lastValue : Value) :
    findProperty st key (fuel + 1) lastValue (.cons i) =
      if k.same key then .ok (.cons j) else findProperty st key fuel (.cons j) next := by
  rw [findProperty, cdr_of_there keyThere, car_of_there keyThere, cdr_of_there valueThere]
  rfl

/-- A key that is in a property list is found with its value, which can be exchanged. -/
theorem findProperty_found {fuel : Nat} (lastValue : Value)
    (listed : st.ListsAt v refs (alternating entries))
    (found : (entries.any fun e => e.1.same key) = true) (enough : entries.length ≤ fuel) :
    ∃ ref ∈ refs, findProperty st key fuel lastValue v = .ok (.cons ref) ∧
      st.car (.cons ref) = property key entries ∧
        ∀ new, (st.setCar (.cons ref) new).ListsAt v refs
          (alternating (putProperty key new entries)) := by
  induction entries generalizing v refs fuel lastValue with
  | nil => cases found
  | cons e entries ih =>
      have different := listed.nodup
      obtain ⟨i, j, next, later, rfl, rfl, keyThere, valueThere, rest⟩ :=
        exists_of_alternating_cons listed
      obtain ⟨iNotLater, different⟩ := List.nodup_cons.mp different
      obtain ⟨jNotLater, -⟩ := List.nodup_cons.mp different
      obtain ⟨fuel, rfl⟩ : ∃ n, fuel = n + 1 :=
        Nat.exists_eq_add_one_of_ne_zero (Nat.ne_of_gt (Nat.lt_of_lt_of_le (Nat.succ_pos _) enough))
      rw [findProperty_cons keyThere valueThere, property_cons]
      simp only [putProperty]
      cases here : e.1.same key with
      | true =>
          refine ⟨j, List.mem_cons_of_mem _ List.mem_cons_self, rfl, car_of_there valueThere,
            fun new => ?_⟩
          have different : j ≠ i := ne_of_mem_of_not_mem List.mem_cons_self iNotLater
          exact .cons ((getElem?_setCar_of_ne st different new).trans keyThere)
            (.cons (getElem?_setCar_self valueThere new) (rest.setCar jNotLater new))
      | false =>
          rw [List.any_cons, here, Bool.false_or] at found
          obtain ⟨ref, member, passed, value, exchanged⟩ :=
            ih (.cons j) rest found (Nat.le_of_succ_le_succ enough)
          have further : ref ∈ j :: later := List.mem_cons_of_mem _ member
          refine ⟨ref, List.mem_cons_of_mem _ further, passed, value, fun new => ?_⟩
          have notKey : ref ≠ i := ne_of_mem_of_not_mem further iNotLater
          have notValue : ref ≠ j := ne_of_mem_of_not_mem member jNotLater
          exact .cons ((getElem?_setCar_of_ne st notKey new).trans keyThere)
            (.cons ((getElem?_setCar_of_ne st notValue new).trans valueThere) (exchanged new))

/-- A key that is not in a property list is looked for up to the last pair. -/
theorem findProperty_missing {fuel : Nat} (lastValue : Value)
    (listed : st.ListsAt v refs (alternating entries))
    (missing : (entries.any fun e => e.1.same key) = false) (enough : entries.length ≤ fuel) :
    findProperty st key fuel lastValue v =
      .error ((refs.getLast?.map Value.cons).getD lastValue) := by
  induction entries generalizing v refs fuel lastValue with
  | nil =>
      cases listed
      exact findProperty_nil ..
  | cons e entries ih =>
      obtain ⟨i, j, next, later, rfl, rfl, keyThere, valueThere, rest⟩ :=
        exists_of_alternating_cons listed
      obtain ⟨fuel, rfl⟩ : ∃ n, fuel = n + 1 :=
        Nat.exists_eq_add_one_of_ne_zero (Nat.ne_of_gt (Nat.lt_of_lt_of_le (Nat.succ_pos _) enough))
      rw [List.any_cons, Bool.or_eq_false_iff] at missing
      rw [findProperty_cons keyThere valueThere, missing.1,
        ih (.cons j) rest missing.2 (Nat.le_of_succ_le_succ enough)]
      rw [List.getLast?_cons, List.getLast?_cons]
      cases later.getLast? <;> rfl

theorem putProperty_of_missing (missing : (entries.any fun e => e.1.same key) = false)
    (value : Value) : putProperty key value entries = entries ++ [(key, value)] := by
  induction entries with
  | nil => rfl
  | cons e entries ih =>
      rw [List.any_cons, Bool.or_eq_false_iff] at missing
      rw [putProperty, missing.1, ih missing.2]
      rfl

theorem property_of_missing (missing : (entries.any fun e => e.1.same key) = false) :
    property key entries = .nil := by
  have absent : (entries.find? fun e => e.1.same key) = none :=
    List.find?_eq_none.mpr fun e member => by
      simpa using List.any_eq_false.mp missing e member
  rw [property, absent]
  rfl

/-- There are pairs enough to look at every key. -/
theorem length_le_pairs (listed : st.ListsAt v refs (alternating entries)) :
    entries.length ≤ st.pairs.size + 1 := by
  have whole := listed.length_eq ▸ listed.length_le
  rw [length_alternating] at whole
  omega

/-- What is looked up in a property list is there. -/
theorem plistGet_eq (I : Interp) (listed : s.store.ListsAt v refs (alternating entries))
    (key : Value) : plistGet I [v, key] s = .ok (property key entries) s := by
  have enough := length_le_pairs listed
  have read : store s = .ok s.store s := rfl
  refine (bind_of_ok _ rfl).trans ((bind_of_ok _ read).trans ?_)
  cases known : entries.any fun e => e.1.same key with
  | true =>
      obtain ⟨ref, -, found, value, -⟩ := findProperty_found .nil listed known enough
      have looked : findProperty s.store (arg [v, key] 1) (s.store.pairs.size + 1) .nil
          (arg [v, key] 0) = .ok (.cons ref) := found
      simp only [looked, ← value]
      rfl
  | false =>
      have looked : findProperty s.store (arg [v, key] 1) (s.store.pairs.size + 1) .nil
          (arg [v, key] 0) = _ := findProperty_missing .nil listed known enough
      simp only [looked, property_of_missing known]
      rfl

theorem plistPut_of_found (I : Interp) {valuePair : Value}
    (found : findProperty s.store key (s.store.pairs.size + 1) .nil v = .ok valuePair)
    (value : Value) :
    plistPut I [v, key, value] s = .ok v { s with store := s.store.setCar valuePair value } := by
  have looked : (get fun s => findProperty s.store (arg [v, key, value] 1)
      (s.store.pairs.size + 1) .nil (arg [v, key, value] 0)) s = .ok (.ok valuePair) s :=
    congrArg (Outcome.ok · s) found
  exact (bind_of_ok _ rfl).trans (bind_of_ok _ looked)

theorem plistPut_of_missing (I : Interp) {lastValue : Value}
    (missing : findProperty s.store key (s.store.pairs.size + 1) .nil v = .error lastValue)
    (value : Value) :
    plistPut I [v, key, value] s =
      if lastValue.isCons then
        .ok v { s with
          store := (s.store.list [key, value]).2.setCdr lastValue (s.store.list [key, value]).1 }
      else .ok (s.store.list [key, value]).1 { s with store := (s.store.list [key, value]).2 } := by
  have looked : (get fun s => findProperty s.store (arg [v, key, value] 1)
      (s.store.pairs.size + 1) .nil (arg [v, key, value] 0)) s = .ok (.error lastValue) s :=
    congrArg (Outcome.ok · s) missing
  have made : (list [arg [v, key, value] 1, arg [v, key, value] 2]) s =
      .ok (s.store.list [key, value]).1 { s with store := (s.store.list [key, value]).2 } := rfl
  refine (bind_of_ok _ rfl).trans ((bind_of_ok _ looked).trans ((bind_of_ok _ made).trans ?_))
  cases lastValue.isCons <;> rfl

/-- A value is put into a property list where it is, unless it is empty. -/
theorem plistPut_eq (I : Interp) (listed : s.store.ListsAt v refs (alternating entries))
    (key value : Value) :
    ∃ result store refs', plistPut I [v, key, value] s = .ok result { s with store } ∧
      store.ListsAt result refs' (alternating (putProperty key value entries)) ∧
        (v ≠ .nil → result = v) := by
  have enough := length_le_pairs listed
  cases known : entries.any fun e => e.1.same key with
  | true =>
      obtain ⟨ref, -, found, -, exchanged⟩ :=
        findProperty_found .nil listed known enough
      exact ⟨v, _, refs, plistPut_of_found I found value, exchanged value, fun _ => rfl⟩
  | false =>
      obtain ⟨added, made, kept, -, fresh⟩ := exists_listsAt_list s.store [key, value]
      have missing := findProperty_missing .nil listed known enough
      rw [putProperty_of_missing known, alternating_append]
      cases last : refs.getLast? with
      | none =>
          obtain rfl := List.getLast?_eq_none_iff.mp last
          obtain ⟨rfl, empty⟩ := listed.eq_nil
          rw [empty]
          exact ⟨_, _, added, plistPut_of_missing I missing value, made, (absurd rfl ·)⟩
      | some ref =>
          rw [last] at missing
          have apart : refs.Disjoint added := fun k old new =>
            absurd (listed.lt_size old) (Nat.not_lt.mpr (fresh k new))
          exact ⟨v, _, _, plistPut_of_missing I missing value,
            (listed.mono kept).append last made apart, fun _ => rfl⟩

/-! ## One value after the other -/

theorem primitive?_plistGet : primitive? "plist-get" = some plistGet :=
  primitive?_of_lists rfl

theorem primitive?_plistPut : primitive? "plist-put" = some plistPut :=
  primitive?_of_lists rfl

/-- One more value can be put into the list, which is the same list unless it was empty. -/
theorem plistPut_applies (listed : s.store.ListsAt v refs (alternating entries))
    (key value : Value) :
    ∃ result t refs', Interp.Applies (.subr "plist-put") [v, key, value] s (.ok result t) ∧
      t.store.ListsAt result refs' (alternating (putProperty key value entries)) ∧
        (v ≠ .nil → result = v) := by
  obtain ⟨result, store, refs', run, listed', same⟩ := plistPut_eq (.ofLevel 0) listed key value
  exact ⟨result, _, refs', .of_primitive? primitive?_plistPut (fun _ => run) nofun, listed', same⟩

/-- A variable is the empty list at first, and is set to what it is when one more value is put into
it, time and again.  In the meantime anything may happen that leaves the list as it is. -/
inductive PutInTurn : Session → Value → List (Value × Value) → Prop
  | start (s : Session) : PutInTurn s .nil []
  | put {s t : Session} {v result key value : Value} {puts : List (Value × Value)} :
      PutInTurn s v puts → (∀ x, key ≠ .float x) →
        Interp.Applies (.subr "plist-put") [v, key, value] s (.ok result t) →
          PutInTurn t result (puts ++ [(key, value)])
  | meanwhile {s t : Session} {v : Value} {puts : List (Value × Value)} :
      PutInTurn s v puts →
        (∀ refs items, s.store.ListsAt v refs items → t.store.ListsAt v refs items) →
          PutInTurn t v puts

namespace PutInTurn

theorem ordinary (history : PutInTurn s v puts) : ∀ e ∈ puts, ∀ x, e.1 ≠ .float x := by
  induction history with
  | start => exact List.forall_mem_nil _
  | put _ ordinary _ ih =>
      exact List.forall_mem_append.mpr ⟨ih, List.forall_mem_singleton.mpr ordinary⟩
  | meanwhile _ _ ih => exact ih

/-- The list has the properties that were put into it. -/
theorem exists_listsAt (history : PutInTurn s v puts) :
    ∃ refs, s.store.ListsAt v refs (alternating (collected puts)) := by
  induction history with
  | start => exact ⟨[], .nil⟩
  | put _ _ applies ih =>
      obtain ⟨refs, listed⟩ := ih
      obtain ⟨result, t, refs', applies', listed', -⟩ := plistPut_applies listed _ _
      cases applies.unique applies'
      rw [collected_append]
      exact ⟨refs', listed'⟩
  | meanwhile _ unchanged ih =>
      obtain ⟨refs, listed⟩ := ih
      exact ⟨refs, unchanged _ _ listed⟩

/-- A property list is a finite map.  It has the keys that were used, each of them once and in the
order in which they first came, and after each key the value that was put last.  That is what is
looked up under the key, and under other keys there is nothing.  One more value can always be put
into it, and unless it is empty, the list that it is put into is still the same pair. -/
theorem reads_back (history : PutInTurn s v puts) :
    s.store.Lists v ((keysOf puts).flatMap fun key => [key, property key puts.reverse]) ∧
      (keysOf puts).Nodup ∧ (∀ key, key ∈ keysOf puts ↔ ∃ value, (key, value) ∈ puts) ∧
        (∀ key, Interp.Applies (.subr "plist-get") [v, key] s
          (.ok (property key puts.reverse) s)) ∧
          ∀ key value, ∃ result t,
            Interp.Applies (.subr "plist-put") [v, key, value] s (.ok result t) ∧
              (v ≠ .nil → result = v) := by
  obtain ⟨refs, listed⟩ := history.exists_listsAt
  refine ⟨?_, nodup_keysOf history.ordinary, fun _ => mem_keysOf, fun key => ?_,
    fun key value => ?_⟩
  · have items := listed.lists
    rw [collected_eq history.ordinary, alternating, List.flatMap_map] at items
    exact items
  · rw [← property_collected]
    exact .of_primitive? primitive?_plistGet (fun I => plistGet_eq I listed key) nofun
  · obtain ⟨result, t, -, applies, -, same⟩ := plistPut_applies listed key value
    exact ⟨result, t, applies, same⟩

/-- The pairs of `(:a 3 :b 2)`, in the order in which they were made. -/
def threePuts : Store where
  pairs := #[⟨.int 3, .cons 3⟩, ⟨.keyword ":a", .cons 0⟩, ⟨.int 2, .nil⟩, ⟨.keyword ":b", .cons 2⟩]

/-- Of two values under one key the second one is there, and at the place of the first. -/
theorem reads_back_threePuts :
    PutInTurn { store := threePuts } (.cons 1)
        [(.keyword ":a", .int 1), (.keyword ":b", .int 2), (.keyword ":a", .int 3)] ∧
      threePuts.Lists (.cons 1) [.keyword ":a", .int 3, .keyword ":b", .int 2] := by
  have history : PutInTurn { store := threePuts } (.cons 1)
      [(.keyword ":a", .int 1), (.keyword ":b", .int 2), (.keyword ":a", .int 3)] := by
    have first := @put _ _ _ _ (.keyword ":a") (.int 1) _ (.start {}) nofun
      (.of_primitive? primitive?_plistPut (fun I => rfl) nofun)
    have second := @put _ _ _ _ (.keyword ":b") (.int 2) _ first nofun
      (.of_primitive? primitive?_plistPut (fun I => rfl) nofun)
    exact @put _ _ _ _ (.keyword ":a") (.int 3) _ second nofun
      (.of_primitive? primitive?_plistPut (fun I => rfl) nofun)
  exact ⟨history, (reads_back history).1⟩

end PutInTurn

end Primitives

end EditorLisp
