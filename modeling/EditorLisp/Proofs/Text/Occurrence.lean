import Mathlib.Data.List.Infix

/-!
# Occurrences of a word

Where a word stands in a text, which occurrence comes first or last, and what is left of a text that
is cut at them.
-/

namespace EditorLisp

variable {word chars : List Char} {bound pos next next' a a' target target' count : Nat}
  {backward : Bool}

/-- A word stands at a position. -/
def Occurs (word chars : List Char) (a : Nat) : Prop := word <+: chars.drop a

/-- The first occurrence at or after a position. -/
structure Earliest (word chars : List Char) (pos a : Nat) : Prop where
  le : pos ≤ a
  occurs : Occurs word chars a
  first : ∀ c, pos ≤ c → c < a → ¬Occurs word chars c

/-- The last occurrence that ends at or before a position. -/
structure Latest (word chars : List Char) (pos a : Nat) : Prop where
  le : a + word.length ≤ pos
  occurs : Occurs word chars a
  last : ∀ c, a < c → c + word.length ≤ pos → ¬Occurs word chars c

/-- The occurrence that comes next from a position without passing a bound: where it starts, and
where one goes on from. -/
inductive NextOccurrence (word chars : List Char) (bound : Nat) : Bool → Nat → Nat → Nat → Prop
  | forward {pos a : Nat} (earliest : Earliest word chars pos a)
      (inside : a + word.length ≤ bound) :
      NextOccurrence word chars bound false pos a (a + word.length)
  | backward {pos a : Nat} (latest : Latest word chars pos a) (inside : bound ≤ a) :
      NextOccurrence word chars bound true pos a a

/-- So many successive occurrences: where the last one starts, and where one goes on from. -/
inductive Occurrences (word chars : List Char) (bound : Nat) (backward : Bool) :
    Nat → Nat → Nat → Nat → Prop
  | one {pos a target : Nat} (next : NextOccurrence word chars bound backward pos a target) :
      Occurrences word chars bound backward 1 pos a target
  | more {count pos c mid a target : Nat}
      (next : NextOccurrence word chars bound backward pos c mid)
      (rest : Occurrences word chars bound backward count mid a target) :
      Occurrences word chars bound backward (count + 1) pos a target

theorem occurs_cons {c : Char} :
    Occurs (c :: word) chars a ↔ chars[a]? = some c ∧ Occurs word chars (a + 1) := by
  unfold Occurs
  rw [List.cons_prefix_iff]
  constructor
  · rintro ⟨tail, split, rest⟩
    have next : chars[a]? = some c := by
      rw [← List.head?_drop, split, List.head?_cons]
    have tail_eq : chars.drop (a + 1) = tail := by
      rw [← List.tail_drop, split, List.tail_cons]
    exact ⟨next, tail_eq ▸ rest⟩
  · rintro ⟨next, rest⟩
    obtain ⟨inside, same⟩ := List.getElem?_eq_some_iff.mp next
    exact ⟨chars.drop (a + 1), by rw [List.drop_eq_getElem_cons inside, same], rest⟩

/-- A word stands where its first part does if the next character follows. -/
theorem Occurs.concat {c : Char} (occurs : Occurs word chars a)
    (next : chars[a + word.length]? = some c) : Occurs (word ++ [c]) chars a := by
  induction word generalizing a with
  | nil => exact occurs_cons.mpr ⟨next, List.nil_prefix⟩
  | cons d word ih =>
      obtain ⟨first, rest⟩ := occurs_cons.mp occurs
      refine occurs_cons.mpr ⟨first, ih rest ?_⟩
      rwa [Nat.add_right_comm, Nat.add_assoc]

theorem Earliest.unique (one : Earliest word chars pos a) (other : Earliest word chars pos a') :
    a = a' := by
  rcases Nat.lt_trichotomy a a' with before | same | after
  · exact absurd one.occurs (other.first a one.le before)
  · exact same
  · exact absurd other.occurs (one.first a' other.le after)

theorem Latest.unique (one : Latest word chars pos a) (other : Latest word chars pos a') :
    a = a' := by
  rcases Nat.lt_trichotomy a a' with before | same | after
  · exact absurd other.occurs (one.last a' before other.le)
  · exact same
  · exact absurd one.occurs (other.last a after one.le)

theorem NextOccurrence.unique (one : NextOccurrence word chars bound backward pos a next)
    (other : NextOccurrence word chars bound backward pos a' next') : a = a' ∧ next = next' := by
  cases one with
  | forward earliest _ =>
      cases other with
      | forward earliest' _ =>
          cases earliest.unique earliest'
          exact ⟨rfl, rfl⟩
  | backward latest _ =>
      cases other with
      | backward latest' _ =>
          cases latest.unique latest'
          exact ⟨rfl, rfl⟩

theorem Occurrences.count_pos
    (occurrences : Occurrences word chars bound backward count pos a target) : 0 < count := by
  cases occurrences with
  | one _ => exact Nat.one_pos
  | more _ _ => exact Nat.succ_pos _

theorem Occurrences.unique (one : Occurrences word chars bound backward count pos a target)
    (other : Occurrences word chars bound backward count pos a' target') :
    a = a' ∧ target = target' := by
  induction one with
  | one next =>
      cases other with
      | one next' => exact next.unique next'
      | more _ rest => exact absurd rest.count_pos (Nat.lt_irrefl 0)
  | more next rest ih =>
      cases other with
      | one _ => exact absurd rest.count_pos (Nat.lt_irrefl 0)
      | more next' rest' =>
          obtain ⟨rfl, rfl⟩ := next.unique next'
          exact ih rest'

theorem Occurrences.occurs
    (occurrences : Occurrences word chars bound backward count pos a target) :
    Occurs word chars a := by
  induction occurrences with
  | one next =>
      cases next with
      | forward earliest _ => exact earliest.occurs
      | backward latest _ => exact latest.occurs
  | more _ _ ih => exact ih

theorem Occurs.add_length_le (occurs : Occurs word chars a) (nonempty : word ≠ []) :
    a + word.length ≤ chars.length := by
  have positive := List.length_pos_iff.mpr nonempty
  have shorter := List.IsPrefix.length_le occurs
  rw [List.length_drop] at shorter
  omega

/-- Where a text is cut off, occurrences of a word are those that end before. -/
theorem occurs_take (nonempty : word ≠ []) :
    Occurs word (chars.take bound) a ↔ Occurs word chars a ∧ a + word.length ≤ bound := by
  have positive := List.length_pos_iff.mpr nonempty
  unfold Occurs
  rw [List.drop_take, List.prefix_take_iff]
  exact and_congr_right fun _ => by omega

/-! ## A text cut at a word -/

variable {parts parts' : List (List Char)}

/-- The parts of a text that is cut at the first occurrence of a word, and behind it in the same
way. -/
inductive Cuts (word : List Char) : List Char → List (List Char) → Prop
  | whole {chars : List Char} (absent : ∀ a, ¬Occurs word chars a) : Cuts word chars [chars]
  | cut {chars : List Char} {a : Nat} {parts : List (List Char)}
      (earliest : Earliest word chars 0 a)
      (rest : Cuts word (chars.drop (a + word.length)) parts) :
      Cuts word chars (chars.take a :: parts)

theorem Cuts.ne_nil (cuts : Cuts word chars parts) : parts ≠ [] := by
  cases cuts <;> exact List.cons_ne_nil _ _

/-- What a word stands in front of is the word and what is behind it. -/
theorem Occurs.append_drop (occurs : Occurs word chars a) :
    word ++ chars.drop (a + word.length) = chars.drop a := by
  rw [← List.drop_drop]
  exact (List.prefix_append_drop occurs).symm

/-- The parts with the word between them are the text. -/
theorem Cuts.intercalate_eq (cuts : Cuts word chars parts) : word.intercalate parts = chars := by
  induction cuts with
  | whole absent => exact List.intercalate_singleton
  | @cut chars a parts earliest rest ih =>
      rw [List.intercalate_cons_of_ne_nil rest.ne_nil, ih, List.append_assoc,
        earliest.occurs.append_drop, List.take_append_drop]

/-- A text is cut in one way only. -/
theorem Cuts.unique (one : Cuts word chars parts) (other : Cuts word chars parts') :
    parts = parts' := by
  induction one generalizing parts' with
  | whole absent =>
      cases other with
      | whole _ => rfl
      | cut earliest _ => exact absurd earliest.occurs (absent _)
  | cut earliest _ ih =>
      cases other with
      | whole absent => exact absurd earliest.occurs (absent _)
      | cut earliest' rest' =>
          cases earliest.unique earliest'
          rw [ih rest']

theorem occurs_drop : Occurs word (chars.drop pos) a ↔ Occurs word chars (pos + a) := by
  unfold Occurs
  rw [List.drop_drop]

/-- The first occurrence from a position on is the first one in what is left from there. -/
theorem Earliest.of_drop (earliest : Earliest word chars pos a) :
    Earliest word (chars.drop pos) 0 (a - pos) where
  le := Nat.zero_le _
  occurs := by
    rw [occurs_drop, Nat.add_sub_cancel' earliest.le]
    exact earliest.occurs
  first c _ before := by
    rw [occurs_drop]
    exact earliest.first _ (Nat.le_add_right ..) (by omega)

end EditorLisp
