import EditorLisp.Proofs.Text.Occurrence
import EditorLisp.Proofs.Text.Offset
import EditorLisp.Regexp.Engine
import EditorLisp.Regexp.Look

/-!
# Laws for engines

What is assumed of an engine where something depends on it.  A regular expression is told apart
by where it matches, as a relation between a text and two positions; which of several matches from
one position is preferred is left open.

Conditions on a place see the characters on either side of it and nothing else.  So a match depends
on the text up to its end, and on the conditions that hold there.
-/

namespace EditorLisp.Regexp

open Text

/-! ## Matches as spans -/

section Spans

variable {text : List Char}

theorem Match.byteOffset_span (m : Match text) :
    byteOffset text m.span.1 = m.start ∧ byteOffset text m.span.2 = m.stop :=
  ⟨m.start_boundary.byteOffset_charOffset, m.stop_boundary.byteOffset_charOffset⟩

theorem Match.span_ordered (m : Match text) : m.span.1 ≤ m.span.2 :=
  monotone_charOffset text m.ordered

theorem Match.span_le (m : Match text) : m.span.2 ≤ text.length := charOffset_le_length text m.stop

/-- No span ends behind a position. -/
def Spans.Inside (limit : Nat) (spans : Spans) : Prop :=
  ∀ start stop, some (start, stop) ∈ spans → start ≤ limit ∧ stop ≤ limit

theorem Spans.Inside.mono {limit limit' : Nat} {spans : Spans} (inside : spans.Inside limit)
    (le : limit ≤ limit') : spans.Inside limit' := fun start stop member =>
  (inside start stop member).imp (·.trans le) (·.trans le)

theorem Captures.inside_spans (c : Captures text) : c.spans.Inside text.length := by
  intro start stop member
  obtain ⟨group, -, same⟩ := List.mem_map.mp member
  obtain ⟨m, -, span⟩ := Option.map_eq_some_iff.mp same
  cases span
  exact ⟨m.span_ordered.trans m.span_le, m.span_le⟩

/-- The first group is the whole match. -/
theorem Spans.whole_of_group? {spans : Spans} {span : Nat × Nat}
    (group : spans.group? 0 = some span) : spans.whole = span := by
  unfold Spans.whole
  rw [List.head?_eq_getElem?]
  exact congrArg (Option.getD · (0, 0)) group

theorem Captures.group?_spans (c : Captures text) : c.spans.group? 0 = some c.whole.span := rfl

end Spans

/-! ## What is assumed -/

/-- Where something matches: in a text, from one position to another. -/
abbrev Matching : Type := List Char → Nat → Nat → Prop

/-- A regular expression finds the first of its matches from a position on, if there is one. -/
structure Regex.Finds (r : Regex) (isMatch : Matching) : Prop where
  found : ∀ (text : List Char) (pos : Nat) (c : Captures text), pos ≤ text.length →
    r.capturesAt text (byteOffset text pos) = some c →
    isMatch text c.whole.span.1 c.whole.span.2 ∧ pos ≤ c.whole.span.1 ∧
      ∀ a stop, pos ≤ a → a < c.whole.span.1 → ¬isMatch text a stop
  missed : ∀ (text : List Char) (pos : Nat), pos ≤ text.length →
    r.capturesAt text (byteOffset text pos) = none →
    ∀ a stop, pos ≤ a → a ≤ text.length → ¬isMatch text a stop

/-- Matches see of what is behind them only whether some conditions hold there. -/
def Sees (looks : List Look) (isMatch : Matching) : Prop :=
  ∀ (text text' : List Char) (a stop : Nat), isMatch text a stop →
    text.take stop = text'.take stop →
    (∀ l ∈ looks, l.holdsAt text stop = true → l.holdsAt text' stop = true) → isMatch text' a stop

/-- All matches in a text come in order, and none overlaps the one before it. -/
def Regex.InOrder (r : Regex) : Prop :=
  ∀ text : List Char, (r.captures text).Pairwise fun c c' => c.whole.stop ≤ c'.whole.start

/-- A regular expression that stands for a word: it is found where the word stands, and a text
splits at the word. -/
structure Regex.IsLiteral (r : Regex) (word : List Char) : Prop where
  finds : r.Finds fun text a stop => Occurs word text a ∧ stop = a + word.length
  splits : word ≠ [] → ∀ text, Cuts word text (r.split text)

/-- An engine makes of a word with all its characters escaped what stands for the word. -/
def Engine.TakesLiteral (e : Engine) (word : List Char) : Prop :=
  ∃ r, e.compile ("(?m)" ++ String.join (word.map e.escape)) = .ok r ∧ r.IsLiteral word

/-! ## A match that starts at a position -/

section Start

variable {r : Regex} {isMatch : Matching} {text : List Char} {pos : Nat}

theorem Regex.Finds.matchAt?_eq_some (finds : r.Finds isMatch) (inside : pos ≤ text.length)
    {c : Captures text} (found : r.matchAt? text (byteOffset text pos) = some c) :
    c.whole.span.1 = pos ∧ isMatch text pos c.whole.span.2 := by
  obtain ⟨captured, starts⟩ := Option.filter_eq_some_iff.mp found
  have same : c.whole.span.1 = pos := by
    have first : c.whole.span.1 = charOffset text c.whole.start := rfl
    rw [first, of_decide_eq_true starts, charOffset_byteOffset text pos inside]
  refine ⟨same, ?_⟩
  have isMatch := (finds.found text pos c inside captured).1
  rwa [same] at isMatch

/-- If no match is found to start at a position there is none. -/
theorem Regex.Finds.matchAt?_eq_none (finds : r.Finds isMatch) (inside : pos ≤ text.length)
    (nothing : r.matchAt? text (byteOffset text pos) = none) (stop : Nat) :
    ¬isMatch text pos stop := by
  cases captured : r.capturesAt text (byteOffset text pos) with
  | none => exact finds.missed text pos inside captured pos stop (Nat.le_refl pos) inside
  | some c =>
      have elsewhere : c.whole.start ≠ byteOffset text pos := by
        intro same
        rw [matchAt?, captured] at nothing
        exact absurd (Option.filter_eq_none_iff.mp nothing c rfl) (by simp [same])
      obtain ⟨-, above, first⟩ := finds.found text pos c inside captured
      have later : pos ≠ c.whole.span.1 := by
        rintro rfl
        exact elsewhere c.whole.byteOffset_span.1.symm
      exact first pos stop (Nat.le_refl pos) (Nat.lt_of_le_of_ne above later)

end Start

/-! ## In a text that is cut off -/

variable {text : List Char} {cut pos : Nat}

/-- The part of a text before a position is there if the text is cut off behind it. -/
theorem before?_take (within : pos ≤ cut) : before? (text.take cut) pos = before? text pos := by
  cases pos with
  | zero => rfl
  | succ n => exact List.getElem?_take_of_lt within

/-- Before the cut all conditions hold as they do in the whole text. -/
theorem Look.holdsAt_take (before : pos < cut) (l : Look) :
    l.holdsAt (text.take cut) pos = l.holdsAt text pos := by
  unfold Look.holdsAt
  rw [before?_take (Nat.le_of_lt before), List.getElem?_take_of_lt before]

/-- A match in a text that is cut off is one in the whole text, if the conditions that hold at the
cut hold there in the whole text too. -/
theorem Sees.of_take {looks : List Look} {isMatch : Matching} (sees : Sees looks isMatch)
    (behind : ∀ l ∈ looks, l.holdsAt (text.take cut) cut = true → l.holdsAt text cut = true)
    {a stop : Nat} (within : stop ≤ cut) (found : isMatch (text.take cut) a stop) :
    isMatch text a stop := by
  refine sees (text.take cut) text a stop found ?_ fun l member holds => ?_
  · rw [List.take_take, Nat.min_eq_left within]
  · rcases Nat.lt_or_eq_of_le within with before | rfl
    · rwa [l.holdsAt_take before] at holds
    · exact behind l member holds

end EditorLisp.Regexp
