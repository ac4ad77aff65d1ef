import EditorLisp.Proofs.Regexp.Automaton.Numbered
import EditorLisp.Proofs.Regexp.Quoted

/-!
# The automaton keeps the laws

What a pattern matches is said by the ways through its program.  A search finds the first of its
matches, all matches come in order, and a match sees of what is behind it the conditions of the
pattern only.

An escaped text is read back as its characters, one after the other.  The program of these spells
the text, so that it matches wherever the text stands and nowhere else, and what it has matched is as
long as the text.
-/

namespace EditorLisp.Regexp

open Text

variable {word before : List Char} {last : Char}

/-! ## Any pattern -/

/-- The matches of a pattern in the extended notation. -/
def matching (source : String) : Matching := fun text a stop =>
  ∃ p, Program.ofSource source = .ok p ∧ p.Matches (.ofList text) a stop

section Pattern

variable {source : String} {r : Regex}

theorem exists_of_compile (compiled : automaton.compile source = .ok r) :
    ∃ p, Program.ofSource source = .ok p ∧ p.Proper ∧ r = p.regex := by
  change ((Program.ofSource source).map Program.regex).mapError Refusal.message = _ at compiled
  cases made : Program.ofSource source with
  | error refusal =>
      rw [made] at compiled
      cases compiled
  | ok p =>
      rw [made] at compiled
      cases compiled
      exact ⟨p, rfl, Program.proper_ofSource made, rfl⟩

theorem finds_matching (compiled : automaton.compile source = .ok r) :
    r.Finds (matching source) := by
  obtain ⟨p, made, proper, rfl⟩ := exists_of_compile compiled
  have same : matching source = fun text a stop => p.Matches (.ofList text) a stop := by
    funext text a stop
    refine propext ⟨?_, fun isMatch => ⟨p, made, isMatch⟩⟩
    rintro ⟨p', made', isMatch⟩
    cases made.symm.trans made'
    exact isMatch
  exact same ▸ Program.finds_regex proper

theorem sees_matching {looks : List Look}
    (all : ∀ p, Program.ofSource source = .ok p → p.looks ⊆ looks) :
    Sees looks (matching source) := by
  rintro text text' a stop ⟨p, made, isMatch⟩ same behind
  exact ⟨p, made, p.sees text text' a stop isMatch same fun l member => behind l (all p made member)⟩

theorem inOrder_of_compile (compiled : automaton.compile source = .ok r) : r.InOrder := by
  obtain ⟨p, -, proper, rfl⟩ := exists_of_compile compiled
  exact Program.inOrder_regex proper

end Pattern

/-! ## Reading -/

/-- The characters that are signs in the extended notation. -/
theorem isSign_iff {c : Char} : isSign c = true ↔
    c ∈ ['\\', '.', '+', '*', '?', '(', ')', '|', '[', ']', '\x7b', '\x7d', '^', '$', '#', '&', '-',
      '~'] := by
  simp [isSign]

theorem escapedToken_of_isSign {c : Char} (sign : isSign c = true) :
    escapedToken c = .ofChar c := by
  have listed := isSign_iff.mp sign
  simp only [List.mem_cons, List.not_mem_nil, or_false] at listed
  rcases listed with rfl | rfl | rfl | rfl | rfl | rfl | rfl | rfl | rfl | rfl | rfl | rfl | rfl |
    rfl | rfl | rfl | rfl | rfl <;> rfl

theorem readToken_of_plain {c : Char} (plain : isSign c = false) (rest : List Char) :
    readToken (c :: rest) = some (.ofChar c, rest) := by
  have unlisted := mt isSign_iff.mpr (Bool.eq_false_iff.mp plain)
  simp only [List.mem_cons, List.not_mem_nil, or_false, not_or] at unlisted
  obtain ⟨backslash, dot, plus, star, question, opener, closer, bar, bracket, -, brace, -, caret,
    dollar, -⟩ := unlisted
  rw [readToken]
  · rw [plainToken]
    · rfl
    all_goals assumption
  · exact fun _ _ same _ => backslash same
  · exact fun _ same _ => opener same
  · exact brace
  · exact bracket

/-- A character with a meaning loses it after a backslash, and any other has none. -/
theorem readToken_literalText (c : Char) (rest : List Char) :
    readToken ((literalText c).toList ++ rest) = some (.ofChar c, rest) := by
  unfold literalText
  cases sign : isSign c with
  | true =>
      rw [if_pos rfl, String.toList_append, Char.toString, String.toList_singleton,
        ← escapedToken_of_isSign sign]
      rfl
  | false =>
      rw [if_neg Bool.false_ne_true, Char.toString, String.toList_singleton]
      exact readToken_of_plain sign rest

theorem length_literalText_pos (c : Char) : 0 < (literalText c).toList.length := by
  unfold literalText
  split
  · rw [String.toList_append, List.length_append]
    exact Nat.lt_add_right _ Nat.one_pos
  · rw [Char.toString, String.toList_singleton]
    exact Nat.one_pos

/-- Escaped characters are read back.  The counter is no less than the length of what is left. -/
theorem readTokens_escaped {fuel : Nat}
    (enough : (word.flatMap fun c => (literalText c).toList).length ≤ fuel) :
    readTokens fuel (word.flatMap fun c => (literalText c).toList) =
      .ok (word.map Token.ofChar) := by
  induction word generalizing fuel with
  | nil => exact readTokens.eq_1 fuel
  | cons c word ih =>
      have positive := length_literalText_pos c
      rw [List.flatMap_cons, List.length_append] at enough
      cases fuel with
      | zero => omega
      | succ fuel =>
          rw [List.flatMap_cons, readTokens, readToken_literalText]
          · dsimp only
            rw [ih (by omega)]
            rfl
          · intro empty
            rw [(List.append_eq_nil_iff.mp empty).1] at positive
            cases positive

theorem toList_join_map (write : Char → String) (word : List Char) :
    (String.join (word.map write)).toList = word.flatMap fun c => (write c).toList := by
  induction word with
  | nil => rfl
  | cons c word ih => rw [List.map_cons, String.join_cons, String.toList_append, ih, List.flatMap_cons]

theorem readPattern_escaped (word : List Char) :
    readPattern ("(?m)" ++ String.join (word.map literalText)) =
      .ok (false, word.map Token.ofChar) := by
  have chars : ("(?m)" ++ String.join (word.map literalText)).toList =
      '(' :: '?' :: 'm' :: ')' :: word.flatMap fun c => (literalText c).toList := by
    rw [String.toList_append, toList_join_map]
    rfl
  unfold readPattern
  rw [chars]
  show (readTokens _ (word.flatMap fun c => (literalText c).toList) >>= fun tokens =>
    pure (false, tokens)) = _
  rw [readTokens_escaped (Nat.le_refl _)]
  rfl

/-! ## The tree -/

/-- The characters of a text, one after the other. -/
def Tree.row (before : List Char) (last : Char) : Tree :=
  before.foldr (fun c tail => .seq (.one (.char c)) tail) (.one (.char last))

/-- The tree of a quoted text. -/
def Tree.ofWord (word : List Char) : Tree :=
  .sequence ((word.map fun c => one (.char c)).reverse ++ [.empty])

theorem Tree.ofWord_concat (before : List Char) (last : Char) :
    ofWord (before ++ [last]) = .seq .empty (row before last) := by
  unfold ofWord row
  rw [List.map_append, List.reverse_append, List.map_singleton, List.reverse_singleton,
    List.singleton_append, List.cons_append, sequence, List.foldl_append, ← List.map_reverse,
    List.foldl_map, List.foldl_reverse]
  rfl

/-- A word is empty or has a last character. -/
theorem Tree.ofWord_cases (word : List Char) :
    word = [] ∧ ofWord word = .empty ∨
      ∃ before last, word = before ++ [last] ∧ ofWord word = .seq .empty (row before last) := by
  rcases List.eq_nil_or_concat word with rfl | ⟨before, last, rfl⟩
  · exact .inl ⟨rfl, rfl⟩
  · rw [List.concat_eq_append]
    exact .inr ⟨before, last, rfl, ofWord_concat before last⟩

theorem parseTokens_ofChars (p : ParseState) (word : List Char) :
    parseTokens p (word.map Token.ofChar) =
      .ok { p with items := (word.map fun c => Tree.one (.char c)).reverse ++ p.items } := by
  induction word generalizing p with
  | nil => rfl
  | cons c word ih =>
      rw [List.map_cons, List.map_cons, List.reverse_cons, List.append_assoc]
      exact ih (p.push (.one (.char c)))

theorem Tree.nestingIn_row (before : List Char) (last : Char) :
    nestingIn .items (row before last) = 0 := by
  induction before with
  | nil => rfl
  | cons c before ih =>
      show max 0 (nestingIn .items (row before last)) + 0 = 0
      rw [ih]
      rfl

theorem Tree.nesting_ofWord (word : List Char) : (ofWord word).nesting ≤ 1 := by
  rcases ofWord_cases word with ⟨-, tree⟩ | ⟨before, last, -, tree⟩
  · rw [tree]
    exact Nat.zero_le 1
  · rw [tree]
    show max 0 (nestingIn .items (row before last)) + 1 ≤ 1
    rw [nestingIn_row]
    exact Nat.le_refl 1

theorem Tree.room_row (before : List Char) (last : Char) :
    (row before last).room = before.length + 1 := by
  induction before with
  | nil => rfl
  | cons c before ih =>
      show 1 + (row before last).room = _
      rw [ih, List.length_cons, Nat.add_comm]

theorem Tree.room_ofWord (word : List Char) : (ofWord word).room = word.length + 1 := by
  rcases ofWord_cases word with ⟨rfl, tree⟩ | ⟨before, last, rfl, tree⟩
  · rw [tree]
    rfl
  · rw [tree]
    show 1 + (row before last).room = _
    rw [room_row, List.length_append, List.length_singleton, Nat.add_comm]

theorem Tree.ofTokens_ofChars (short : word.length < maxRoom) :
    Tree.ofTokens (word.map Token.ofChar) = .ok (ofWord word) := by
  have nested := Nat.le_trans (nesting_ofWord word) (show 1 ≤ maxNesting by decide)
  have fits : (ofWord word).room ≤ maxRoom := by
    rw [room_ofWord]
    exact short
  unfold Tree.ofTokens
  rw [parseTokens_ofChars]
  exact (if_neg (Nat.not_lt_of_le nested)).trans (if_neg (Nat.not_lt_of_le fits))

theorem Tree.numbered_ofWord (word : List Char) : (ofWord word).Numbered := by
  refine numbered_sequence fun t member => ?_
  rcases List.mem_append.mp member with isChar | isEmpty
  · obtain ⟨c, -, rfl⟩ := List.mem_map.mp (List.mem_reverse.mp isChar)
    trivial
  · cases List.mem_singleton.mp isEmpty
    trivial

/-! ## The program -/

/-- The instructions from one on take the characters of a word and end the pattern. -/
inductive Spells (code : Array Instruction) : Nat → List Char → Prop
  | done {pc : Nat} (here : code[pc]? = some .done) : Spells code pc []
  | one {pc next : Nat} {c : Char} {word : List Char}
      (here : code[pc]? = some (.one (.char c) next)) (rest : Spells code next word) :
      Spells code pc (c :: word)

variable {code : Array Instruction} {pc next : Nat}

theorem Spells.push (spells : Spells code pc word) (i : Instruction) :
    Spells (code.push i) pc word := by
  have kept {pc : Nat} {j : Instruction} (here : code[pc]? = some j) :
      (code.push i)[pc]? = some j := by
    have inside : pc < code.size := (Array.getElem?_eq_some_iff.mp here).1
    rw [Array.getElem?_push_lt inside, ← here, Array.getElem?_eq_getElem inside]
  induction spells with
  | done here => exact .done (kept here)
  | one here _ ih => exact .one (kept here) ih

/-- A character laid down before a word is spelled before it. -/
theorem Spells.cons (spells : Spells code next word) (c : Char) :
    Spells (code.push (.one (.char c) next)) code.size (c :: word) :=
  .one Array.getElem?_push_size (spells.push _)

theorem Spells.lay_row (spells : Spells code next word) (before : List Char) (last : Char) :
    Spells ((Tree.row before last).lay next code).2 ((Tree.row before last).lay next code).1
      (before ++ last :: word) := by
  induction before with
  | nil => exact spells.cons last
  | cons c before ih => exact ih.cons c

/-- The program of a quoted text spells it. -/
theorem spells_ofWord (word : List Char) :
    Spells (Program.ofTree (.ofWord word) false).code (Program.ofTree (.ofWord word) false).start
      word := by
  have ends : Spells #[.done] 0 [] := .done rfl
  rcases Tree.ofWord_cases word with ⟨rfl, tree⟩ | ⟨before, last, rfl, tree⟩
  · exact ends
  · rw [tree]
    exact ends.lay_row before last

/-- A program that spells a word as it is. -/
structure Program.Literal (p : Program) (word : List Char) : Prop where
  proper : p.Proper
  strict : p.fold = false
  spells : Spells p.code p.start word

theorem Program.literal_ofWord (word : List Char) :
    (Program.ofTree (.ofWord word) false).Literal word :=
  ⟨proper_ofTree (Tree.numbered_ofWord word) false, rfl, spells_ofWord word⟩

namespace Program

variable {p : Program} {text : List Char} {a stop pos : Nat}

/-- Each character that the program of a word takes is the next one of the word: the induction
is on the way, which has read the first part of the word and is about to read the rest. -/
theorem Reaches.exists_rest (literal : p.Literal word) (way : p.Reaches (.ofList text) a pc pos) :
    ∃ done rest, word = done ++ rest ∧ Spells p.code pc rest ∧ Occurs done text a ∧
      pos = a + done.length := by
  induction way with
  | start => exact ⟨[], word, rfl, literal.spells, List.nil_prefix, rfl⟩
  | skip _ step ih =>
      obtain ⟨done, rest, -, spelled, -, -⟩ := ih
      exfalso
      cases spelled with
      | done here =>
          have onward := step.mem_onward here
          exact List.not_mem_nil onward
      | one here _ =>
          have onward := step.mem_onward here
          exact List.not_mem_nil onward
  | take _ step ih =>
      obtain ⟨done, rest, rfl, spelled, occurs, rfl⟩ := ih
      cases spelled with
      | done here => cases here.symm.trans step.here
      | @one _ _ c word here spelled =>
          cases here.symm.trans step.here
          have accepts := step.accepts
          rw [literal.strict] at accepts
          have same := eq_of_beq (show (_ == c) = true from accepts)
          have next := step.after
          rw [Subject.after?_ofList, same] at next
          exact ⟨done ++ [c], word, by simp, spelled, occurs.concat next, by simp [Nat.add_assoc]⟩

theorem Reaches.matches_of_occurs (strict : p.fold = false) (spells : Spells p.code pc word)
    (way : p.Reaches (.ofList text) a pc pos) (occurs : Occurs word text pos) :
    p.Matches (.ofList text) a (pos + word.length) := by
  induction spells generalizing pos with
  | done here => exact ⟨_, way, here⟩
  | @one _ next c word here _ ih =>
      obtain ⟨first, rest⟩ := occurs_cons.mp occurs
      have step : p.Takes (.ofList text) pos _ next (.char c) c :=
        ⟨here, (Subject.after?_ofList text pos).trans first, by
          rw [strict]; exact beq_self_eq_true c⟩
      rw [List.length_cons, Nat.add_comm word.length, ← Nat.add_assoc]
      exact ih (way.take step) rest

/-- The program of a word matches where the word stands, and takes no more than it. -/
theorem Literal.matches_iff (literal : p.Literal word) :
    p.Matches (.ofList text) a stop ↔ Occurs word text a ∧ stop = a + word.length := by
  constructor
  · rintro ⟨pc, way, isDone⟩
    obtain ⟨done, rest, rfl, spelled, occurs, rfl⟩ := way.exists_rest literal
    cases spelled with
    | done _ =>
        rw [List.append_nil]
        exact ⟨occurs, rfl⟩
    | one here _ => cases here.symm.trans isDone
  · rintro ⟨occurs, rfl⟩
    exact Reaches.start.matches_of_occurs literal.strict literal.spells occurs

/-! ## All occurrences -/

variable {spans : Spans}

/-- A search finds the first occurrence of a word from a position on. -/
theorem Literal.search?_eq_some (literal : p.Literal word) (inside : pos ≤ text.length)
    (found : p.search? (.ofList text) pos = some spans) :
    ∃ a, spans.whole = (a, a + word.length) ∧ Earliest word text pos a := by
  obtain ⟨a, stop, -, whole, above, -, here, first⟩ :=
    Program.search?_eq_some literal.proper inside found
  obtain ⟨occurs, rfl⟩ := literal.matches_iff.mp here
  refine ⟨a, whole, above, occurs, fun c begun before occurs' => ?_⟩
  exact first c _ begun before (literal.matches_iff.mpr ⟨occurs', rfl⟩)

/-- The pieces between all matches of a word are the parts of the text cut at it.  The induction is
on the searches that are made: each one but the last moves on by the length of the word at least, so
there are enough of them for what is left of the text. -/
theorem Literal.exists_cuts (literal : p.Literal word) (nonempty : word ≠ []) (fuel : Nat)
    (inside : pos ≤ text.length) (enough : text.length - pos < fuel) (lastEnd : Option Nat)
    (found : List Spans) :
    ∃ more, p.matchesOn (.ofList text) fuel pos lastEnd found = found.reverse ++ more ∧
      Cuts word (text.drop pos) (pieces (text.drop pos) pos more) := by
  have positive := List.length_pos_iff.mpr nonempty
  induction fuel generalizing pos lastEnd found with
  | zero => exact absurd enough (Nat.not_lt_zero _)
  | succ fuel ih =>
      rw [Program.matchesOn]
      cases search : p.search? (.ofList text) pos with
      | none =>
          refine ⟨[], (List.append_nil _).symm, .whole fun a occurs => ?_⟩
          rw [occurs_drop] at occurs
          have within := occurs.add_length_le nonempty
          have isMatch := literal.matches_iff.mpr ⟨occurs, rfl⟩
          exact search?_eq_none literal.proper inside search (pos + a) _ (by omega)
            (show pos + a ≤ text.length by omega) isMatch
      | some spans =>
          obtain ⟨a, whole, earliest⟩ := literal.search?_eq_some inside search
          have above := earliest.le
          have within := earliest.occurs.add_length_le nonempty
          obtain ⟨more, same, cuts⟩ :=
            ih within (by omega) (some (a + word.length)) (spans :: found)
          refine ⟨spans :: more, ?_, ?_⟩
          · simp only [whole]
            rw [if_neg (by omega), same, List.reverse_cons, List.append_assoc,
              List.singleton_append]
          · have length : a - pos + word.length = a + word.length - pos := by omega
            have behind : (text.drop pos).drop (a - pos + word.length) =
                text.drop (a + word.length) := by
              rw [List.drop_drop, length, Nat.add_sub_cancel' (by omega)]
            rw [pieces, whole]
            dsimp only
            rw [← length, behind]
            exact .cut earliest.of_drop (behind ▸ cuts)

theorem Literal.cuts_split (literal : p.Literal word) (nonempty : word ≠ []) (text : List Char) :
    Cuts word text (p.regex.split text) := by
  have enough : text.length - 0 < 2 * text.length + 3 := by omega
  obtain ⟨more, same, cuts⟩ :=
    literal.exists_cuts nonempty _ (Nat.zero_le _) enough none []
  show Cuts word text (pieces text 0 (p.matchesOn _ (2 * text.length + 3) 0 none []))
  rw [same]
  exact cuts

theorem Literal.isLiteral_regex (literal : p.Literal word) : p.regex.IsLiteral word := by
  have matching : (fun text a stop => p.Matches (.ofList text) a stop) =
      fun text a stop => Occurs word text a ∧ stop = a + word.length := by
    funext text a stop
    exact propext literal.matches_iff
  exact ⟨matching ▸ finds_regex literal.proper, literal.cuts_split⟩

end Program

/-- The automaton takes every text that it has room for. -/
theorem takesLiteral_automaton (short : word.length < Tree.maxRoom) :
    automaton.TakesLiteral word := by
  refine ⟨_, ?_, (Program.literal_ofWord word).isLiteral_regex⟩
  show ((Program.ofSource _).map Program.regex).mapError Refusal.message = _
  unfold Program.ofSource
  rw [show automaton.escape = literalText from rfl, readPattern_escaped]
  simp only [bind, Except.bind]
  rw [Tree.ofTokens_ofChars short]
  rfl

end EditorLisp.Regexp
