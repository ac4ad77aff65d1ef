import EditorLisp.Proofs.Source.Comment
import EditorLisp.Proofs.Source.Token
import Mathlib.Data.List.Forall2

/-!
# Lists of tokens

Tokens in parentheses with blanks between them go through the pass token by token and are then
read word by word.  Which blanks these are does not matter as long as the pass, where it looks for
the end of a token, takes them for one: it has fewer characters that end a token than the reader
has blanks.

So a list of literals of numbers, with one space between each two, is read as the list of the
numbers.
-/

namespace EditorLisp.Source

open EditorLisp.Text

/-! ## Lists of tokens -/

/-- A text in which tokens stand one after another with something between each two of them. -/
inductive Joined (Between : List Char → List Char → List Char → Prop) :
    List (List Char) → List Char → Prop where
  | nil : Joined Between [] []
  | single (token : List Char) : Joined Between [token] token
  | cons {token between next text : List Char} {tokens : List (List Char)} :
      Between token between next → Joined Between (next :: tokens) text →
        Joined Between (token :: next :: tokens) (token ++ (between ++ text))

/-- What the pass writes between two words. -/
abbrev Spaced : List (List Char) → List Char → Prop := Joined fun _ blanks _ => Blanks blanks

/-- Blanks between two tokens that end the one and let the other start as far as the pass is
concerned. -/
structure Apart (token blanks next : List Char) : Prop extends Blanks blanks where
  ends : IsDigitName token → isDelimiter blanks.head? = true
  starts : LooksBack next → isDelimiter blanks.getLast? = true

theorem blanks_single : Blanks [' '] where
  nonempty := List.cons_ne_nil _ _
  blank := List.forall_mem_singleton.mpr rfl

theorem apart_single (token next : List Char) : Apart token [' '] next :=
  { blanks_single with
    ends := fun _ => by decide
    starts := fun _ => by decide }

theorem joined_intercalate {Between : List Char → List Char → List Char → Prop}
    (single : ∀ token next, Between token [' '] next) (tokens : List (List Char)) :
    Joined Between tokens ([' '].intercalate tokens) := by
  induction tokens with
  | nil => exact .nil
  | cons token tokens ih =>
      cases tokens with
      | nil =>
          rw [intercalate_blank]
          simpa using Joined.single token
      | cons next tokens =>
          have unfolded : [' '].intercalate (token :: next :: tokens) =
              token ++ ([' '] ++ [' '].intercalate (next :: tokens)) := by
            simp [List.intercalate]
          rw [unfolded]
          exact .cons (single token next) ih

theorem Spaced.append {words others : List (List Char)} {text blanks text' : List Char}
    (spaced : Spaced words text) (separate : Blanks blanks) (spaced' : Spaced others text')
    (nonempty : words ≠ []) (nonempty' : others ≠ []) :
    Spaced (words ++ others) (text ++ (blanks ++ text')) := by
  obtain ⟨next, others, rfl⟩ := List.exists_cons_of_ne_nil nonempty'
  induction spaced with
  | nil => exact absurd rfl nonempty
  | single word => exact .cons separate spaced'
  | cons between _ ih =>
      rw [List.append_assoc, List.append_assoc]
      exact .cons between (ih (List.cons_ne_nil _ _))

/-- The pass goes through the tokens up to the closing parenthesis. -/
theorem Joined.expands {tokens : List (List Char)} {text : List Char}
    (joined : Joined Apart tokens text) {wordss : List (List (List Char))}
    (passes : List.Forall₂ Passes tokens wordss) :
    ∃ out, Spaced wordss.flatten out ∧ ∀ prev,
      (∀ token ∈ tokens.head?, LooksBack token → isDelimiter prev = true) →
        Expands prev (text ++ [')']) (out ++ [')']) := by
  have close (prev : Option Char) : Expands prev [')'] [')'] :=
    .character (by decide) (by decide) (.nil _)
  induction joined generalizing wordss with
  | nil =>
      cases passes
      exact ⟨[], .nil, fun prev _ => close prev⟩
  | single token =>
      cases passes with
      | cons passes none =>
          cases none
          rename_i words
          refine ⟨[' '].intercalate words, ?_, fun prev before => ?_⟩
          · rw [List.flatten_singleton]
            exact joined_intercalate (fun _ _ => blanks_single) words
          · exact passes.expands prev [')'] [')'] (before token rfl) (follows_close [])
              (fun _ => by decide) close
  | @cons token between next text tokens apart _ ih =>
      cases passes with
      | @cons _ words _ wordss passes others =>
          obtain ⟨out, spaced, expands⟩ := ih others
          have nonempty : wordss.flatten ≠ [] := by
            cases others with
            | cons first _ => exact List.append_ne_nil_of_left_ne_nil first.nonempty _
          refine ⟨[' '].intercalate words ++ (between ++ out), ?_, fun prev before => ?_⟩
          · have first : Spaced words ([' '].intercalate words) :=
              joined_intercalate (fun _ _ => blanks_single) words
            exact Spaced.append first apart.toBlanks spaced passes.nonempty nonempty
          · have after (prev : Option Char) : Expands prev (between ++ (text ++ [')']))
                (between ++ (out ++ [')'])) := by
              refine .blanks apart.blank apart.nonempty (expands _ ?_) prev
              intro token member
              cases member
              exact apart.starts
            obtain ⟨c, more, rfl⟩ := List.exists_cons_of_ne_nil apart.nonempty
            have follows : Follows (c :: more ++ (text ++ [')'])) :=
              follows_cons (apart.blank c (.head _)) _
            rw [List.append_assoc, List.append_assoc, List.append_assoc, List.append_assoc]
            exact passes.expands prev _ _ (before token rfl) follows apart.ends after

/-! ## Reading words between blanks -/

theorem skip_blanks {blanks : List Char} (blank : ∀ c ∈ blanks, isBlank c = true)
    (text : List Char) (offset : Nat) :
    ∃ offset', Cursor.skip ⟨blanks ++ text, offset⟩ = Cursor.skip ⟨text, offset'⟩ := by
  induction blanks generalizing offset with
  | nil => exact ⟨offset, rfl⟩
  | cons c blanks ih =>
      obtain ⟨first, later⟩ := List.forall_mem_cons.mp blank
      have noLine : c ≠ ';' := by
        rintro rfl
        cases first
      have noNumber : c ≠ '#' := by
        rintro rfl
        cases first
      obtain ⟨offset', skipped⟩ := ih later (offset + c.utf8Size)
      refine ⟨offset', ?_⟩
      have step : Cursor.skipFrom .blanks offset (c :: (blanks ++ text)) =
          Cursor.skipFrom .blanks (offset + c.utf8Size) (blanks ++ text) := by
        rw [Cursor.skipFrom_blanks_cons offset noLine fun _ number => absurd number noNumber,
          if_pos first]
      rw [← skipped]
      exact step

/-- Blanks before the next element of a list are skipped. -/
theorem readItems_blanks {blanks : List Char} (blank : ∀ c ∈ blanks, isBlank c = true)
    (text : List Char) (fuel offset : Nat) (items : List Datum) :
    ∃ offset', readItems (fuel + 1) ⟨blanks ++ text, offset⟩ items =
      readItems (fuel + 1) ⟨text, offset'⟩ items := by
  obtain ⟨offset', skipped⟩ := skip_blanks blank text offset
  refine ⟨offset', ?_⟩
  rw [readItems.eq_2, readItems.eq_2, skipped]

theorem readItems_close (fuel offset : Nat) (items : List Datum) :
    readItems (fuel + 1) ⟨[')'], offset⟩ items = .ok (.ofList items.reverse, ⟨[], offset + 1⟩) := by
  rw [readItems.eq_2]
  rfl

/-- A word takes two of the counter, and so does no more than there are characters. -/
theorem readItems_word {word rest : List Char} (isWord : IsWord word) (follows : Follows rest)
    (fuel offset : Nat) (items : List Datum) : ∃ offset',
      readItems (fuel + 2) ⟨word ++ rest, offset⟩ items =
        readItems (fuel + 1) ⟨rest, offset'⟩ (atomDatum word :: items) := by
  have starts := isWord.startsForm follows
  obtain ⟨offset', read⟩ := readAtom_word isWord follows offset
  rw [← readForm_word isWord follows fuel offset] at read
  exact ⟨offset', readItems_item items (by rw [starts.skip]) starts read⟩

/-- The elements of a list of words are read up to the closing parenthesis. -/
theorem readItems_spaced {words : List (List Char)} {text : List Char}
    (spaced : Spaced words text) (isWord : ∀ word ∈ words, IsWord word) {fuel : Nat}
    (enough : text.length < fuel) (offset : Nat) (items : List Datum) :
    ∃ offset', readItems fuel ⟨text ++ [')'], offset⟩ items =
      .ok (.ofList (items.reverse ++ words.map atomDatum), ⟨[], offset'⟩) := by
  induction spaced generalizing fuel offset items with
  | nil =>
      obtain ⟨fuel, rfl⟩ : ∃ n, fuel = n + 1 := ⟨fuel - 1, by omega⟩
      refine ⟨offset + 1, ?_⟩
      rw [List.nil_append, readItems_close, List.map_nil, List.append_nil]
  | single token =>
      have isWord := isWord token (.head _)
      have long : token.length ≠ 0 := fun none => isWord.nonempty (List.length_eq_zero_iff.mp none)
      obtain ⟨fuel, rfl⟩ : ∃ n, fuel = n + 2 := ⟨fuel - 2, by omega⟩
      obtain ⟨offset', read⟩ := readItems_word isWord (follows_close []) fuel offset items
      refine ⟨offset' + 1, ?_⟩
      rw [read, readItems_close, List.reverse_cons]
      rfl
  | @cons token between next text tokens separate _ ih =>
      obtain ⟨first, others⟩ := List.forall_mem_cons.mp isWord
      have long : token.length ≠ 0 := fun none => first.nonempty (List.length_eq_zero_iff.mp none)
      rw [List.length_append, List.length_append] at enough
      obtain ⟨fuel, rfl⟩ : ∃ n, fuel = n + 2 := ⟨fuel - 2, by omega⟩
      obtain ⟨c, more, rfl⟩ := List.exists_cons_of_ne_nil separate.nonempty
      have follows : Follows (c :: more ++ (text ++ [')'])) :=
        follows_cons (separate.blank c (.head _)) _
      obtain ⟨behind, read⟩ := readItems_word first follows fuel offset items
      obtain ⟨before, skipped⟩ := readItems_blanks separate.blank (text ++ [')']) fuel behind
        (atomDatum token :: items)
      have shorter : text.length < fuel + 1 := by omega
      obtain ⟨offset', rest⟩ := ih others shorter before (atomDatum token :: items)
      refine ⟨offset', ?_⟩
      rw [List.append_assoc, List.append_assoc, read, skipped, rest]
      simp

theorem readExpanded_spaced {words : List (List Char)} {text : List Char}
    (spaced : Spaced words text) (isWord : ∀ word ∈ words, IsWord word) :
    readExpanded (String.ofList ('(' :: (text ++ [')']))) =
      .ok [.ofList (words.map atomDatum)] := by
  have starts : StartsForm ('(' :: (text ++ [')'])) := startsForm_of_mark (by decide)
  have enough : text.length < 2 * ('(' :: (text ++ [')'])).length + 1 := by
    rw [List.length_cons, List.length_append]
    omega
  obtain ⟨offset', read⟩ := readItems_spaced spaced isWord enough 1 []
  have form : Cursor.readForm ⟨'(' :: (text ++ [')']), 0⟩ =
      .ok (.ofList (words.map atomDatum), ⟨[], offset'⟩) := by
    unfold Cursor.readForm
    rw [readForm.eq_def]
    simp only [starts.skip]
    exact read
  unfold readExpanded Cursor.ofString
  rw [String.toList_ofList, readAllFrom]
  simp only [starts.skip, form]
  cases (String.ofList ('(' :: (text ++ [')']))).length with
  | zero => rfl
  | succ n => rfl

/-! ## Reading tokens between blanks -/

theorem isWord_of_passes {tokens : List (List Char)} {wordss : List (List (List Char))}
    (passes : List.Forall₂ Passes tokens wordss) : ∀ word ∈ wordss.flatten, IsWord word := by
  induction passes with
  | nil => exact fun _ member => nomatch member
  | cons first _ ih => exact List.forall_mem_append.mpr ⟨first.isWord, ih⟩

/-- A list of tokens is read as the list of the words that the pass makes of them. -/
theorem readSource_joined {tokens : List (List Char)} {text : List Char}
    (joined : Joined Apart tokens text) {wordss : List (List (List Char))}
    (passes : List.Forall₂ Passes tokens wordss)
    (noCall : renamedCall? ('(' :: (text ++ [')'])) = none) :
    readSource (String.ofList ('(' :: (text ++ [')']))) =
      .ok [.ofList (wordss.flatten.map atomDatum)] := by
  obtain ⟨out, spaced, expands⟩ := joined.expands passes
  have whole : Expands none ('(' :: (text ++ [')'])) ('(' :: (out ++ [')'])) := by
    refine .copy (fun offset => ?_) (by decide) (by decide) (expands _ fun _ _ _ => by decide)
    unfold expandToken
    simp only [noCall]
    rfl
  exact readSource_eq_ok_iff.mpr
    ⟨_, expand_expands whole, readExpanded_spaced spaced (isWord_of_passes passes)⟩

/-! ## Calls that are written differently -/

theorem noCallBlank {c : Char} (visible : isBlank c = false) : isCallBlank c = false := by
  refine decide_eq_false fun member => ?_
  have blanks : ([' ', '\t', '\n', '\r'].all isBlank) = true := by decide
  rw [List.all_eq_true.mp blanks c member] at visible
  cases visible

/-- A call that is written differently starts with one of two letters. -/
theorem renamedCall?_of_head {text : List Char}
    (head : ∀ c ∈ text.head?, isCallBlank c = false ∧ c ≠ 'p' ∧ c ≠ 'd') :
    renamedCall? ('(' :: text) = none := by
  have noBlanks : text.takeWhile isCallBlank = [] := by
    cases text with
    | nil => rfl
    | cons c text => exact List.takeWhile_cons_of_neg (by simp [head c rfl])
  have other : renamedCalls.lookup (String.ofList (text.takeWhile isSymbolChar)) = none := by
    refine List.lookup_eq_none_iff.mpr fun call member => bne_iff_ne.mpr fun same => ?_
    have first : ∀ c ∈ (text.takeWhile isSymbolChar).head?, c ≠ 'p' ∧ c ≠ 'd' := by
      cases text with
      | nil => exact fun _ none => nomatch none
      | cons c text =>
          rw [List.takeWhile_cons]
          split
          next =>
            intro d member
            cases member
            exact (head c rfl).2
          next => exact fun _ none => nomatch none
    have letters : ∀ call ∈ renamedCalls,
        call.1.toList.head? = some 'p' ∨ call.1.toList.head? = some 'd' := by decide
    rw [← String.toList_ofList (l := text.takeWhile isSymbolChar), same] at first
    obtain p | d := letters call member
    · exact (first 'p' p).1 rfl
    · exact (first 'd' d).2 rfl
  unfold renamedCall?
  simp only [List.drop_succ_cons, List.drop_zero, noBlanks, List.length_nil, other, Option.map_none,
    ite_self]

/-- What stands after the word at the front and the blanks after it decides whether it is called. -/
theorem renamedCall?_isWord {token rest : List Char} (isWord : IsWord token)
    (follows : Follows rest) :
    renamedCall? ('(' :: (token ++ rest)) =
      if ((token.dropWhile isSymbolChar ++ rest).dropWhile isCallBlank).head? = some ')' then
        (renamedCalls.lookup (String.ofList (token.takeWhile isSymbolChar))).map fun replacement =>
          (replacement, 1 + (token.takeWhile isSymbolChar).length)
      else none := by
  have noBlanks : (token ++ rest).takeWhile isCallBlank = [] := by
    cases token with
    | nil => exact absurd rfl isWord.nonempty
    | cons c token =>
        have visible := noCallBlank (isWord.inside (.head _)).1
        exact List.takeWhile_cons_of_neg (by simp [visible])
  unfold renamedCall?
  simp only [List.drop_succ_cons, List.drop_zero, noBlanks, List.length_nil, Nat.zero_add,
    Nat.add_zero, follows.takeWhile_isSymbolChar, drop_takeWhile]

theorem head?_dropWhile_ne {p : Char → Bool} {front : List Char} {c d : Char}
    (others : ∀ e ∈ front, e ≠ c) (stops : p d = false) (other : d ≠ c) (rest : List Char) :
    ((front ++ d :: rest).dropWhile p).head? ≠ some c := by
  induction front with
  | nil =>
      rw [List.nil_append, List.dropWhile_cons_of_neg (by simp [stops])]
      exact fun same => other (Option.some.inj same)
  | cons e front ih =>
      obtain ⟨first, later⟩ := List.forall_mem_cons.mp others
      rw [List.cons_append, List.dropWhile_cons]
      split
      next => exact ih later
      next => exact fun same => first (Option.some.inj same)

/-- A word is no call when another token comes after it. -/
theorem renamedCall?_several {token blanks rest : List Char} {d : Char} (isWord : IsWord token)
    (separate : Blanks blanks) (visible : isCallBlank d = false) (item : d ≠ ')') :
    renamedCall? ('(' :: (token ++ (blanks ++ d :: rest))) = none := by
  have follows : Follows (blanks ++ d :: rest) := by
    obtain ⟨c, more, rfl⟩ := List.exists_cons_of_ne_nil separate.nonempty
    exact follows_cons (separate.blank c (.head _)) _
  have front : ∀ c ∈ token.dropWhile isSymbolChar ++ blanks, c ≠ ')' := by
    rintro c member rfl
    obtain inside | blank := List.mem_append.mp member
    · have inToken := (List.dropWhile_suffix isSymbolChar).subset inside
      exact (isWord.inside inToken).2.1 (by decide)
    · cases separate.blank ')' blank
  rw [renamedCall?_isWord isWord follows, ← List.append_assoc,
    if_neg (head?_dropWhile_ne front visible item rest)]

/-- A word alone in parentheses is a call only if it is the name of one. -/
theorem renamedCall?_single {token : List Char} (isWord : IsWord token)
    (other : String.ofList token ∉ renamedCalls.map Prod.fst) :
    renamedCall? ('(' :: (token ++ [')'])) = none := by
  rw [renamedCall?_isWord isWord (follows_close [])]
  cases others : token.dropWhile isSymbolChar with
  | nil =>
      have whole : token.takeWhile isSymbolChar = token :=
        List.takeWhile_eq_self_iff.mpr (List.dropWhile_eq_nil_iff.mp others)
      have absent : renamedCalls.lookup (String.ofList token) = none := by
        refine List.lookup_eq_none_iff.mpr fun entry member => bne_iff_ne.mpr ?_
        rintro same
        exact other (same ▸ List.mem_map_of_mem member)
      rw [whole, absent, Option.map_none, ite_self]
  | cons d others' =>
      have inToken : d ∈ token := (List.dropWhile_suffix isSymbolChar).subset (others ▸ .head _)
      have visible := noCallBlank (isWord.inside inToken).1
      rw [List.cons_append, List.dropWhile_cons_of_neg (by simp [visible]), if_neg]
      rintro same
      obtain rfl := Option.some.inj same
      exact (isWord.inside inToken).2.1 (by decide)

/-! ## Which blanks separate tokens -/

/-- A token: a word that no question mark starts, or a question mark and a visible character. -/
inductive IsToken : List Char → Prop where
  | word {token : List Char} : IsWord token → token.head? ≠ some '?' → IsToken token
  | character {c : Char} : isBlank c = false → c ≠ '\\' → IsToken ['?', c]

namespace IsToken

variable {token : List Char}

theorem exists_passes (isToken : IsToken token) : ∃ words, Passes token words := by
  cases isToken with
  | character _ unescaped => exact ⟨_, passes_character unescaped⟩
  | word isWord noQuestion =>
      cases token with
      | nil => exact absurd rfl isWord.nonempty
      | cons c text =>
          cases digit : c.isDigit with
          | true => exact exists_passes_digit isWord digit
          | false =>
              obtain ⟨front, words, inside⟩ := exists_passesInside (c :: text) isWord.plain
              refine ⟨_, inside.passes isWord ?_⟩
              have question : (c == '?') = false :=
                beq_eq_false_iff_ne.mpr fun same => noQuestion (congrArg some same)
              show (c.isDigit || c == '?') = false
              rw [digit, question]
              rfl

/-- The first character of a token. -/
theorem exists_cons (isToken : IsToken token) :
    ∃ c rest, token = c :: rest ∧ isCallBlank c = false ∧ c ≠ ')' := by
  cases isToken with
  | character _ _ => exact ⟨_, _, rfl, by decide, by decide⟩
  | word isWord _ =>
      cases token with
      | nil => exact absurd rfl isWord.nonempty
      | cons c rest =>
          obtain ⟨visible, unmarked, -⟩ := isWord.inside (.head _)
          refine ⟨c, rest, rfl, noCallBlank visible, ?_⟩
          rintro rfl
          exact unmarked (by decide)

end IsToken

theorem renamedCall?_joined {tokens : List (List Char)} {text : List Char}
    (isToken : ∀ token ∈ tokens, IsToken token) (joined : Joined Apart tokens text)
    (other : tokens ∉ renamedCalls.map fun call => [call.1.toList]) :
    renamedCall? ('(' :: (text ++ [')'])) = none := by
  have character (c : Char) (rest : List Char) : renamedCall? ('(' :: '?' :: c :: rest) = none :=
    renamedCall?_of_head fun d member => by
      cases member
      decide
  cases joined with
  | nil => rfl
  | single =>
      cases isToken _ (.head _) with
      | character _ _ => exact character _ _
      | word isWord _ =>
          refine renamedCall?_single isWord fun name => other ?_
          obtain ⟨call, member, same⟩ := List.mem_map.mp name
          refine List.mem_map.mpr ⟨call, member, ?_⟩
          rw [same, String.toList_ofList]
  | @cons token between next text tokens apart joined =>
      obtain ⟨first, others⟩ := List.forall_mem_cons.mp isToken
      cases first with
      | character _ _ => exact character _ _
      | word isWord _ =>
          obtain ⟨d, rest, rfl, visible, item⟩ := (others next (.head _)).exists_cons
          obtain ⟨rest, rfl⟩ : ∃ rest, text = d :: rest := by
            cases joined with
            | single => exact ⟨_, rfl⟩
            | cons => exact ⟨_, rfl⟩
          rw [List.append_assoc, List.append_assoc]
          exact renamedCall?_several isWord apart.toBlanks visible item

theorem expand_call : ∀ call ∈ renamedCalls,
    expand (String.ofList ('(' :: (call.1.toList ++ [')']))) =
      .ok (String.ofList (call.2.toList ++ [')'])) :=
  List.forall_mem_cons.mpr ⟨rfl, List.forall_mem_singleton.mpr rfl⟩

theorem written_call : ∀ call ∈ renamedCalls, ∃ d, Written d (call.2.toList ++ [')']) := by
  have point : IsWord ['e', 'l', '-', 'p', 'o', 'i', 'n', 't'] :=
    isWord_of_isAlphanum (by decide) (plain_of_all (by decide))
  have function : IsWord ['c', 'a', 'l', 'l', '-', 'f', 'n'] :=
    isWord_of_isAlphanum (by decide) (plain_of_all (by decide))
  have mode : IsWord ['d', 'u', 'n', '-', 'm', 'o', 'd', 'e'] :=
    isWord_of_isAlphanum (by decide) (plain_of_all (by decide))
  have pointCall : ∃ d, Written d ("(el-point".toList ++ [')']) := by
    have text : "(el-point".toList ++ [')'] =
        '(' :: (['e', 'l', '-', 'p', 'o', 'i', 'n', 't'] ++ [')']) := by decide
    rw [text]
    exact ⟨_, .list (.word point) .close⟩
  have modeCall : ∃ d, Written d ("(call-fn 'dun-mode".toList ++ [')']) := by
    have text : "(call-fn 'dun-mode".toList ++ [')'] =
        '(' :: (['c', 'a', 'l', 'l', '-', 'f', 'n'] ++ ' ' ::
          ('\'' :: ['d', 'u', 'n', '-', 'm', 'o', 'd', 'e'] ++ [')'])) := by decide
    rw [text]
    exact ⟨_, .list (.word function) (.next (.quote (.word mode)) .close)⟩
  exact List.forall_mem_cons.mpr ⟨pointCall, List.forall_mem_singleton.mpr modeCall⟩

/-- A call that is written differently is read. -/
theorem readSource_call {call : String × String} (member : call ∈ renamedCalls) :
    ∃ d, readSource (String.ofList ('(' :: (call.1.toList ++ [')']))) = .ok [d] := by
  obtain ⟨d, written⟩ := written_call call member
  rw [← String.toList_ofList (l := call.2.toList ++ [')'])] at written
  exact ⟨d, readSource_eq_ok_iff.mpr ⟨_, expand_call call member, readExpanded_written written⟩⟩

theorem exists_forall₂ {α β : Type} {R : α → β → Prop} {as : List α}
    (each : ∀ a ∈ as, ∃ b, R a b) : ∃ bs, List.Forall₂ R as bs := by
  induction as with
  | nil => exact ⟨[], .nil⟩
  | cons a as ih =>
      obtain ⟨⟨b, first⟩, others⟩ := List.forall_mem_cons.mp each
      obtain ⟨bs, rest⟩ := ih others
      exact ⟨b :: bs, .cons first rest⟩

/-- Tokens in parentheses are read alike whatever blanks stand between them. -/
theorem readSource_anyBlanks {tokens : List (List Char)} {text : List Char}
    (isToken : ∀ token ∈ tokens, IsToken token) (joined : Joined Apart tokens text) :
    ∃ d, readSource (String.ofList ('(' :: (text ++ [')']))) = .ok [d] ∧
      readSource (String.ofList ('(' :: ([' '].intercalate tokens ++ [')']))) = .ok [d] := by
  have single : Joined Apart tokens ([' '].intercalate tokens) :=
    joined_intercalate apart_single tokens
  by_cases call : tokens ∈ renamedCalls.map fun call => [call.1.toList]
  · obtain ⟨call, member, rfl⟩ := List.mem_map.mp call
    obtain ⟨d, read⟩ := readSource_call member
    cases joined
    refine ⟨d, read, ?_⟩
    rw [intercalate_blank, List.flatMap_nil, List.append_nil]
    exact read
  · obtain ⟨wordss, passes⟩ :=
      exists_forall₂ fun token member => (isToken token member).exists_passes
    exact ⟨_, readSource_joined joined passes (renamedCall?_joined isToken joined call),
      readSource_joined single passes (renamedCall?_joined isToken single call)⟩

/-- Tokens of each kind, with form feeds, a no-break space and newlines among the blanks. -/
theorem readSource_anyBlanks_mixed :
    ∃ d, readSource "(a\t1+\n\x0c#x1F\u00a0 ?b\x0c-5)" = .ok [d] ∧
      readSource "(a 1+ #x1F ?b -5)" = .ok [d] := by
  have joined : Joined Apart [['a'], ['1', '+'], ['#', 'x', '1', 'F'], ['?', 'b'], ['-', '5']]
      (['a'] ++ (['\t'] ++ (['1', '+'] ++ (['\n', '\x0c'] ++ (['#', 'x', '1', 'F'] ++
        (['\u00a0', ' '] ++ (['?', 'b'] ++ (['\x0c'] ++ ['-', '5'])))))))) := by
    refine .cons ?_ (.cons ?_ (.cons ?_ (.cons ?_ (.single _))))
    all_goals exact ⟨blanks_of_all (by decide) (by decide), by decide, by decide⟩
  have isToken : ∀ token ∈ [['a'], ['1', '+'], ['#', 'x', '1', 'F'], ['?', 'b'], ['-', '5']],
      IsToken token := by
    intro token member
    simp only [List.mem_cons, List.not_mem_nil, or_false] at member
    rcases member with rfl | rfl | rfl | rfl | rfl
    · exact .word (isWord_of_isAlphanum (by decide) (plain_of_all (by decide))) (by decide)
    · exact .word (isWord_of_isAlphanum (by decide) (plain_of_all (by decide))) (by decide)
    · exact .word ⟨by decide, plain_of_all (by decide), by decide, by decide⟩ (by decide)
    · exact .character (by decide) (by decide)
    · exact .word ⟨by decide, plain_of_all (by decide), by decide, by decide⟩ (by decide)
  have mixed : "(a\t1+\n\x0c#x1F\u00a0 ?b\x0c-5)" = String.ofList ('(' :: (['a'] ++ (['\t'] ++
      (['1', '+'] ++ (['\n', '\x0c'] ++ (['#', 'x', '1', 'F'] ++ (['\u00a0', ' '] ++
        (['?', 'b'] ++ (['\x0c'] ++ ['-', '5']))))))) ++ [')'])) := by decide
  have plain : "(a 1+ #x1F ?b -5)" = String.ofList ('(' :: ([' '].intercalate
      [['a'], ['1', '+'], ['#', 'x', '1', 'F'], ['?', 'b'], ['-', '5']] ++ [')'])) := by decide
  rw [mixed, plain]
  exact readSource_anyBlanks isToken joined

/-- After a form feed the pass sees no character literal, and the reader a symbol. -/
theorem not_readSource_formFeed :
    ¬∀ (tokens : List (List Char)) (text : List Char),
      (∀ token ∈ tokens, IsToken token) → Spaced tokens text →
        ∃ d, readSource (String.ofList ('(' :: (text ++ [')']))) = .ok [d] ∧
          readSource (String.ofList ('(' :: ([' '].intercalate tokens ++ [')']))) = .ok [d] := by
  intro alike
  have a : IsWord ['a'] := isWord_of_isAlphanum (by decide) (plain_of_all (by decide))
  have b : IsWord ['?', 'b'] := ⟨by decide, plain_of_all (by decide), by decide, by decide⟩
  have isToken : ∀ token ∈ [['a'], ['?', 'b']], IsToken token :=
    List.forall_mem_cons.mpr
      ⟨.word a (by decide), List.forall_mem_singleton.mpr (.character (by decide) (by decide))⟩
  have spaced : Spaced [['a'], ['?', 'b']] (['a'] ++ (['\x0c'] ++ ['?', 'b'])) :=
    .cons (blanks_of_all (by decide) (by decide)) (.single _)
  obtain ⟨d, fed, single⟩ := alike _ _ isToken spaced
  have copied : Expands none ('(' :: (['a'] ++ (['\x0c'] ++ ['?', 'b']) ++ [')']))
      ('(' :: (['a'] ++ (['\x0c'] ++ ['?', 'b']) ++ [')'])) := by
    refine .copy (fun _ => rfl) (by decide) (by decide) ?_
    refine .character (by decide) (by decide) (.character (by decide) (by decide) ?_)
    refine .copy (fun _ => rfl) (by decide) (by decide) ?_
    exact .character (by decide) (by decide) (.character (by decide) (by decide) (.nil _))
  have isWord : ∀ word ∈ [['a'], ['?', 'b']], IsWord word :=
    List.forall_mem_cons.mpr ⟨a, List.forall_mem_singleton.mpr b⟩
  have symbol := readSource_eq_ok_iff.mpr
    ⟨_, expand_expands copied, readExpanded_spaced spaced isWord⟩
  have code := readSource_joined (joined_intercalate apart_single [['a'], ['?', 'b']])
    (.cons (passes_word a (by decide) (by decide)) (.cons (passes_character (by decide)) .nil)) rfl
  have symbols : [['a'], ['?', 'b']].map atomDatum = [.symbol "a", .symbol "?b"] := rfl
  have codes : [[['a']], [Nat.toDigits 10 'b'.toNat]].flatten.map atomDatum =
      [.symbol "a", .int 98] := rfl
  rw [symbols] at symbol
  rw [codes] at code
  rw [symbol] at fed
  rw [code] at single
  cases fed
  cases single

/-! ## Literals of numbers -/

/-- The letters that mark a radix. -/
def radixMarks : List (Char × Nat) :=
  [('x', 16), ('X', 16), ('o', 8), ('O', 8), ('b', 2), ('B', 2)]

/-- The literals of an integer of a machine word: a decimal numeral, a numeral in another radix with
letters of either case, a character, and the code of one in octal. -/
inductive Denotes : List Char → Int64 → Prop where
  | decimal {word : List Char} {n : Nat} {value : Int64} :
      Number.Spells 10 word n → value.toInt = n → Denotes word value
  | negative {word : List Char} {n : Nat} {value : Int64} :
      Number.Spells 10 word n → value.toInt = -n → Denotes ('-' :: word) value
  | radix {mark : Char} {radix : Nat} {word : List Char} {n : Nat} {value : Int64} :
      (mark, radix) ∈ radixMarks →
        Number.Spells radix word n → value.toInt = n → Denotes ('#' :: mark :: word) value
  | character {c : Char} {value : Int64} :
      c ≠ '\\' → value.toInt = c.toNat → Denotes ['?', c] value
  | octal {word : List Char} {n : Nat} {value : Int64} :
      word.length = 3 → Number.Spells 8 word n → value.toInt = n →
        Denotes ('?' :: '\\' :: word) value

theorem isAlphanum_of_mem_marks {mark : Char} {radix : Nat}
    (marked : (mark, radix) ∈ radixMarks) : mark.isAlphanum = true := by
  have all : (radixMarks.all fun entry => entry.1.isAlphanum) = true := by decide
  exact List.all_eq_true.mp all _ marked

theorem radixLiteral?_spells {mark : Char} {radix : Nat} {word : List Char} {n : Nat}
    {value : Int64} (marked : (mark, radix) ∈ radixMarks) (spells : Number.Spells radix word n)
    (natural : value.toInt = n) :
    radixLiteral? ('#' :: mark :: word) = some (value, ('#' :: mark :: word).length) := by
  have whole : word.takeWhile (Number.isDigit radix) = word :=
    List.takeWhile_eq_self_iff.mpr spells.digits
  have literal := Number.intLiteral?_append .none spells
  rw [List.nil_append, if_neg Bool.false_ne_true, ← natural, Number.fixed?_toInt] at literal
  have used : 2 + word.length = ('#' :: mark :: word).length := Nat.add_comm 2 word.length
  simp only [radixMarks, List.mem_cons, List.not_mem_nil, or_false, Prod.mk.injEq] at marked
  rcases marked with ⟨rfl, rfl⟩ | ⟨rfl, rfl⟩ | ⟨rfl, rfl⟩ | ⟨rfl, rfl⟩ | ⟨rfl, rfl⟩ | ⟨rfl, rfl⟩
  all_goals
    simp [radixLiteral?, whole, literal, used]

theorem atomDatum_of_intLiteral? {word : List Char} {value : Int64}
    (literal : Number.intLiteral? 10 word = some value) : atomDatum word = .int value := by
  unfold atomDatum
  rw [literal]

theorem atomDatum_toDigits {n : Nat} {value : Int64} (natural : value.toInt = n) :
    atomDatum (Nat.toDigits 10 n) = .int value := by
  have literal := Number.intLiteral?_numeral value
  rw [natural, Number.numeral_natCast] at literal
  exact atomDatum_of_intLiteral? literal

namespace Denotes

variable {text : List Char} {value : Int64}

theorem exists_passes (denotes : Denotes text value) :
    ∃ word, Passes text [word] ∧ atomDatum word = .int value := by
  cases denotes with
  | decimal spells natural =>
      have digits : ∀ c ∈ text, c.isDigit = true := fun c member =>
        Number.isDigit_of_decimal (spells.digits c member)
      have literal := Number.intLiteral?_append .none spells
      rw [if_neg Bool.false_ne_true, ← natural, Number.fixed?_toInt] at literal
      exact ⟨text, passes_digits spells.nonempty digits, atomDatum_of_intLiteral? literal⟩
  | @negative word n _ spells natural =>
      have digits : ∀ c ∈ word, c.isDigit = true := fun c member =>
        Number.isDigit_of_decimal (spells.digits c member)
      have literal := Number.intLiteral?_append .minus spells
      rw [if_pos rfl, ← natural, Number.fixed?_toInt] at literal
      exact ⟨_, passes_negative digits, atomDatum_of_intLiteral? literal⟩
  | @radix mark radix word n _ marked spells natural =>
      have found := radixLiteral?_spells marked spells natural
      have plain : ∀ c ∈ mark :: word, InsideAtom c := by
        intro c member
        refine insideAtom_of_isAlphanum ?_
        cases member with
        | head => exact isAlphanum_of_mem_marks marked
        | tail _ member => exact Number.isAlphanum_of_isDigit (spells.digits c member)
      exact ⟨_, passes_radixLiteral plain found natural, atomDatum_toDigits natural⟩
  | character unescaped natural =>
      exact ⟨_, passes_character unescaped, atomDatum_toDigits natural⟩
  | octal three spells natural =>
      exact ⟨_, passes_octal three spells, atomDatum_toDigits natural⟩

/-- A literal starts with no letter that a call could start with. -/
theorem head (denotes : Denotes text value) (rest : List Char) :
    ∀ c ∈ (text ++ rest).head?, isCallBlank c = false ∧ c ≠ 'p' ∧ c ≠ 'd' := by
  cases denotes with
  | decimal spells _ =>
      obtain ⟨c, word, rfl, digit⟩ := spells.exists_cons
      intro d member
      cases member
      refine ⟨noCallBlank (Number.isBlank_of_isDigit digit), ?_⟩
      constructor
      all_goals
        rintro rfl
        exact absurd (Number.isDigit_of_decimal digit) (by decide)
  | negative | radix | character | octal =>
      intro c member
      cases member
      decide

end Denotes

/-- A list of literals is read as the list of their numbers. -/
theorem readSource_literals {texts : List (List Char)} {values : List Int64}
    (denote : List.Forall₂ Denotes texts values) :
    readSource (String.ofList ('(' :: ([' '].intercalate texts ++ [')']))) =
      .ok [.ofList (values.map .int)] := by
  obtain ⟨wordss, passes, data⟩ : ∃ wordss, List.Forall₂ Passes texts wordss ∧
      wordss.flatten.map atomDatum = values.map .int := by
    induction denote with
    | nil => exact ⟨[], .nil, rfl⟩
    | cons first _ ih =>
        obtain ⟨word, passes, datum⟩ := first.exists_passes
        obtain ⟨wordss, rest, data⟩ := ih
        refine ⟨[word] :: wordss, .cons passes rest, ?_⟩
        simp [datum, data]
  have noCall : renamedCall? ('(' :: ([' '].intercalate texts ++ [')'])) = none := by
    cases denote with
    | nil => rfl
    | @cons _ _ texts _ first _ =>
        rw [intercalate_blank, List.append_assoc]
        exact renamedCall?_of_head (first.head _)
  rw [readSource_joined (joined_intercalate apart_single texts) passes noCall, data]

/-- A negative number, both letter cases, a semicolon, an octal code and leading zeros. -/
theorem readSource_literals_mixed :
    readSource "(-5 #XfF ?; ?\\101 007)" = .ok [.ofList ([-5, 255, 59, 65, 7].map .int)] := by
  have hex : Number.Spells 16 ['f', 'F'] 255 := ⟨by decide, List.all_eq_true.mp (by decide), rfl⟩
  have denote : List.Forall₂ Denotes
      [['-', '5'], ['#', 'X', 'f', 'F'], ['?', ';'], ['?', '\\', '1', '0', '1'], ['0', '0', '7']]
      [-5, 255, 59, 65, 7] :=
    .cons (.negative ⟨by decide, List.all_eq_true.mp (by decide), rfl⟩ rfl) <|
    .cons (.radix (by decide) hex rfl) <|
    .cons (.character (by decide) rfl) <|
    .cons (.octal rfl ⟨by decide, List.all_eq_true.mp (by decide), rfl⟩ rfl) <|
    .cons (.decimal ⟨by decide, List.all_eq_true.mp (by decide), rfl⟩ rfl) .nil
  have text : "(-5 #XfF ?; ?\\101 007)" = String.ofList ('(' :: ([' '].intercalate
      [['-', '5'], ['#', 'X', 'f', 'F'], ['?', ';'], ['?', '\\', '1', '0', '1'],
        ['0', '0', '7']] ++ [')'])) := by decide
  rw [text]
  exact readSource_literals denote

end EditorLisp.Source
