import EditorLisp.Proofs.Source.Pass
import EditorLisp.Proofs.Source.Place

/-!
# Comments

A comment in front of a text does not change what is read of the text.  Comments are met
twice: the pass that writes shorthand out copies line comments and knows nothing of block
comments, and the reader steps over both.  So a line comment never matters, and a block
comment does not as long as the pass leaves it one: a quote in its body starts a string for
the pass, a bracket opens a vector, and a question mark may take the bar that ends the comment
for a character.

Block comments nest.  A body that ends in a hash makes an opening mark with the bar after it,
so the comment goes on.
-/

namespace EditorLisp.Source

/-! ## Comments before a text -/

/-- A line comment and the newline that ends it. -/
def IsLineComment (text : List Char) : Prop :=
  ∃ body, '\n' ∉ body ∧ text = ';' :: (body ++ ['\n'])

/-- A block comment and a newline after it.  No mark of a block comment stands in its body,
and the end of the body does not make one with the bar that follows. -/
def IsBlockComment (text : List Char) : Prop :=
  ∃ body, ¬['#', '|'] <:+: body ++ ['|'] ∧ ¬['|', '#'] <:+: body ∧
    text = '#' :: '|' :: (body ++ closing)

/-- The pass gets through a text and stands in plain code after it, as at the start of a
line, with nothing but what it has written. -/
def PassedAs (written : String) (text : List Char) : Prop :=
  ∀ (more : List Char) (fuel : Nat), (text ++ more).length ≤ fuel →
    ∃ left final, more.length ≤ left ∧
      expandFrom fuel {} (text ++ more) = expandFrom left final more ∧
      Scan.Behind final.offset written {} final

theorem expand_eq_ok_iff {source out : String} :
    expand source = .ok out ↔
      ∃ final, expandFrom source.toList.length {} source.toList = .ok final ∧
        (final.mode = .code ∨ final.mode = .comment) ∧ final.openBrackets = [] ∧
        final.out = out := by
  unfold expand
  simp only [bind, Except.bind]
  cases expandFrom source.toList.length {} source.toList with
  | error e => simp
  | ok final =>
      obtain ⟨mode, prev, offset, openBrackets, written⟩ := final
      cases mode <;> cases openBrackets <;>
        simp [throw, throwThe, MonadExceptOf.throw, pure, Except.pure]

theorem step_comment {scan : Scan} (inside : scan.mode = .comment) (c : Char) (rest : List Char) :
    scan.step (c :: rest) =
      .ok ({ scan with
               mode := ScanMode.comment.next c, prev := some c, offset := scan.offset + 1,
               out := scan.out.push c }, rest) := by
  rw [Scan.step_outside (by rw [inside]; exact nofun), inside]

/-- A line comment is copied up to the end of the line. -/
theorem expandFrom_line (body more : List Char) (oneLine : '\n' ∉ body) (fuel : Nat) (scan : Scan)
    (inside : scan.mode = .comment) :
    ∃ final, expandFrom (fuel + body.length + 1) scan (body ++ '\n' :: more) =
        expandFrom fuel final more ∧
      final.mode = .code ∧ final.prev = some '\n' ∧ final.openBrackets = scan.openBrackets ∧
      final.out = scan.out ++ String.ofList (body ++ ['\n']) := by
  induction body generalizing scan with
  | nil =>
      refine ⟨{ scan with mode := .code, prev := some '\n', offset := scan.offset + 1,
                          out := scan.out.push '\n' }, ?_, rfl, rfl, rfl, ?_⟩
      · rw [List.nil_append, expandFrom_cons, step_comment inside]
        rfl
      · apply String.toList_injective
        simp
  | cons c body ih =>
      simp only [List.mem_cons, not_or] at oneLine
      have goesOn : ScanMode.comment.next c = .comment := if_neg (Ne.symm oneLine.1)
      obtain ⟨final, same, code, prev, brackets, out⟩ :=
        ih oneLine.2
          { scan with mode := ScanMode.comment.next c, prev := some c, offset := scan.offset + 1,
                      out := scan.out.push c }
          goesOn
      refine ⟨final, ?_, code, prev, brackets, ?_⟩
      · rw [List.cons_append, List.length_cons, ← Nat.add_assoc, expandFrom_cons,
          step_comment inside]
        exact same
      · rw [out]
        apply String.toList_injective
        simp

theorem passedAs_of_isLineComment {text : List Char} (line : IsLineComment text) :
    PassedAs (String.ofList text) text := by
  obtain ⟨body, oneLine, rfl⟩ := line
  intro more fuel enough
  simp only [List.cons_append, List.append_assoc, List.nil_append, List.length_cons,
    List.length_append] at enough ⊢
  obtain ⟨left, rfl⟩ : ∃ n, fuel = n + body.length + 1 + 1 := ⟨fuel - body.length - 2, by omega⟩
  have some_left : more.length ≤ left := by omega
  let started : Scan := { mode := .comment, prev := some ';', offset := 1, out := ";" }
  obtain ⟨final, same, code, prev, brackets, out⟩ :=
    expandFrom_line body more oneLine left started rfl
  refine ⟨left, final, some_left, ?_, code, ?_, (Nat.zero_add _).symm, brackets, ?_⟩
  · rw [expandFrom_cons]
    exact same
  · rw [prev]
    rfl
  · rw [out]
    apply String.toList_injective
    simp [started]

theorem passedAs_of_isBlockComment {text written : String} (block : IsBlockComment text.toList)
    (expanded : expand text = .ok written) : PassedAs written text.toList := by
  obtain ⟨final, run, noText, closed, out⟩ := expand_eq_ok_iff.mp expanded
  intro more fuel enough
  obtain ⟨body, -, -, text_eq⟩ := block
  have closes : UpToClosing text.toList := ⟨'#' :: '|' :: body, text_eq ▸ List.suffix_rfl⟩
  obtain ⟨left, some_left, same⟩ := expandFrom_append closes more (Nat.le_refl _) enough run
  rw [text_eq] at run
  obtain ⟨prev, noComment⟩ := expandFrom_ends (text_eq ▸ Nat.le_refl text.toList.length) run
  have newline : final.prev = some '\n' := by
    rw [prev]
    show ((['#', '|'] ++ body) ++ closing).getLast? = some '\n'
    rw [List.getLast?_append]
    rfl
  have code : final.mode = .code := noText.resolve_right fun mode => noComment mode newline
  refine ⟨left, final, some_left, same, code, ?_, (Nat.zero_add _).symm, closed, ?_⟩
  · rw [newline]
    rfl
  · rw [out]
    exact String.append_empty.symm

/-- The pass writes the texts after each other. -/
theorem expand_append {text written source out : String} (passed : PassedAs written text.toList)
    (expanded : expand source = .ok out) : expand (text ++ source) = .ok (written ++ out) := by
  obtain ⟨final, run, noText, closed, rfl⟩ := expand_eq_ok_iff.mp expanded
  rw [expand_eq_ok_iff, String.toList_append]
  obtain ⟨left, scan, enough, same, behind⟩ := passed source.toList _ (Nat.le_refl _)
  obtain ⟨final', run', behind'⟩ := behind.expandFrom (Nat.le_refl _) enough run
  refine ⟨final', same.trans run', ?_, ?_, behind'.out⟩
  · rw [behind'.mode]
    rcases noText with mode | mode
    · exact .inl (by rw [mode]; rfl)
    · exact .inr (by rw [mode]; rfl)
  · rw [behind'.openBrackets, closed]
    rfl

/-! ## Comments and the reader -/

theorem skipFrom_block (body more : List Char) (noOpening : ¬['#', '|'] <:+: body ++ ['|'])
    (noClosing : ¬['|', '#'] <:+: body) (offset : Nat) :
    ∃ offset', Cursor.skipFrom (.block 1) offset (body ++ '|' :: '#' :: more) =
      Cursor.skipFrom .blanks offset' more := by
  induction body generalizing offset with
  | nil => exact ⟨offset + 2, rfl⟩
  | cons c body ih =>
      have noOpening' : ¬['#', '|'] <:+: body ++ ['|'] := fun inside =>
        noOpening (inside.trans (List.suffix_cons c _).isInfix)
      have noClosing' : ¬['|', '#'] <:+: body := fun inside =>
        noClosing (inside.trans (List.suffix_cons c _).isInfix)
      obtain ⟨offset', skipped⟩ := ih noOpening' noClosing' (offset + c.utf8Size)
      refine ⟨offset', ?_⟩
      rw [← skipped, List.cons_append]
      -- The character and the next one make no mark, the bar after the body included.
      cases body with
      | nil =>
          have noHash : c ≠ '#' := by
            rintro rfl
            exact noOpening List.infix_rfl
          refine Cursor.skipFrom_block_cons _ _ ?_ ?_
          · exact fun _ hash _ => noHash hash
          · exact fun _ _ next => nomatch next
      | cons d body =>
          refine Cursor.skipFrom_block_cons _ _ ?_ ?_
          · rintro _ rfl next
            cases next
            exact noOpening ⟨[], body ++ ['|'], rfl⟩
          · rintro _ rfl next
            cases next
            exact noClosing ⟨[], body, rfl⟩

theorem skipFrom_line (body more : List Char) (oneLine : '\n' ∉ body) (offset : Nat) :
    ∃ offset', Cursor.skipFrom .line offset (body ++ '\n' :: more) =
      Cursor.skipFrom .blanks offset' more := by
  induction body generalizing offset with
  | nil => exact ⟨offset + 1, rfl⟩
  | cons c body ih =>
      simp only [List.mem_cons, not_or] at oneLine
      obtain ⟨offset', skipped⟩ := ih oneLine.2 (offset + c.utf8Size)
      refine ⟨offset', ?_⟩
      rw [← skipped, List.cons_append, Cursor.skipFrom_line_cons,
        if_neg (Ne.symm oneLine.1)]

/-- The reader steps over a comment. -/
theorem skipFrom_comment {text : List Char} (comment : IsLineComment text ∨ IsBlockComment text)
    (more : List Char) (offset : Nat) :
    ∃ offset', Cursor.skipFrom .blanks offset (text ++ more) =
      Cursor.skipFrom .blanks offset' more := by
  rcases comment with ⟨body, oneLine, rfl⟩ | ⟨body, noOpening, noClosing, rfl⟩
  · obtain ⟨offset', skipped⟩ := skipFrom_line body more oneLine (offset + 1)
    refine ⟨offset', ?_⟩
    rw [List.cons_append, List.append_assoc, ← skipped]
    rfl
  · obtain ⟨offset', skipped⟩ := skipFrom_block body ('\n' :: more) noOpening noClosing (offset + 2)
    refine ⟨offset' + 1, ?_⟩
    simp only [List.cons_append, List.append_assoc]
    exact skipped

/-- A comment in front of a text that is read does not change what is read. -/
theorem readExpanded_append {text out : String} {forms : List Datum}
    (comment : IsLineComment text.toList ∨ IsBlockComment text.toList)
    (read : readExpanded out = .ok forms) : readExpanded (text ++ out) = .ok forms := by
  obtain ⟨offset, skipped⟩ := skipFrom_comment comment out.toList 0
  have further :
      (Cursor.ofString (text ++ out)).skip = ((Cursor.ofString out).moved offset).skip := by
    unfold Cursor.skip Cursor.ofString Cursor.moved
    simp only [String.toList_append, skipped, Nat.zero_add]
  have enough : (Cursor.ofString out).rest.length < out.length + 1 := by
    rw [← String.length_toList]
    exact Nat.lt_succ_self _
  have enough' : (Cursor.ofString out).rest.length < (text ++ out).length + 1 := by
    rw [String.length_append]
    omega
  have moved := readAllFrom_moved offset (Cursor.ofString out) [] enough enough' read
  unfold readExpanded
  rw [readAllFrom, further]
  rw [readAllFrom] at moved
  exact moved

theorem readSource_eq_ok_iff {source : String} {forms : List Datum} :
    readSource source = .ok forms ↔
      ∃ out, expand source = .ok out ∧ readExpanded out = .ok forms := by
  unfold readSource
  cases expand source with
  | error e => simp [bind, Except.bind]
  | ok out => simp [bind, Except.bind]

/-- A comment in front of a text does not change what is read: a line comment with the newline
that ends it, or a block comment with a newline after it that is still one when the pass has
gone over it. -/
theorem readSource_comment_append {comment source : String} {forms : List Datum}
    (isComment : IsLineComment comment.toList ∨
      IsBlockComment comment.toList ∧
        ∃ written, expand comment = .ok written ∧ IsBlockComment written.toList)
    (read : readSource source = .ok forms) : readSource (comment ++ source) = .ok forms := by
  obtain ⟨out, expanded, readOut⟩ := readSource_eq_ok_iff.mp read
  rw [readSource_eq_ok_iff]
  rcases isComment with line | ⟨block, written, passed, stillBlock⟩
  · refine ⟨comment ++ out, ?_, readExpanded_append (.inl line) readOut⟩
    have copied := passedAs_of_isLineComment line
    rw [String.ofList_toList] at copied
    exact expand_append copied expanded
  · exact ⟨written ++ out, expand_append (passedAs_of_isBlockComment block passed) expanded,
      readExpanded_append (.inr stillBlock) readOut⟩

/-- The brackets in a block comment are written out, and the quotes in it hide a bar. -/
theorem readSource_comment_append_brackets :
    IsBlockComment "#|[x] \"|\"|#\n".toList ∧
      expand "#|[x] \"|\"|#\n" = .ok "#|(vector-literal x) \"|\"|#\n" ∧
      IsBlockComment "#|(vector-literal x) \"|\"|#\n".toList ∧
      readSource "'x" = .ok [.ofList [.symbol "quote", .symbol "x"]] ∧
      readSource ("#|[x] \"|\"|#\n" ++ "'x") = .ok [.ofList [.symbol "quote", .symbol "x"]] := by
  have block : IsBlockComment "#|[x] \"|\"|#\n".toList :=
    ⟨['[', 'x', ']', ' ', '"', '|', '"'], by decide, by decide, rfl⟩
  have written : expand "#|[x] \"|\"|#\n" = .ok "#|(vector-literal x) \"|\"|#\n" := rfl
  have still : IsBlockComment "#|(vector-literal x) \"|\"|#\n".toList :=
    ⟨['(', 'v', 'e', 'c', 't', 'o', 'r', '-', 'l', 'i', 't', 'e', 'r', 'a', 'l', ' ', 'x', ')', ' ',
        '"', '|', '"'], by decide, by decide, rfl⟩
  have read : readSource "'x" = .ok [.ofList [.symbol "quote", .symbol "x"]] := rfl
  exact ⟨block, written, still, read,
    readSource_comment_append (.inr ⟨block, _, written, still⟩) read⟩

/-- A body that ends in a hash opens another comment, which takes the rest of the text with it.
A quote in a body starts a string, which takes the end of the comment with it. -/
theorem not_readSource_comment_append :
    readSource "x" = .ok [.symbol "x"] ∧
      (¬['#', '|'] <:+: ['#'] ∧ ¬['|', '#'] <:+: ['#'] ∧ readSource ("#|#|#\n" ++ "x") = .ok []) ∧
      ¬['#', '|'] <:+: ['"'] ∧ ¬['|', '#'] <:+: ['"'] ∧
        readSource ("#|\"|#\n" ++ "x") = .error ⟨.unterminatedLiteral, 2⟩ :=
  ⟨rfl, ⟨by decide, by decide, rfl⟩, by decide, by decide, rfl⟩

end EditorLisp.Source
