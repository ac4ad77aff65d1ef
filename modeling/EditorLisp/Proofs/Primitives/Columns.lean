import EditorLisp.Proofs.Primitives.Literal

/-!
# Texts cut off at a column

A string is cut off at a column, with an ellipsis at the end if it is too wide.  The columns of the
ellipsis are set aside first, and characters are taken as long as the next one fits into what is
left, so that a wide character never crosses the limit.  Leaving out the characters before a start
column only makes the result narrower.

Room can be set aside for an ellipsis that is no wider than all the room there is.  A wider one is
written all the same, and then the result is as wide as the ellipsis.
-/

namespace EditorLisp.Primitives

open Eval

variable {s : Session} {args : List Value} {whole : String} {stop start limit column : Nat}
  {out rest : List Char}

/-! ## Columns -/

@[simp]
theorem textWidth_nil : textWidth [] = 0 := rfl

@[simp]
theorem textWidth_cons (c : Char) (cs : List Char) :
    textWidth (c :: cs) = charWidth c + textWidth cs := rfl

@[simp]
theorem textWidth_append (front back : List Char) :
    textWidth (front ++ back) = textWidth front + textWidth back := by
  induction front with
  | nil => rw [List.nil_append, textWidth_nil, Nat.zero_add]
  | cons c front ih => rw [List.cons_append, textWidth_cons, textWidth_cons, ih, Nat.add_assoc]

@[simp]
theorem textWidth_reverse (cs : List Char) : textWidth cs.reverse = textWidth cs := by
  induction cs with
  | nil => rfl
  | cons c cs ih =>
      rw [List.reverse_cons, textWidth_append, textWidth_cons, textWidth_cons, ih, textWidth_nil,
        Nat.add_zero, Nat.add_comm]

/-- What is taken up to a limit is no wider than the limit.  The induction is on the characters that
are left; so far no more columns are filled than have been passed, and those are within the
limit. -/
theorem textWidth_takeColumns_le (filled : textWidth out ≤ column) (inside : column ≤ limit) :
    textWidth (takeColumns start limit column out rest).1 ≤ limit := by
  induction rest generalizing column out with
  | nil =>
      rw [takeColumns, textWidth_reverse]
      exact Nat.le_trans filled inside
  | cons c rest ih =>
      rw [takeColumns]
      split
      next =>
        rw [textWidth_reverse]
        exact Nat.le_trans filled inside
      next fits =>
        refine ih ?_ (Nat.le_of_not_lt fits)
        split
        · rw [textWidth_cons, Nat.add_comm]
          exact Nat.add_le_add_right filled _
        · exact Nat.le_add_right_of_le filled

/-! ## Calls -/

/-- What stands for the rest of a string that is cut off. -/
def ellipsis : Option Value → List Char
  | some (.str _ e) => e.toList
  | some _ => ['.', '.', '.']
  | none => []

/-- A string cut off at a column, from a start column on. -/
def truncated (start stop : Nat) (ellipsis whole : List Char) : List Char :=
  let tail := if stop < textWidth whole then ellipsis else []
  (takeColumns start (stop - textWidth tail) 0 [] whole).1 ++ tail

theorem textWidth_truncated_le {ellipsis whole : List Char}
    (fits : textWidth whole ≤ stop ∨ textWidth ellipsis ≤ stop) :
    textWidth (truncated start stop ellipsis whole) ≤ stop := by
  unfold truncated
  extract_lets tail
  have tailFits : textWidth tail ≤ stop := by
    unfold tail
    split
    next wide => exact fits.resolve_left (Nat.not_le_of_lt wide)
    next => exact Nat.zero_le _
  have taken : textWidth (takeColumns start (stop - textWidth tail) 0 [] whole).1 ≤
      stop - textWidth tail :=
    textWidth_takeColumns_le (Nat.le_refl 0) (Nat.zero_le _)
  rw [textWidth_append]
  omega

/-- The arguments are a string, a column, perhaps a start column and no padding. -/
structure Truncates (args : List Value) (s : Session) (whole : String) (start stop : Nat) :
    Prop where
  counted : between "truncate-string-to-width" args 2 6 s = .ok () s
  whole : string (arg args 0) s = .ok whole s
  stop : natural (arg args 1) s = .ok stop s
  start : naturalOr 0 (given? args 2) s = .ok start s
  unpadded : given? args 3 = none

theorem truncateStringToWidth_eq (I : Interp) (truncates : Truncates args s whole start stop) :
    callPrimitive I "truncate-string-to-width" args s =
      text (String.ofList (truncated start stop (ellipsis (given? args 4)) whole.toList)) s := by
  rw [callPrimitive_of_strings I rfl]
  unfold truncateStringToWidth
  refine (bind_of_ok _ truncates.counted).trans ((bind_of_ok _ truncates.whole).trans ?_)
  refine (bind_of_ok _ truncates.stop).trans ((bind_of_ok _ truncates.start).trans ?_)
  rw [truncates.unpadded]
  refine (bind_of_ok _ rfl).trans ?_
  dsimp only
  rw [List.append_nil]
  rfl

theorem stringWidth_eq (I : Interp) (handle : Nat) (out : String) (s : Session) :
    callPrimitive I "string-width" [.str handle out] s =
      .ok (.ofNat (textWidth out.toList)) s := by
  rw [callPrimitive_of_strings I rfl]
  exact (bind_of_ok _ rfl).trans (bind_of_ok _ rfl)

/-- A string that is cut off at a column, without padding, is no wider than that, unless both the
string and the ellipsis are wider. -/
theorem stringWidth_truncateStringToWidth (I : Interp)
    (truncates : Truncates args s whole start stop)
    (fits : textWidth whole.toList ≤ stop ∨ textWidth (ellipsis (given? args 4)) ≤ stop) :
    ∃ handle out t, callPrimitive I "truncate-string-to-width" args s = .ok (.str handle out) t ∧
      ∃ width ≤ stop,
        callPrimitive I "string-width" [.str handle out] t = .ok (.ofNat width) t := by
  let out := truncated start stop (ellipsis (given? args 4)) whole.toList
  have narrow : textWidth out ≤ stop := textWidth_truncated_le fits
  have called : callPrimitive I "truncate-string-to-width" args s = text (String.ofList out) s :=
    truncateStringToWidth_eq I truncates
  refine ⟨_, String.ofList out, _, called, textWidth out, narrow, ?_⟩
  rw [stringWidth_eq, String.toList_ofList]

/-- One wide character stands across the start column and another one across the limit. -/
theorem stringWidth_truncateStringToWidth_wide :
    let s := sessionOf "" 0
    let args : List Value := [.str 0 "日本語abc", .int 8, .int 1, .nil, .t]
    Truncates args s "日本語abc" 1 8 ∧
      (textWidth "日本語abc".toList ≤ 8 ∨ textWidth (ellipsis (given? args 4)) ≤ 8) ∧
      callPrimitive .top "truncate-string-to-width" args s = text "本..." s ∧
      ∃ handle out t, callPrimitive .top "truncate-string-to-width" args s =
        .ok (.str handle out) t ∧
        ∃ width ≤ 8, callPrimitive .top "string-width" [.str handle out] t =
          .ok (.ofNat width) t := by
  intro s args
  have truncates : Truncates args s "日本語abc" 1 8 := ⟨rfl, rfl, rfl, rfl, rfl⟩
  have fits : textWidth "日本語abc".toList ≤ 8 ∨ textWidth (ellipsis (given? args 4)) ≤ 8 :=
    .inr (by decide)
  have out : truncated 1 8 (ellipsis (given? args 4)) "日本語abc".toList = ['本', '.', '.', '.'] := by
    decide +kernel
  have called := truncateStringToWidth_eq .top truncates
  rw [out] at called
  exact ⟨truncates, fits, called, stringWidth_truncateStringToWidth .top truncates fits⟩

/-- An ellipsis of three columns in place of a string that is cut off at the second one. -/
theorem not_stringWidth_truncateStringToWidth :
    let s := sessionOf "" 0
    let args : List Value := [.str 0 "abcdef", .int 2, .nil, .nil, .str 1 "..."]
    Truncates args s "abcdef" 0 2 ∧
      ∃ handle t, callPrimitive .top "truncate-string-to-width" args s = .ok (.str handle "...") t ∧
        callPrimitive .top "string-width" [.str handle "..."] t = .ok (.int 3) t := by
  intro s args
  have truncates : Truncates args s "abcdef" 0 2 := ⟨rfl, rfl, rfl, rfl, rfl⟩
  have out : truncated 0 2 (ellipsis (given? args 4)) "abcdef".toList = ['.', '.', '.'] := by
    decide
  have called := truncateStringToWidth_eq .top truncates
  rw [out] at called
  exact ⟨truncates, _, _, called, stringWidth_eq .top _ "..." _⟩

end EditorLisp.Primitives
