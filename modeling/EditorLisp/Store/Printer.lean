import EditorLisp.Number.Shortest
import EditorLisp.Store.Basic

/-!
# Printed values

The text of a value, in two styles: one that can be read back, where strings are quoted,
and one meant for people, where they are not.  Buffers print under their names if the
caller knows them.  Long lists and deep nesting are cut off with an ellipsis, which makes
printing total on circular data.
-/

namespace EditorLisp.Store

/-- Longest list and deepest nesting that is printed. -/
def printLimit : Nat := 10000

/-- How to print: whether strings are quoted, and what buffers are called. -/
structure PrintStyle where
  /-- Whether strings are quoted. -/
  quoted : Bool := true
  /-- The name of a buffer, if it is to be shown. -/
  bufferName : Nat → Option String := fun _ => none

/-- A string in quotes, with quotes and backslashes escaped. -/
def writeQuoted (out text : String) : String :=
  (text.foldl (fun (out : String) c =>
    if c = '"' then out ++ "\\\"" else if c = '\\' then out ++ "\\\\" else out.push c)
    (out.push '"')).push '"'

/-- The mark that abbreviates a list of two elements, by its head. -/
def quoteMark? (head : Value) : Option String :=
  if head.isNamed "quote" then some "'"
  else if head.isNamed "function" then some "#'"
  else none

/-- Write the elements of a list after its opening parenthesis: at most `room` of them,
`first` telling whether one was written before. -/
def writeElements (s : Store) (write : String → Value → String) :
    Nat → Bool → String → Value → String
  | room, first, out, v =>
    match v with
    | .cons _ =>
      let out := if first then out else out.push ' '
      match room with
      | 0 => out ++ "..."
      | room + 1 => writeElements s write room false (write out (s.car v)) (s.cdr v)
    | .nil => out
    | other => write (out ++ " . ") other

def writeSeparated (write : String → Value → String) (out : String) : List Value → String
  | [] => out
  | [v] => write out v
  | v :: rest => writeSeparated write ((write out v).push ' ') rest

def writeItems (write : String → Value → String) (out : String) (items : List Value) : String :=
  let out := writeSeparated write (out.push '(') (items.take printLimit)
  if printLimit < items.length then out ++ " ...)" else out.push ')'

/-- Append the printed form of a value, going at most as many levels deep as the counter
says. -/
def write (s : Store) (style : PrintStyle) : Nat → String → Value → String
  | 0, out, _ => out ++ "..."
  | room + 1, out, v =>
    let function (out : String) (c : Closure) : String :=
      let names := c.params.written.map Value.ofName
      -- A parameter list is written like any list, with an empty one as `nil`.
      let out := out ++ "(lambda "
      let params :=
        match room, names with
        | 0, _ => out ++ "..."
        | _, [] => out ++ "nil"
        | room + 1, [head, tail] =>
          match quoteMark? head with
          | some mark => write s style room (out ++ mark) tail
          | none => writeItems (write s style room) out names
        | room + 1, names => writeItems (write s style room) out names
      (c.body.foldl (fun (out : String) form => write s style room (out.push ' ') form) params).push ')'
    match v with
    | .nil => out ++ "nil"
    | .t => out ++ "t"
    | .int n => out ++ toString n.toInt
    | .float x => out ++ Number.floatText x.value
    | .symbol name | .keyword name => out ++ name
    | .str _ text => if style.quoted then writeQuoted out text else out ++ text
    | .cons _ =>
      let tail := s.cdr v
      match if tail.isCons && (s.cdr tail).isNil then quoteMark? (s.car v) else none with
      | some mark => write s style room (out ++ mark) (s.car tail)
      | none => (writeElements s (write s style room) printLimit true (out.push '(') v).push ')'
    | .vector _ =>
      (writeSeparated (write s style room) (out.push '[') ((s.items? v).getD #[]).toList).push ']'
    | .closure _ =>
      match s.closure? v with
      | some c => function out c
      | none => out
    | .expander _ =>
      match s.closure? v with
      | some c => (function (out ++ "(macro ") c).push ')'
      | none => out
    | .subr name => out ++ "#<subr " ++ name ++ ">"
    | .buffer id => out ++ "#<buffer " ++ (style.bufferName id).getD (toString id) ++ ">"
    | .window id => out ++ "#<window " ++ toString id ++ ">"
    | .keymap _ =>
      match s.keymap? v with
      | some m =>
        (m.bindings.entries.foldl (fun (out : String) (key, binding) =>
          (write s style room (writeQuoted (out ++ " (") key ++ " . ") binding).push ')')
          (out ++ "(keymap")).push ')'
      | none => out
    | .layout _ => out ++ "#<window-configuration>"
    | .timer id => out ++ "#<timer " ++ toString id ++ ">"

def printWith (s : Store) (style : PrintStyle) (v : Value) : String :=
  s.write style (printLimit + 1) "" v

def print (s : Store) (v : Value) : String := s.printWith {} v

def display (s : Store) (v : Value) : String := s.printWith { quoted := false } v

end EditorLisp.Store
