import LuaLite.Diagnostic
import LuaLite.Text.Columns

/-!
# Rendered diagnostics

A diagnostic for a terminal: a heading, the line of the primary label with a caret below it, then
the other labels, the notes and the suggestion. With colour the text is the same, with escape
sequences around some of its pieces.
-/

namespace LuaLite

/-- The text of a line of a source, counted from one, without its end. -/
def lineText? (source : String) (line : Nat) : Option String :=
  if line = 0 then none
  else ((source.toList.splitOn '\n')[line - 1]?).map fun cs =>
    String.ofList (if cs.getLast? = some '\r' then cs.dropLast else cs)

/-- The styles of pieces of a rendered diagnostic. -/
inductive Style where
  | bold
  | boldRed
  | cyan
  | dim
  deriving DecidableEq, Repr

/-- The parameters of the escape sequence that opens a style. -/
def Style.parameters : Style → String
  | .bold => "1"
  | .boldRed => "1;31"
  | .cyan => "36"
  | .dim => "2"

/-- A piece of text in a style, which only shows with colour. -/
def Style.apply (s : Style) (colour : Bool) (text : String) : String :=
  if colour then "\x1b[" ++ s.parameters ++ "m" ++ text ++ "\x1b[0m" else text

namespace Diagnostic

def spaces (count : Nat) : String := String.ofList (List.replicate count ' ')

/-- The heading: the code and the message. -/
def heading (d : Diagnostic) (colour : Bool) : String :=
  let title := match d.code with
    | some code => "error[" ++ code ++ "]"
    | none => "error"
  Style.boldRed.apply colour title ++ ": " ++ Style.bold.apply colour d.message ++ "\n"

/-- A line of the source with a caret below it. The caret stands under the character in front of
the label's cursor. -/
def snippet (label : Label) (text : String) (colour : Bool) : String :=
  let number := toString label.cursor.line
  let pad := spaces number.length
  let bar := Style.cyan.apply colour "|"
  let caret := Style.boldRed.apply colour "^"
  let remark := if label.message = "" then "" else " " ++ Style.boldRed.apply colour label.message
  pad ++ " " ++ bar ++ "\n"
    ++ Style.cyan.apply colour (Text.padLeft number.length number) ++ " " ++ bar ++ " " ++ text ++ "\n"
    ++ pad ++ " " ++ bar ++ " " ++ spaces (label.cursor.column - 2) ++ caret ++ remark ++ "\n"
    ++ pad ++ " " ++ bar ++ "\n"

/-- Where the primary label is, and its line if the source has it. -/
def location (d : Diagnostic) (colour : Bool) : String :=
  match d.primary, d.source with
  | some label, some source =>
    let arrow := "  " ++ Style.cyan.apply colour "-->" ++ " " ++ label.cursor.text ++ "\n"
    match lineText? source label.cursor.line with
    | some text => arrow ++ snippet label text colour
    | none => arrow
  | _, _ => ""

/-- A line below the location. -/
def remark (text : String) (colour : Bool) : String :=
  "  " ++ Style.dim.apply colour "=" ++ " " ++ text ++ "\n"

/-- The texts of the lines below the location: the labels that are not primary and say something,
the notes and the suggestion. -/
def remarks (d : Diagnostic) : List String :=
  (d.labels.filter fun l => !l.isPrimary && l.message ≠ "").map
      (fun l => l.cursor.text ++ ": " ++ l.message)
    ++ d.notes.map ("note: " ++ ·)
    ++ d.suggestion.toList.map ("suggestion: " ++ ·)

def render (d : Diagnostic) (colour : Bool) : String :=
  d.heading colour ++ d.location colour
    ++ String.join (d.remarks.map fun text => remark text colour)

end Diagnostic

end LuaLite
