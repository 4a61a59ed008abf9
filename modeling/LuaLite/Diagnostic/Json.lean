import LuaLite.Diagnostic
import LuaLite.Json

/-!
# Diagnostics as JSON

A diagnostic for a program: an object on one line, with its keys in ascending order. The code and
the suggestion are left out where there are none.
-/

namespace LuaLite

def Label.json (l : Label) : Json :=
  .object [("col", .integer l.cursor.column), ("line", .integer l.cursor.line),
    ("message", .string l.message), ("primary", .boolean l.isPrimary)]

namespace Diagnostic

/-- A member of an object that is there only with a value. -/
def optionalMember (key : String) (value : Option String) : List (String × Json) :=
  value.toList.map fun s => (key, .string s)

def json (d : Diagnostic) : Json :=
  .object (optionalMember "code" d.code ++
    [("labels", .array (d.labels.map Label.json)), ("message", .string d.message),
      ("notes", .array (d.notes.map .string)), ("severity", .string "error")] ++
    optionalMember "suggestion" d.suggestion)

end Diagnostic

end LuaLite
