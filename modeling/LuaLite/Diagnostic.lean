import LuaLite.Script

/-!
# Diagnostics

A diagnostic reports an error to a person: what is wrong, under which code, at which places, with
notes and a suggestion. An error of a script has its place as a label where it has a cursor, and
otherwise names the instruction in a note.
-/

namespace LuaLite

/-- A place in the source with a remark. The first primary label is the one shown with its line. -/
structure Label where
  cursor : Cursor
  message : String
  isPrimary : Bool
  deriving DecidableEq, Repr

/-- A report, and the source that it is about where that is known. -/
structure Diagnostic where
  code : Option String
  message : String
  labels : List Label
  notes : List String
  suggestion : Option String
  source : Option String
  deriving DecidableEq, Repr

namespace LexFault

def code : LexFault → String
  | .unknownSymbol _ => "LUA-L001"
  | .cutOffString => "LUA-L002"
  | .malformedNumber .. => "LUA-L003"
  | .unexpectedToken .. => "LUA-L004"
  | .unexpectedEnd _ => "LUA-L005"

def remark : LexFault → String
  | .unknownSymbol _ => "not part of the language"
  | .cutOffString => "string ends here"
  | .malformedNumber .. => "bad numeric literal"
  | .unexpectedToken .. => "unexpected token"
  | .unexpectedEnd _ => "input ends here"

def suggestion : LexFault → Option String
  | .cutOffString => some "close the string with the quote that opened it"
  | _ => none

end LexFault

namespace CompileFault

def code : CompileFault → String
  | .lex f => f.code
  | .unexpectedToken _ => "LUA-P001"
  | .unexpectedExpression _ => "LUA-P002"
  | .unexpectedEnd _ => "LUA-P003"
  | .tooManyConstants => "LUA-P004"
  | .tooManyRegisters => "LUA-P005"

def remark : CompileFault → String
  | .lex f => f.remark
  | _ => "here"

def notes : CompileFault → List String
  | .unexpectedToken _ => ["a statement is `local name = expr`, `name \"text\"` or `name(expr)`"]
  | .unexpectedExpression _ => ["expressions are nil, true, false, numbers, strings and names"]
  | _ => []

def suggestion : CompileFault → Option String
  | .lex f => f.suggestion
  | _ => none

end CompileFault

/-- What stands before the first `mark` in a text, and what stands behind it. -/
def Text.divide? (mark : List Char) : List Char → Option (List Char × List Char)
  | [] => (mark.isPrefixOf? []).map fun rest => ([], rest)
  | c :: cs =>
    match mark.isPrefixOf? (c :: cs) with
    | some rest => some ([], rest)
    | none => (divide? mark cs).map fun (before, rest) => (c :: before, rest)

/-- What an error says without its place. The message of an error of the lexer is that of its fault;
others begin with the place, so what stands behind the first colon and space is taken. -/
def CompileError.statement (e : CompileError) : String :=
  match e.fault with
  | .lex f => f.message
  | _ =>
    match Text.divide? [':', ' '] e.message.toList with
    | some (_, rest) => String.ofList rest
    | none => e.message

namespace RuntimeFault

/-- The code of a fault; the faults of code that no script compiles to share one. -/
def code : RuntimeFault → String
  | .undefinedGlobal _ => "LUA-R001"
  | .notAFunction .. => "LUA-R002"
  | .unwrittenRegister _ => "LUA-R003"
  | .nativeFailure .. => "LUA-R004"
  | .globalNameNotString .. => "LUA-R005"
  | .constantOutOfRange .. => "LUA-R005"
  | .unknownOpcode _ => "LUA-R005"
  | .invalidOperand .. => "LUA-R005"

def suggestion : RuntimeFault → Option String
  | .undefinedGlobal _ => some "the only predefined global is `print`"
  | _ => none

end RuntimeFault

def RuntimeError.note (e : RuntimeError) : String :=
  "at instruction " ++ Text.zeroPadded 4 e.pc ++ " `" ++ e.instruction.text ++ "`"

namespace Diagnostic

/-- A report that says no more than what is wrong. -/
def plain (message : String) : Diagnostic := ⟨none, message, [], [], none, none⟩

/-- The report of an error that stops compiling. -/
def ofCompileError (e : CompileError) : Diagnostic :=
  ⟨some e.fault.code, e.statement, [⟨e.cursor, e.fault.remark, true⟩], e.fault.notes,
    e.fault.suggestion, none⟩

/-- The report of an error that stops execution. -/
def ofRuntimeError (e : RuntimeError) : Diagnostic :=
  ⟨some e.fault.code, e.fault.message, [], [e.note], e.fault.suggestion,
    none⟩

def ofScriptError : ScriptError → Diagnostic
  | .compile e => ofCompileError e
  | .runtime e => ofRuntimeError e

def withSource (d : Diagnostic) (source : String) : Diagnostic := { d with source := some source }

/-- The label that is shown with its line. -/
def primary (d : Diagnostic) : Option Label := d.labels.find? (·.isPrimary)

end Diagnostic

end LuaLite
