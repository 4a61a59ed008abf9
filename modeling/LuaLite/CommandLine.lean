import LuaLite.Chunk.Json
import LuaLite.Chunk.Listing
import LuaLite.CommandLine.Arguments
import LuaLite.CommandLine.Directory
import LuaLite.Diagnostic.Json
import LuaLite.Diagnostic.Registry
import LuaLite.Diagnostic.Rendering

/-!
# The command

The command runs a script from a file, or explains an error code. What it does is a function from
its arguments and the file to an exit status and what is written.
-/

namespace LuaLite.CommandLine

/-- What is written for a person to read beside the output of a script. -/
inductive Remark where
  | text (s : String)
  /-- How long the script was executed. -/
  | elapsed
  deriving DecidableEq, Repr

/-- How the command ends: its exit status, what it writes to the standard output, and what it
writes to the standard error output. -/
structure Outcome where
  exit : Nat
  output : List UInt8
  remarks : List Remark
  deriving DecidableEq

def bytes (s : String) : List UInt8 := s.toUTF8.data.toList

def Outcome.success (s : String) : Outcome := ⟨0, bytes s, []⟩

def versionText : String := "minilua 0.1.0\n"

def helpText : String :=
  String.join <| [
    "Compile and run a minilua script",
    "",
    "Usage: minilua [OPTIONS] [FILE]",
    "",
    "Arguments:",
    "  [FILE]  Script to run",
    "",
    "Options:",
    "      --dump              Print the constant pool and bytecode listing before running",
    "      --dump-json         Print the compiled chunk as JSON and exit without running",
    "      --time              Report execution time on stderr",
    "      --json              Emit diagnostics as JSON lines on stderr",
    "      --no-color          Disable colored diagnostics",
    "      --explain [<CODE>]  Explain an error code (e.g. LUA-R001) and exit; without a code, list "
      ++ "them all",
    "  -h, --help              Print help",
    "  -V, --version           Print version"].map (· ++ "\n")

/-- The report of an error: a line of JSON where that is asked for. -/
def report (flags : List Flag) (colour : Bool) (d : Diagnostic) : Remark :=
  if .json ∈ flags then .text (d.json.compact ++ "\n")
  else .text (d.render (colour && .noColor ∉ flags))

/-- The explanation of a code, or the list of all codes. -/
def explain : Option String → Outcome
  | none => .success Registry.listing
  | some code =>
    match Registry.lookup? code with
    | some e => .success e.explanation
    | none => ⟨1, [], [.text ("unknown error code '" ++ code ++ "'\n")]⟩

/-- Executes a chunk; `none` if it never ends. -/
def execute (flags : List Flag) (colour : Bool) (source : String) (chunk : Chunk) :
    Option Outcome :=
  (chunk.run Script.host Script.machine).map fun (result, m) =>
    let listing := if .dump ∈ flags then bytes chunk.listing else []
    let time := if .time ∈ flags then [Remark.elapsed] else []
    let output := listing ++ m.output.taken.toList
    match result with
    | .ok () => ⟨0, output, time⟩
    | .error e =>
      ⟨1, output, time ++ [report flags colour ((Diagnostic.ofScriptError e).withSource source)]⟩

/-- Runs a script, given what reading its file came to. -/
def runScript (flags : List Flag) (colour : Bool) (file : String)
    (content : Except ReadFailure String) : Option Outcome :=
  match content with
  | .error e =>
    some ⟨1, [], [report flags colour (.plain ("cannot read " ++ file ++ ": " ++ e.message))]⟩
  | .ok source =>
    match compile source with
    | .error e =>
      some ⟨1, [], [report flags colour ((Diagnostic.ofCompileError e).withSource source)]⟩
    | .ok chunk =>
      if .dumpJson ∈ flags then some (.success (chunk.json.pretty ++ "\n"))
      else execute flags colour source chunk

def decode (content : Except ReadFailure ByteArray) : Except ReadFailure String := do
  match String.fromUTF8? (← content) with
  | some s => .ok s
  | none => .error .notText

/-- What the command does, given its arguments and how files are read; `none` if it never ends. -/
def run (args : List String) (colour : Bool) (read : String → Except ReadFailure ByteArray) :
    Option Outcome :=
  match Request.ofArguments args with
  | .error e => some ⟨2, [], [.text ("error: " ++ e.message ++ "\n")]⟩
  | .ok .version => some (.success versionText)
  | .ok .help => some (.success helpText)
  | .ok (.explain code) => some (explain code)
  | .ok (.run flags file) => runScript flags colour file (decode (read file))

end LuaLite.CommandLine
