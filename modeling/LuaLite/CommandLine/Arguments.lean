/-!
# Command-line arguments

Arguments are read from the left, and the first that cannot be taken ends the reading, as does a
request for the version or for help. Each option may stand once, and only `--explain` has a value:
what follows it behind `=`, or else the next argument unless that is an option. Behind `--` every
argument is a file name.
-/

namespace LuaLite.CommandLine

inductive Flag where
  | dump
  | dumpJson
  | time
  | json
  | noColor
  deriving DecidableEq, Repr

namespace Flag

def all : List Flag := [.dump, .dumpJson, .time, .json, .noColor]

def name : Flag → String
  | .dump => "--dump"
  | .dumpJson => "--dump-json"
  | .time => "--time"
  | .json => "--json"
  | .noColor => "--no-color"

def ofName? (name : String) : Option Flag := all.find? (·.name == name)

end Flag

inductive UsageError where
  | unknownOption (name : String)
  | repeatedOption (name : String)
  | unwantedValue (name : String)
  | secondFile (name : String)
  | emptyFileName
  | noFile
  deriving DecidableEq, Repr

def UsageError.message : UsageError → String
  | .unknownOption name => "unexpected argument '" ++ name ++ "' found"
  | .repeatedOption name => "the argument '" ++ name ++ "' cannot be used multiple times"
  | .unwantedValue name => "no value is allowed for '" ++ name ++ "'"
  | .secondFile name => "unexpected argument '" ++ name ++ "' found"
  | .emptyFileName => "a value is required for '[FILE]' but none was supplied"
  | .noFile => "the following required arguments were not provided: <FILE>"

/-- What the arguments say: which options are set, what is to be explained if anything is, and the
file. -/
structure Arguments where
  flags : List Flag
  explain : Option (Option String)
  file : Option String
  deriving DecidableEq, Repr

inductive Request where
  | version
  | help
  | explain (code : Option String)
  | run (flags : List Flag) (file : String)
  deriving DecidableEq, Repr

namespace Arguments

def none : Arguments := ⟨[], .none, .none⟩

def setFlag (a : Arguments) (f : Flag) : Except UsageError Arguments :=
  if f ∈ a.flags then .error (.repeatedOption f.name) else .ok { a with flags := f :: a.flags }

def setExplain (a : Arguments) (code : Option String) : Except UsageError Arguments :=
  if a.explain.isSome then .error (.repeatedOption "--explain")
  else .ok { a with explain := some code }

def setFile (a : Arguments) (name : String) : Except UsageError Arguments :=
  if a.file.isSome then .error (.secondFile name)
  else if name = "" then .error .emptyFileName
  else .ok { a with file := some name }

/-- What the arguments ask for in the end: an explanation goes before a file. -/
def request (a : Arguments) : Except UsageError Request :=
  match a.explain, a.file with
  | some code, _ => .ok (.explain code)
  | .none, some file => .ok (.run a.flags file)
  | .none, .none => .error .noFile

/-- Whether an argument is an option, and not the value of the option before it. -/
def isOption (arg : String) : Bool :=
  arg.startsWith "-" && arg != "-"

/-- An option, split at its first `=`. -/
def splitValue (arg : String) : String × Option String :=
  let cs := arg.toList
  let name := String.ofList (cs.takeWhile (· != '='))
  match cs.dropWhile (· != '=') with
  | [] => (name, .none)
  | _ :: value => (name, some (String.ofList value))

def readFiles (a : Arguments) : List String → Except UsageError Request
  | [] => a.request
  | arg :: rest => do (← a.setFile arg).readFiles rest

def read (a : Arguments) : List String → Except UsageError Request
  | [] => a.request
  | arg :: rest =>
    if arg = "--" then a.readFiles rest
    else if arg.startsWith "--" then
      match splitValue arg with
      | ("--explain", some code) => do (← a.setExplain code).read rest
      | ("--explain", .none) =>
        match rest with
        | [] => do (← a.setExplain .none).request
        | next :: rest' =>
          if isOption next then do (← a.setExplain .none).read (next :: rest')
          else do (← a.setExplain next).read rest'
      | ("--version", .none) => .ok .version
      | ("--help", .none) => .ok .help
      | (name, value) =>
        match Flag.ofName? name with
        | some f =>
          if value.isSome then .error (.unwantedValue name)
          else do (← a.setFlag f).read rest
        | .none => .error (.unknownOption arg)
    else if isOption arg then
      if arg.startsWith "-V" then .ok .version
      else if arg.startsWith "-h" then .ok .help
      else .error (.unknownOption arg)
    else do (← a.setFile arg).read rest

end Arguments

/-- What a list of arguments asks for. -/
def Request.ofArguments (args : List String) : Except UsageError Request :=
  Arguments.none.read args

end LuaLite.CommandLine
