import LuaLite.Compiler
import LuaLite.Machine.Natives

/-!
# Scripts

A script is compiled and then executed. Nothing is executed of a script that does not compile.
-/

namespace LuaLite

inductive ScriptError where
  | compile (e : CompileError)
  | runtime (e : RuntimeError)
  deriving DecidableEq, Repr

/-- The wording of an error, with the stage that failed. -/
def ScriptError.message : ScriptError → String
  | .compile e => "compile error: " ++ e.message
  | .runtime e => "runtime error: " ++ e.message

/-- Executes a chunk, as the second stage of a script. -/
def Chunk.run (host : Host) (chunk : Chunk) (m : Machine) :
    Option (Except ScriptError Unit × Machine) :=
  (m.execute host chunk).map fun (outcome, m') => (outcome.mapError .runtime, m')

namespace Script

/-- Compiles a script and executes it on a machine. -/
def run (host : Host) (source : String) (m : Machine) : Option (Except ScriptError Unit × Machine) :=
  match LuaLite.compile source with
  | .ok chunk => chunk.run host m
  | .error e => some (.error (.compile e), m)

theorem run_of_compile {source : String} {chunk : Chunk} (h : LuaLite.compile source = .ok chunk)
    {host : Host} (m : Machine) : run host source m = chunk.run host m := by
  rw [run, h]

theorem run_of_compile_error {source : String} {e : CompileError}
    (h : LuaLite.compile source = .error e) {host : Host} (m : Machine) :
    run host source m = some (.error (.compile e), m) := by
  rw [run, h]

/-- A new machine with the globals that a script starts with. -/
def machine : Machine := .new .standard none

/-- The host of those globals. -/
def host : Host := Native.host #[.print]

end Script

end LuaLite
