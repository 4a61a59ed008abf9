import LuaLite.CommandLine
import LuaLite.CommandLine.Duration

/-!
# The program

Reads the file that the arguments name, and writes what `CommandLine.run` says.
-/

open LuaLite LuaLite.CommandLine

def readFile (path : String) : IO (Except ReadFailure ByteArray) := do
  try
    return .ok (← IO.FS.readBinFile path)
  catch
    | .noFileOrDirectory .. => return .error .notFound
    | .inappropriateType _ code _ =>
      return .error (if code = 21 then .isDirectory else .notDirectory)
    | e => return .error (.other (toString e))

/-- The file that is to be read, if any is. -/
def neededFile (args : List String) : Option String :=
  match Request.ofArguments args with
  | .ok (.run _ file) => some file
  | _ => none

def writeRemark (elapsed : Nat) : Remark → IO Unit
  | .text s => IO.eprint s
  | .elapsed => IO.eprintln ("executed in " ++ durationText elapsed)

def main (args : List String) : IO UInt32 := do
  let content ← match neededFile args with
    | some file => readFile file
    | none => pure (.error .notFound)
  let colour ← (← IO.getStderr).isTty
  let start ← IO.monoNanosNow
  match CommandLine.run args colour fun _ => content with
  | none => return 1
  | some outcome =>
    let stop ← IO.monoNanosNow
    let stdout ← IO.getStdout
    stdout.write ⟨outcome.output.toArray⟩
    stdout.flush
    outcome.remarks.forM (writeRemark (stop - start))
    return outcome.exit.toUInt32
