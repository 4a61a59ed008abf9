/-!
# Reading files

A file is read for its bytes, which may fail. `Directory` holds files in memory, as a working
directory that has nothing else in it.
-/

namespace LuaLite.CommandLine

inductive ReadFailure where
  | notFound
  | isDirectory
  | notDirectory
  | notText
  | other (reason : String)
  deriving DecidableEq, Repr

def ReadFailure.message : ReadFailure → String
  | .notFound => "No such file or directory (os error 2)"
  | .isDirectory => "Is a directory (os error 21)"
  | .notDirectory => "Not a directory (os error 20)"
  | .notText => "stream did not contain valid UTF-8"
  | .other reason => reason

structure Directory where
  files : List (String × ByteArray)

namespace Directory

/-- The steps of a path; a step to where one stands is left out. -/
def steps (path : String) : List (List Char) :=
  (path.toList.splitOn '/').filter fun p => p ≠ [] ∧ p ≠ ['.']

/-- Whether a path ends in a step that only a directory can take. -/
def entersLast (path : String) : Bool :=
  path.endsWith "/" || path.endsWith "/."

/-- The bytes of the file at a path. A path without steps or with none but upward ones is a
directory, and a file is none. -/
def read (d : Directory) (path : String) : Except ReadFailure ByteArray :=
  let ps := steps path
  if ps.all (· = ['.', '.']) then .error .isDirectory
  else if path.startsWith "/" then .error .notFound
  else match d.files.find? fun f => steps f.1 = ps with
    | some f => if entersLast path then .error .notDirectory else .ok f.2
    | none =>
      if d.files.any fun f => ps.isPrefixOf (steps f.1) then .error .isDirectory
      else if d.files.any fun f => (steps f.1).isPrefixOf ps then .error .notDirectory
      else .error .notFound

end Directory

end LuaLite.CommandLine
