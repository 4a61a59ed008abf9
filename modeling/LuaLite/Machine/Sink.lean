/-!
# Sinks

A sink takes the bytes that are written, up to a limit if it has one. A write that does not fit
leaves what does fit and fails, so what has been taken is always the start of what was written.
-/

namespace LuaLite

/-- Bytes taken so far, and how many are taken in all. -/
structure Sink where
  taken : Array UInt8
  limit : Option Nat
  deriving DecidableEq

namespace Sink

def empty (limit : Option Nat) : Sink := ⟨#[], limit⟩

/-- Whether so many more bytes fit. -/
def fits (s : Sink) (count : Nat) : Bool :=
  match s.limit with
  | none => true
  | some n => s.taken.size + count ≤ n

/-- How many of so many more bytes fit. -/
def room (s : Sink) (count : Nat) : Nat :=
  match s.limit with
  | none => count
  | some n => min count (n - s.taken.size)

/-- Takes what fits of some bytes, and says whether that is all of them. -/
def write (s : Sink) (bytes : Array UInt8) : Bool × Sink :=
  (s.fits bytes.size, { s with taken := s.taken ++ bytes.take (s.room bytes.size) })

def writeLine (s : Sink) (text : String) : Bool × Sink :=
  s.write (text ++ "\n").toUTF8.data

theorem write_of_limit_eq_none {s : Sink} (h : s.limit = none) (bytes : Array UInt8) :
    s.write bytes = (true, { s with taken := s.taken ++ bytes }) := by
  simp [write, fits, room, h]

theorem taken_prefix_write (s : Sink) (bytes : Array UInt8) :
    s.taken.toList <+: (s.write bytes).2.taken.toList := by
  simp [write]

end Sink

end LuaLite
