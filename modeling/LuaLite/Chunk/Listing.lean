import LuaLite.Chunk
import LuaLite.Text.Quoted

/-!
# Listings

A listing shows a chunk line by line: a heading with their number and then the constants, each with
index, type and text, and likewise the instructions, each with its place in the code.
-/

namespace LuaLite

/-- The text of a constant in a listing: strings are quoted. -/
def Value.listed : Value → String
  | .string s => Text.quoted s
  | v => v.text

namespace Chunk

def constantLine (i : Nat) (v : Value) : String :=
  "  K" ++ Text.padRight 3 (toString i) ++ " " ++ Text.padRight 8 v.type.name ++ " " ++ v.listed

def instructionLine (pc : Nat) (i : Instruction) : String :=
  "  " ++ Text.zeroPadded 4 pc ++ "  " ++ i.text

def listingLines (c : Chunk) : List String :=
  ("constants (" ++ toString c.constants.length ++ "):") ::
    (c.constants.mapIdx constantLine ++
      ("code (" ++ toString c.code.length ++ "):") :: c.code.mapIdx instructionLine)

def listing (c : Chunk) : String :=
  String.join (c.listingLines.map (· ++ "\n"))

end Chunk

end LuaLite
