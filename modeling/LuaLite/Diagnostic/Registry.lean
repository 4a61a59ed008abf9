/-!
# The registry of error codes

Every code that a diagnostic can carry has an entry here, with a summary of one line and an
explanation.
-/

namespace LuaLite

/-- A code, what it means in a few words, and at length. -/
structure ErrorEntry where
  code : String
  summary : String
  explanation : String
  deriving DecidableEq, Repr

namespace Registry

def text (lines : List String) : String := String.join (lines.map (· ++ "\n"))

/-- All entries, in the order in which they are listed. -/
def entries : List ErrorEntry :=
  [⟨"LUA-L001", "unknown symbol",
    text
      ["## LUA-L001: unknown symbol",
      "",
      "A character was found that does not start any token.",
      "",
      "**Example:**",
      "",
      "    print \"a\" $",
      "",
      "`$` is not an operator, punctuation mark, digit, letter or quote."]⟩,
  ⟨"LUA-L002", "cut off string",
    text
      ["## LUA-L002: cut off string",
      "",
      "A string literal was not closed before the end of its line or the end",
      "of the input. Strings cannot span lines and have no escape sequences.",
      "",
      "**Example:**",
      "",
      "    print \"hello",
      "",
      "**Fix:**",
      "",
      "    print \"hello\""]⟩,
  ⟨"LUA-L003", "malformed number",
    text
      ["## LUA-L003: malformed number",
      "",
      "A numeric literal could not be converted. Decimal literals are digits",
      "with an optional fraction and exponent (`12`, `1.5`, `3e-2`);",
      "hexadecimal literals start with `0x` (`0xff`, `0x1p4`).",
      "",
      "**Examples that trigger this:**",
      "",
      "    local a = 1e",
      "    local b = 1.2.3",
      "    local c = 0x",
      "    local d = 99999999999999999999"]⟩,
  ⟨"LUA-L004", "unexpected token",
    text
      ["## LUA-L004: unexpected token",
      "",
      "A specific token was required, such as the `=` after `local name` or the",
      "closing `)` of a call, and a different token was found.",
      "",
      "**Example:**",
      "",
      "    local x 5"]⟩,
  ⟨"LUA-L005", "unexpected end of input",
    text
      ["## LUA-L005: unexpected end of input",
      "",
      "The input ended while a specific token was still required.",
      "",
      "**Example:**",
      "",
      "    print(1"]⟩,
  ⟨"LUA-P001", "unexpected token",
    text
      ["## LUA-P001: unexpected token",
      "",
      "A token was found where a statement or a call argument was expected.",
      "A statement is one of:",
      "",
      "    local name = expr",
      "    name \"literal\"",
      "    name(expr)"]⟩,
  ⟨"LUA-P002", "unexpected token as expression",
    text
      ["## LUA-P002: unexpected token as expression",
      "",
      "An expression is a single `nil`, `true`, `false`, number, string or",
      "name. A `-` may precede a number literal. Operators and nested calls",
      "are not supported.",
      "",
      "**Example:**",
      "",
      "    print()"]⟩,
  ⟨"LUA-P003", "unexpected end of input",
    text
      ["## LUA-P003: unexpected end of input",
      "",
      "The input ended in the middle of a statement.",
      "",
      "**Example:**",
      "",
      "    local x ="]⟩,
  ⟨"LUA-P004", "too many constants",
    text
      ["## LUA-P004: too many constants",
      "",
      "A chunk holds at most 256 distinct constants: global names, strings,",
      "floats and integers outside -32768..=32767. Repeated literals share one",
      "slot."]⟩,
  ⟨"LUA-P005", "too many registers",
    text
      ["## LUA-P005: too many registers",
      "",
      "Every `local` takes one of 256 registers for the rest of the chunk, and",
      "a call needs two free registers above the locals."]⟩,
  ⟨"LUA-R001", "undefined global",
    text
      ["## LUA-R001: undefined global",
      "",
      "A name that is not a local was looked up in the globals and not found.",
      "Unknown names compile fine and fail only when executed.",
      "",
      "**Example:**",
      "",
      "    prnt \"typo\""]⟩,
  ⟨"LUA-R002", "value is not a function",
    text
      ["## LUA-R002: value is not a function",
      "",
      "A call statement named a value that is not a function.",
      "",
      "**Example:**",
      "",
      "    local x = 1",
      "    x \"call me\""]⟩,
  ⟨"LUA-R003", "register read before written",
    text
      ["## LUA-R003: register read before written",
      "",
      "An instruction read a register that nothing had written. Compiled",
      "programs never do this; hand-assembled bytecode can."]⟩,
  ⟨"LUA-R004", "native function failed",
    text
      ["## LUA-R004: native function failed",
      "",
      "A native function returned a non-zero status, for example `print`",
      "failing to write to its output."]⟩,
  ⟨"LUA-R005", "malformed bytecode",
    text
      ["## LUA-R005: malformed bytecode",
      "",
      "The virtual machine found an instruction it cannot execute: an unknown",
      "opcode, an out-of-range constant index, a global name that is not a",
      "string, or an invalid operand. This indicates a compiler bug or",
      "hand-assembled bytecode, not a script error."]⟩]

def lookup? (code : String) : Option ErrorEntry := entries.find? (·.code == code)

/-- Every code with its summary, one to a line. -/
def listing : String := text (entries.map fun e => e.code ++ "  " ++ e.summary)

end Registry

end LuaLite
