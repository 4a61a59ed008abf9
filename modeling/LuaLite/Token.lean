import LuaLite.Numeral
import LuaLite.Decimal.Shortest

/-!
# Tokens

A token is a reserved word, a symbol, a literal, a name or a comment. Its kind is the token without
what it carries, and is what messages name.
-/

namespace LuaLite

/-- The reserved words. -/
inductive Keyword where
  | and_ | break_ | do_ | else_ | elseIf | end_ | false_ | for_ | function | global | goto | if_
  | in_ | local_ | nil | not_ | or_ | repeat_ | return_ | then_ | true_ | until_ | while_
  deriving DecidableEq, Repr

namespace Keyword

def all : List Keyword :=
  [.and_, .break_, .do_, .else_, .elseIf, .end_, .false_, .for_, .function, .global, .goto, .if_,
  .in_, .local_, .nil, .not_, .or_, .repeat_, .return_, .then_, .true_, .until_, .while_]

def spelling : Keyword → String
  | .and_ => "and"
  | .break_ => "break"
  | .do_ => "do"
  | .else_ => "else"
  | .elseIf => "elseif"
  | .end_ => "end"
  | .false_ => "false"
  | .for_ => "for"
  | .function => "function"
  | .global => "global"
  | .goto => "goto"
  | .if_ => "if"
  | .in_ => "in"
  | .local_ => "local"
  | .nil => "nil"
  | .not_ => "not"
  | .or_ => "or"
  | .repeat_ => "repeat"
  | .return_ => "return"
  | .then_ => "then"
  | .true_ => "true"
  | .until_ => "until"
  | .while_ => "while"

def ofSpelling? (word : String) : Option Keyword :=
  all.find? fun k => k.spelling == word

theorem mem_all (k : Keyword) : k ∈ all := by
  cases k <;> decide

theorem ofSpelling?_spelling (k : Keyword) : ofSpelling? k.spelling = some k := by
  cases k <;> decide

end Keyword

/-- The operators and the punctuation. -/
inductive Symbol where
  | plus | minus | star | slash | doubleSlash | percent | caret | hash | ampersand | tilde | pipe
  | shiftLeft | shiftRight | equal | notEqual | lessEqual | greaterEqual | less | greater | assign
  | openParen | closeParen | openSquare | closeSquare | openBrace | closeBrace | doubleColon
  | semicolon | colon | comma | dot | doubleDot | tripleDot
  deriving DecidableEq, Repr

namespace Symbol

/-- Every symbol, a longer spelling before each spelling it starts with. -/
def all : List Symbol :=
  [.tripleDot, .doubleDot, .doubleSlash, .shiftLeft, .shiftRight, .equal, .notEqual, .lessEqual,
  .greaterEqual, .doubleColon, .plus, .minus, .star, .slash, .percent, .caret, .hash, .ampersand,
  .tilde, .pipe, .less, .greater, .assign, .openParen, .closeParen, .openSquare, .closeSquare,
  .openBrace, .closeBrace, .semicolon, .colon, .comma, .dot]

def chars : Symbol → List Char
  | .plus => ['+']
  | .minus => ['-']
  | .star => ['*']
  | .slash => ['/']
  | .doubleSlash => ['/', '/']
  | .percent => ['%']
  | .caret => ['^']
  | .hash => ['#']
  | .ampersand => ['&']
  | .tilde => ['~']
  | .pipe => ['|']
  | .shiftLeft => ['<', '<']
  | .shiftRight => ['>', '>']
  | .equal => ['=', '=']
  | .notEqual => ['~', '=']
  | .lessEqual => ['<', '=']
  | .greaterEqual => ['>', '=']
  | .less => ['<']
  | .greater => ['>']
  | .assign => ['=']
  | .openParen => ['(']
  | .closeParen => [')']
  | .openSquare => ['[']
  | .closeSquare => [']']
  | .openBrace => ['{']
  | .closeBrace => ['}']
  | .doubleColon => [':', ':']
  | .semicolon => [';']
  | .colon => [':']
  | .comma => [',']
  | .dot => ['.']
  | .doubleDot => ['.', '.']
  | .tripleDot => ['.', '.', '.']

def spelling (s : Symbol) : String :=
  String.ofList s.chars

/-- The symbol with the longest spelling that the text starts with. -/
def longest? (cs : List Char) : Option Symbol :=
  all.find? fun s => s.chars.isPrefixOf cs

theorem mem_all (s : Symbol) : s ∈ all := by
  cases s <;> decide

theorem chars_ne_nil (s : Symbol) : s.chars ≠ [] := by
  cases s <;> decide

end Symbol

/-- What a token is, apart from what it carries. -/
inductive TokenKind where
  | keyword (k : Keyword)
  | symbol (s : Symbol)
  | integer
  | float
  | string
  | name
  | comment
  deriving DecidableEq, Repr

/-- How messages name a kind. -/
def TokenKind.text : TokenKind → String
  | .keyword k => k.spelling
  | .symbol s => s.spelling
  | .integer => "integer"
  | .float => "float"
  | .string => "string"
  | .name => "identifier"
  | .comment => "comment"

def Numeral.kind : Numeral → TokenKind
  | .integer _ => .integer
  | .float _ => .float

/-- The text of a numeral: a float is written without an exponent, and without a point where it is
a whole number. -/
def Numeral.text : Numeral → String
  | .integer n => toString n.toInt
  | .float x =>
    if Binary64.isFinite x then
      String.ofList (Decimal.shortest .up (Binary64.magnitude x)).positional
    else "inf"

/-- A word of the language. -/
inductive Token where
  | keyword (k : Keyword)
  | symbol (s : Symbol)
  | numeral (n : Numeral)
  | string (text : String)
  | name (text : String)
  | comment (text : String)
  deriving DecidableEq

namespace Token

def kind : Token → TokenKind
  | .keyword k => .keyword k
  | .symbol s => .symbol s
  | .numeral n => n.kind
  | .string _ => .string
  | .name _ => .name
  | .comment _ => .comment

/-- A text that is read as this token where a line ends behind it, if the string holds no double
quote. -/
def text : Token → String
  | .keyword k => k.spelling
  | .symbol s => s.spelling
  | .numeral n => n.text
  | .string t => "\"" ++ t ++ "\""
  | .name t => t
  | .comment t => "--" ++ t

/-- The token that a word of name characters is: reserved words are not names. -/
def ofWord (word : String) : Token :=
  match Keyword.ofSpelling? word with
  | some k => .keyword k
  | none => .name word

end Token

end LuaLite
