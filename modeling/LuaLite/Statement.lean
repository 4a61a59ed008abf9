import LuaLite.Token

/-!
# Statements

The language without its compiler: what a script says, as a list of statements, and which tokens
spell it. Comments may stand between statements, and nowhere else. Two spellings can say the same: a
string may be the argument of a call without brackets, and a number may have a minus in front.
-/

namespace LuaLite

/-- What has a value. -/
inductive Expression where
  | nil
  | boolean (b : Bool)
  | numeral (n : Numeral)
  | string (text : String)
  | name (name : String)
  deriving DecidableEq

/-- What a script does. -/
inductive Statement where
  | declare (name : String) (value : Expression)
  | call (callee : String) (argument : Expression)
  deriving DecidableEq

/-- The tokens that spell an expression. With a minus in front an integer is negated, where the least
one stays as it is, and a float has the other sign bit. -/
inductive Expression.Spelled : Expression → List Token → Prop where
  | nil : Spelled .nil [.keyword .nil]
  | true_ : Spelled (.boolean true) [.keyword .true_]
  | false_ : Spelled (.boolean false) [.keyword .false_]
  | numeral (n : Numeral) : Spelled (.numeral n) [.numeral n]
  | negativeInteger (n : Int64) :
    Spelled (.numeral (.integer (-n))) [.symbol .minus, .numeral (.integer n)]
  | negativeFloat (x : Binary64) :
    Spelled (.numeral (.float ⟨x.bits ^^^ 0x8000000000000000⟩))
      [.symbol .minus, .numeral (.float x)]
  | string (text : String) : Spelled (.string text) [.string text]
  | name (name : String) : Spelled (.name name) [.name name]

/-- The tokens that spell a statement. -/
inductive Statement.Spelled : Statement → List Token → Prop where
  | declare (name : String) {e : Expression} {ts : List Token} (h : e.Spelled ts) :
    Spelled (.declare name e) (.keyword .local_ :: .name name :: .symbol .assign :: ts)
  | callString (callee text : String) :
    Spelled (.call callee (.string text)) [.name callee, .string text]
  | call (callee : String) {e : Expression} {ts : List Token} (h : e.Spelled ts) :
    Spelled (.call callee e)
      (.name callee :: .symbol .openParen :: (ts ++ [.symbol .closeParen]))

/-- The tokens that spell a script. -/
inductive Statement.ListSpelled : List Statement → List Token → Prop where
  | nil : ListSpelled [] []
  | comment (text : String) {ss : List Statement} {ts : List Token} (h : ListSpelled ss ts) :
    ListSpelled ss (.comment text :: ts)
  | cons {s : Statement} {ss : List Statement} {us ts : List Token} (hs : s.Spelled us)
    (h : ListSpelled ss ts) : ListSpelled (s :: ss) (us ++ ts)

end LuaLite
