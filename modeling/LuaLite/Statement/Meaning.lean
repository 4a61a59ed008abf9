import LuaLite.Machine
import LuaLite.Statement

/-!
# What scripts mean

Statements are carried out one after the other, without instructions or registers. A declaration
evaluates its expression and then declares its name, which hides an older local of that name. A call
evaluates the name of the function and then the argument; only then the function must be one.

`Statement.perform` gives how the statements end, which functions they call with which arguments,
and what is written.
-/

namespace LuaLite

inductive ScriptFault where
  | undefinedGlobal (name : String)
  | notAFunction (found : ValueType)
  | nativeFailure (name : String) (status : Int32)
  deriving DecidableEq, Repr

/-- The fault of a statement that a fault of an instruction is, if it is one. -/
def RuntimeFault.ofStatement? : RuntimeFault → Option ScriptFault
  | .undefinedGlobal name => some (.undefinedGlobal name)
  | .notAFunction _ found => some (.notAFunction found)
  | .nativeFailure name status => some (.nativeFailure name status)
  | _ => none

/-- What native functions do that return, and see no more of the machine than their argument and the
output. The number counts the calls up to this one, in which a function may do something new. -/
abbrev Behaviour := Nat → NativeFunction → Except RuntimeFault Value → Sink → Int32 × Sink

/-- The host whose functions behave like this. -/
def Behaviour.host (b : Behaviour) : Host := fun f m =>
  let (status, output) := b m.calls f m.argument m.output
  some (status, { m with output })

/-- The locals with their values, the latest first. -/
abbrev Locals := List (String × Value)

def nameValue (globals : Globals) (locals : Locals) (name : String) : Except ScriptFault Value :=
  match locals.lookup name, globals.get? name with
  | some v, _ => .ok v
  | none, some v => .ok v
  | none, none => .error (.undefinedGlobal name)

def Numeral.value : Numeral → Value
  | .integer n => .integer n
  | .float x => .float x

def Expression.value (globals : Globals) (locals : Locals) : Expression → Except ScriptFault Value
  | .nil => .ok .nil
  | .boolean b => .ok (.boolean b)
  | .numeral n => .ok n.value
  | .string text => .ok (.string text)
  | .name n => nameValue globals locals n

def Value.asFunction : Value → Except ScriptFault NativeFunction
  | .function f => .ok f
  | v => .error (.notAFunction v.type)

/-- A function and the argument it is called with. -/
abbrev NativeCall := NativeFunction × Value

/-- The call that a call statement makes. -/
def nativeCall (globals : Globals) (locals : Locals) (callee : String) (argument : Expression) :
    Except ScriptFault NativeCall := do
  let f ← nameValue globals locals callee
  let v ← argument.value globals locals
  return (← f.asFunction, v)

/-- How statements go: how they end, the calls they make, and the output they leave. -/
structure Course where
  outcome : Except ScriptFault Unit
  calls : List NativeCall
  output : Sink

/-- Carries out statements, with the locals declared and the number of calls made before them. -/
def Statement.perform (b : Behaviour) (globals : Globals) :
    List Statement → Locals → Nat → Sink → Course
  | [], _, _, output => ⟨.ok (), [], output⟩
  | .declare name e :: rest, locals, calls, output =>
    match e.value globals locals with
    | .error fault => ⟨.error fault, [], output⟩
    | .ok v => perform b globals rest ((name, v) :: locals) calls output
  | .call callee argument :: rest, locals, calls, output =>
    match nativeCall globals locals callee argument with
    | .error fault => ⟨.error fault, [], output⟩
    | .ok (f, v) =>
      let (status, output') := b (calls + 1) f (.ok v) output
      if status = 0 then
        let course := perform b globals rest locals (calls + 1) output'
        { course with calls := (f, v) :: course.calls }
      else ⟨.error (.nativeFailure f.name status), [(f, v)], output'⟩

namespace Machine

/-- The function that an instruction calls, if it calls one, with the machine that it sees. -/
def invocation? (m : Machine) (constants : List Value) (i : Instruction) :
    Option (NativeFunction × Machine) :=
  match m.action constants i with
  | .ok (.invoke slot f) => some (f, m.enter slot)
  | _ => none

/-- The functions that code calls until it ends or fails, each with the machine that it sees. -/
def invocations (host : Host) (constants : List Value) :
    List Instruction → Machine → List (NativeFunction × Machine)
  | [], _ => []
  | i :: rest, m =>
    (m.invocation? constants i).toList ++
      match m.step host constants i with
      | some (.ok (), m') => invocations host constants rest m'
      | _ => []

end Machine

end LuaLite
