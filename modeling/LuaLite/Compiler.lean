import LuaLite.Chunk
import LuaLite.ConstantPool
import LuaLite.Lexer
import LuaLite.LocalTable

/-!
# The compiler

The compiler reads a script token by token and emits instructions as it goes. Locals keep the
registers from zero on; a call puts the function into the register above them and the argument into
the one above that.

A statement that fails leaves behind what it has read and emitted, and `Compiler.parse` can be
called again to go on from there. Each call takes something from the source or ends it, because
nothing that is compiled puts tokens back (`Keeps`). An error is at the place up to which the source
has been read (`Advances`). Such properties hold of statements because they hold of the smallest
parts and go through sequences (`Stepwise`).
-/

namespace LuaLite

/-- What a script ended without. -/
inductive Wanted where
  | functionArgument
  | expression
  | numericLiteral
  deriving DecidableEq, Repr

def Wanted.text : Wanted → String
  | .functionArgument => "function argument"
  | .expression => "expression"
  | .numericLiteral => "numeric literal"

inductive CompileFault where
  | lex (fault : LexFault)
  | unexpectedToken (found : TokenKind)
  | unexpectedExpression (found : TokenKind)
  | unexpectedEnd (wanted : Wanted)
  | tooManyConstants
  | tooManyRegisters
  deriving DecidableEq, Repr

/-- The kind of the token that was not expected. -/
def CompileFault.found? : CompileFault → Option TokenKind
  | .lex (.unexpectedToken _ found) => some found
  | .unexpectedToken found => some found
  | .unexpectedExpression found => some found
  | _ => none

def CompileFault.message : CompileFault → String
  | .lex fault => fault.message
  | .unexpectedToken found => "did not expect token '" ++ found.text ++ "'"
  | .unexpectedExpression found => "did not expect token '" ++ found.text ++ "' as expression"
  | .unexpectedEnd wanted => "unexpected end of input, expected " ++ wanted.text
  | .tooManyConstants =>
    "too many constants (limit is " ++ toString ConstantPool.capacity ++ ")"
  | .tooManyRegisters => "too many registers (limit is " ++ toString registerCount ++ ")"

/-- A fault and the place behind what is at fault. -/
structure CompileError where
  cursor : Cursor
  fault : CompileFault
  deriving DecidableEq, Repr

def CompileError.message (e : CompileError) : String :=
  e.cursor.text ++ ": " ++ e.fault.message

def CompileError.ofLexError (e : LexError) : CompileError := ⟨e.cursor, .lex e.fault⟩

/-- What is left to read, and what has been collected. -/
structure Compiler where
  lexer : Lexer
  code : Array Instruction
  pool : ConstantPool
  locals : LocalTable

/-- A part of compiling, which changes the compiler even where it fails. -/
abbrev Compile (α : Type) := ExceptT CompileError (StateM Compiler) α

namespace Compiler

def ofSource (source : String) : Compiler := ⟨.ofSource source, #[], .empty, .empty⟩

/-- Fails behind what has been read. -/
def fail {α : Type} (fault : CompileFault) : Compile α :=
  ExceptT.mk fun c => (.error ⟨c.lexer.cursor, fault⟩, c)

/-- Lets the lexer read, and takes over its error. -/
def reading {α : Type} (read : Lexer → Except LexError α × Lexer) : Compile α :=
  ExceptT.mk fun c =>
    ((read c.lexer).1.mapError .ofLexError, { c with lexer := (read c.lexer).2 })

/-- Reads a token where the script must not end. -/
def nextToken (wanted : Wanted) : Compile Token := do
  match ← reading Lexer.next with
  | some t => return t
  | none => fail (.unexpectedEnd wanted)

/-- The first register above the locals, of which `count` must be free. -/
def freeRegister (count : Nat) : Compile UInt8 := do
  let c ← get
  if c.locals.size + count ≤ registerCount then return UInt8.ofNat c.locals.size
  else fail .tooManyRegisters

def constant (v : Value) : Compile UInt8 :=
  ExceptT.mk fun c =>
    match c.pool.add v with
    | (some i, pool) => (.ok i, { c with pool })
    | (none, pool) => (.error ⟨c.lexer.cursor, .tooManyConstants⟩, { c with pool })

def emit (i : Instruction) : Compile Unit :=
  modify fun c => { c with code := c.code.push i }

/-- Loads what a name means: the register of a local, or the global of that name. -/
def loadName (dst : UInt8) (name : String) : Compile Unit := do
  match (← get).locals.slot? name with
  | some slot => emit (.move dst slot)
  | none => emit (.getGlobal dst (← constant (.string name)))

def loadConstant (dst : UInt8) (v : Value) : Compile Unit := do
  emit (.loadConst dst (← constant v))

/-- Loads a number: an integer of 16 bits stands in the instruction, and others are constants. -/
def loadNumeral (dst : UInt8) : Numeral → Compile Unit
  | .integer n =>
    if -32768 ≤ n.toInt ∧ n.toInt ≤ 32767 then emit (.loadInt dst (Int16.ofInt n.toInt))
    else loadConstant dst (.integer n)
  | .float x => loadConstant dst (.float x)

/-- Reads an expression and loads it with one instruction. -/
def expression (dst : UInt8) : Compile Unit := do
  match ← nextToken .expression with
  | .keyword .nil => emit (.loadNil dst)
  | .keyword .true_ => emit (.loadBool dst true)
  | .keyword .false_ => emit (.loadBool dst false)
  | .numeral n => loadNumeral dst n
  | .string text => loadConstant dst (.string text)
  | .name name => loadName dst name
  | .symbol .minus =>
    match ← nextToken .numericLiteral with
    | .numeral n => loadNumeral dst n.neg
    | t => fail (.unexpectedExpression t.kind)
  | t => fail (.unexpectedExpression t.kind)

/-- Reads the argument of a call: a string, or an expression in brackets. -/
def argument (dst : UInt8) : Compile Unit := do
  match ← nextToken .functionArgument with
  | .string text => loadConstant dst (.string text)
  | .symbol .openParen =>
    expression dst
    let _ ← reading (Lexer.expect (.symbol .closeParen))
  | t => fail (.unexpectedToken t.kind)

/-- A call of the function that `name` means, whose name has been read. -/
def callStatement (name : String) : Compile Unit := do
  let slot ← freeRegister 2
  loadName slot name
  argument (slot + 1)
  emit (.call slot 1)

/-- A declaration, whose `local` has been read. The name is declared last, so the expression still
means an older local by it. -/
def localStatement : Compile Unit := do
  let name ← reading Lexer.expectName
  let _ ← reading (Lexer.expect (.symbol .assign))
  let slot ← freeRegister 1
  expression slot
  modify fun c => { c with locals := c.locals.add name slot }

/-- A statement, whose first token has been read. -/
def statement : Token → Compile Unit
  | .name name => callStatement name
  | .keyword .local_ => localStatement
  | .comment _ => return
  | t => fail (.unexpectedToken t.kind)

def after {α : Type} (c : Compiler) (m : Compile α) : Except CompileError α × Compiler :=
  (m.run).run c

/-- What has been collected since the last chunk. -/
def chunk (c : Compiler) : Chunk := ⟨c.pool.take.1, c.code.toList⟩

/-! ### What each part does -/

section After

variable {α β : Type}

theorem after_pure (c : Compiler) (a : α) : c.after (pure a) = (.ok a, c) := rfl

theorem after_bind (c : Compiler) (m : Compile α) (f : α → Compile β) :
    c.after (m >>= f) = match c.after m with
      | (.ok a, c') => c'.after (f a)
      | (.error e, c') => (.error e, c') := by
  simp only [after, ExceptT.run_bind, StateT.run_bind]
  cases StateT.run (ExceptT.run m) c with
  | mk outcome c' => cases outcome <;> rfl

theorem after_get (c : Compiler) : c.after get = (.ok c, c) := rfl

theorem after_fail (c : Compiler) (fault : CompileFault) :
    c.after (fail fault : Compile α) = (.error ⟨c.lexer.cursor, fault⟩, c) := rfl

theorem after_reading (c : Compiler) (read : Lexer → Except LexError α × Lexer) :
    c.after (reading read) =
      ((read c.lexer).1.mapError .ofLexError, { c with lexer := (read c.lexer).2 }) := rfl

theorem after_emit (c : Compiler) (i : Instruction) :
    c.after (emit i) = (.ok (), { c with code := c.code.push i }) := rfl

theorem after_constant (c : Compiler) (v : Value) :
    c.after (constant v) = match c.pool.add v with
      | (some i, pool) => (.ok i, { c with pool })
      | (none, pool) => (.error ⟨c.lexer.cursor, .tooManyConstants⟩, { c with pool }) := rfl

theorem after_freeRegister (c : Compiler) (count : Nat) :
    c.after (freeRegister count) =
      (if c.locals.size + count ≤ registerCount then .ok (UInt8.ofNat c.locals.size)
        else .error ⟨c.lexer.cursor, .tooManyRegisters⟩, c) := by
  rw [freeRegister, after_bind, after_get]
  dsimp only
  split <;> rfl

end After

/-! ### What holds of all parts -/

/-- A property of parts of compiling that the smallest of them have and that goes through sequences.
Of the compiler itself a part asks for the locals only, and what fails for a token stands directly
behind it. -/
structure Stepwise (P : ∀ {α : Type}, Compile α → Prop) : Prop where
  pure {α : Type} (a : α) : P (pure a : Compile α)
  emit (i : Instruction) : P (emit i)
  constant (v : Value) : P (constant v)
  tooManyRegisters {α : Type} : P (fail .tooManyRegisters : Compile α)
  declare (name : String) (slot : UInt8) :
    P (modify fun c => { c with locals := c.locals.add name slot } : Compile Unit)
  expect (wanted : TokenKind) : P (reading (Lexer.expect wanted))
  expectName : P (reading Lexer.expectName)
  token {α : Type} (wanted : Wanted) {f : Token → Compile α}
    (h : ∀ t, P (f t) ∨ ∃ fault, fault.found? = some t.kind ∧ f t = fail fault) :
    P (nextToken wanted >>= f)
  locals {α : Type} {f : LocalTable → Compile α} (h : ∀ locals, P (f locals)) :
    P (do f (← get).locals)
  bind {α β : Type} {m : Compile α} {f : α → Compile β} (hm : P m) (hf : ∀ a, P (f a)) :
    P (m >>= f)

namespace Stepwise

variable {P : ∀ {α : Type}, Compile α → Prop}

/-- A token can be followed by any failure where failures have the property by themselves. -/
theorem token_of_fail (hpure : ∀ {α : Type} (a : α), P (Pure.pure a : Compile α))
    (hfail : ∀ {α : Type} (fault : CompileFault), P (Compiler.fail fault : Compile α))
    (hnext : P (reading Lexer.next))
    (hbind : ∀ {α β : Type} {m : Compile α} {f : α → Compile β}, P m → (∀ a, P (f a)) → P (m >>= f))
    {α : Type} (wanted : Wanted) {f : Token → Compile α}
    (h : ∀ t, P (f t) ∨ ∃ fault, fault.found? = some t.kind ∧ f t = Compiler.fail fault) :
    P (nextToken wanted >>= f) := by
  refine hbind (hbind hnext fun t => ?_) fun t => ?_
  · cases t with
    | none => exact hfail _
    | some t => exact hpure t
  · rcases h t with h | ⟨fault, -, e⟩
    · exact h
    · rw [e]
      exact hfail fault

theorem freeRegister (h : Stepwise P) (count : Nat) : P (freeRegister count) := by
  refine h.locals (f := fun locals => if locals.size + count ≤ registerCount then
    Pure.pure (UInt8.ofNat locals.size) else fail .tooManyRegisters) fun locals => ?_
  split
  · exact h.pure _
  · exact h.tooManyRegisters

theorem loadName (h : Stepwise P) (dst : UInt8) (name : String) : P (loadName dst name) := by
  refine h.locals (f := fun locals => match locals.slot? name with
    | some slot => Compiler.emit (.move dst slot)
    | none => do Compiler.emit (.getGlobal dst (← Compiler.constant (.string name)))) fun locals => ?_
  split
  · exact h.emit _
  · exact h.bind (h.constant _) fun _ => h.emit _

theorem loadConstant (h : Stepwise P) (dst : UInt8) (v : Value) : P (loadConstant dst v) :=
  h.bind (h.constant v) fun _ => h.emit _

theorem loadNumeral (h : Stepwise P) (dst : UInt8) (n : Numeral) : P (loadNumeral dst n) := by
  cases n with
  | integer n =>
    simp only [Compiler.loadNumeral]
    split
    · exact h.emit _
    · exact h.loadConstant _ _
  | float x => exact h.loadConstant _ _

theorem expression (h : Stepwise P) (dst : UInt8) : P (expression dst) :=
  h.token _ fun t => by
    split
    · exact .inl (h.emit _)
    · exact .inl (h.emit _)
    · exact .inl (h.emit _)
    · exact .inl (h.loadNumeral _ _)
    · exact .inl (h.loadConstant _ _)
    · exact .inl (h.loadName _ _)
    · refine .inl (h.token _ fun t => ?_)
      split
      · exact .inl (h.loadNumeral _ _)
      · exact .inr ⟨_, rfl, rfl⟩
    · exact .inr ⟨_, rfl, rfl⟩

theorem argument (h : Stepwise P) (dst : UInt8) : P (argument dst) :=
  h.token _ fun t => by
    split
    · exact .inl (h.loadConstant _ _)
    · exact .inl (h.bind (h.expression _) fun _ => h.bind (h.expect _) fun _ => h.pure _)
    · exact .inr ⟨_, rfl, rfl⟩

theorem callStatement (h : Stepwise P) (name : String) : P (callStatement name) :=
  h.bind (h.freeRegister 2) fun _ => h.bind (h.loadName _ _) fun _ =>
    h.bind (h.argument _) fun _ => h.emit _

theorem localStatement (h : Stepwise P) : P localStatement :=
  h.bind h.expectName fun _ => h.bind (h.expect _) fun _ => h.bind (h.freeRegister 1) fun _ =>
    h.bind (h.expression _) fun _ => h.declare _ _

/-- A statement has the property, or fails at its first token, which has been read before. -/
theorem statement (h : Stepwise P) (t : Token) : P (statement t) ∨
    ∃ fault, fault.found? = some t.kind ∧ statement t = fail fault := by
  unfold Compiler.statement
  split
  · exact .inl (h.callStatement _)
  · exact .inl h.localStatement
  · exact .inl (h.pure _)
  · exact .inr ⟨_, rfl, rfl⟩

theorem statement_of_fail (h : Stepwise P)
    (hfail : ∀ fault : CompileFault, P (Compiler.fail fault : Compile Unit)) (t : Token) :
    P (Compiler.statement t) := by
  rcases h.statement t with h | ⟨fault, -, e⟩
  · exact h
  · rw [e]
    exact hfail fault

end Stepwise

/-! ### Nothing is put back -/

/-- Compiling `m` never lengthens the rest of the source. -/
def Keeps {α : Type} (m : Compile α) : Prop :=
  ∀ c : Compiler, (c.after m).2.lexer.rest.length ≤ c.lexer.rest.length

/-- Compiling `m` goes on in the source, and its error is at the place that it has come to. -/
def Advances {α : Type} (m : Compile α) : Prop :=
  ∀ c : Compiler, c.lexer.Reaches (c.after m).2.lexer ∧
    ∀ e, (c.after m).1 = .error e → e.cursor = (c.after m).2.lexer.cursor

namespace Advances

variable {α β : Type}

theorem keeps {m : Compile α} (h : Advances m) : Keeps m := fun c => (h c).1.length_le

theorem still {m : Compile α} (hl : ∀ c : Compiler, (c.after m).2.lexer = c.lexer)
    (ho : ∀ c : Compiler, ∃ a, (c.after m).1 = .ok a) : Advances m := by
  refine fun c => ⟨(hl c).symm ▸ .refl _, fun e he => ?_⟩
  obtain ⟨a, ha⟩ := ho c
  rw [ha] at he
  cases he

theorem pure (a : α) : Advances (Pure.pure a : Compile α) :=
  still (fun _ => rfl) fun _ => ⟨a, rfl⟩

theorem fail (fault : CompileFault) : Advances (fail fault : Compile α) := by
  refine fun c => ⟨.refl _, fun e he => ?_⟩
  cases he
  rfl

theorem constant (v : Value) : Advances (constant v) := by
  intro c
  rw [after_constant]
  split
  · refine ⟨.refl _, fun e he => ?_⟩
    cases he
  · refine ⟨.refl _, fun e he => ?_⟩
    cases he
    rfl

theorem reading {read : Lexer → Except LexError α × Lexer} (h : Lexer.Advances read) :
    Advances (reading read) := by
  intro c
  rw [after_reading]
  refine ⟨(h c.lexer).1, fun e he => ?_⟩
  have hr := (h c.lexer).2
  dsimp only at he ⊢
  cases ho : (read c.lexer).1 with
  | ok a =>
    rw [ho] at he
    cases he
  | error f =>
    rw [ho] at he
    cases he
    exact hr f ho

theorem bind {m : Compile α} {f : α → Compile β} (hm : Advances m) (hf : ∀ a, Advances (f a)) :
    Advances (m >>= f) := by
  intro c
  have h := hm c
  rw [after_bind]
  split
  · rename_i a c' ho
    rw [ho] at h
    exact ⟨h.1.trans (hf a c').1, (hf a c').2⟩
  · rename_i e c' ho
    rw [ho] at h
    refine ⟨h.1, fun e' he => ?_⟩
    cases he
    exact h.2 e rfl

theorem stepwise : Stepwise @Advances where
  pure := pure
  emit _ := still (fun _ => rfl) fun _ => ⟨(), rfl⟩
  constant := constant
  tooManyRegisters := fail _
  declare _ _ := still (fun _ => rfl) fun _ => ⟨(), rfl⟩
  expect wanted := reading (Lexer.advances_expect wanted)
  expectName := reading Lexer.advances_expectName
  token := Stepwise.token_of_fail pure fail (reading Lexer.advances_next) bind
  locals h c := h c.locals c
  bind := bind

theorem statement (t : Token) : Advances (statement t) := stepwise.statement_of_fail fail t

end Advances

theorem Keeps.statement (t : Token) : Keeps (statement t) := (Advances.statement t).keeps

/-- Compiles the rest of the source, up to its end or the first error. The chunk is what has been
collected since the last one; the locals stay. -/
def parse (c : Compiler) : Except CompileError Chunk × Compiler :=
  match _h : c.lexer.next with
  | (.error e, l) => (.error (.ofLexError e), { c with lexer := l })
  | (.ok none, l) => (.ok c.chunk, ⟨l, #[], c.pool.take.2, c.locals⟩)
  | (.ok (some t), l) =>
    match _hs : ({ c with lexer := l } : Compiler).after (statement t) with
    | (.error e, c') => (.error e, c')
    | (.ok (), c') => parse c'
termination_by c.lexer.rest.length
decreasing_by
  have hl := Lexer.length_of_next_token _h
  have hk := Keeps.statement t { c with lexer := l }
  rw [_hs] at hk
  exact Nat.lt_of_le_of_lt hk hl

/-- The outcomes of so many calls of `parse`, one after the other. -/
def parses (c : Compiler) : Nat → List (Except CompileError Chunk)
  | 0 => []
  | n + 1 => c.parse.1 :: c.parse.2.parses n

end Compiler

def compile (source : String) : Except CompileError Chunk :=
  (Compiler.ofSource source).parse.1

end LuaLite
