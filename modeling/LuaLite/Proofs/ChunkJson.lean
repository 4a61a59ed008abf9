import LuaLite.Chunk.Json
import LuaLite.Proofs.JsonTexts

/-!
# Chunks as JSON, read back

Both JSON texts of a chunk denote one value, from which the chunk is recovered, if no constant is a
float or a function (`Chunk.json_texts_read_back`): floats that are not finite have no JSON, and a
function is written as a string.
-/

namespace LuaLite

/-! ### Constants -/

namespace Value

/-- Constants that are written in JSON as what they are. -/
def IsPlain : Value → Prop
  | .nil | .boolean _ | .integer _ | .string _ => True
  | .float _ | .function _ => False

/-- The constant that a JSON value describes. -/
def ofJson? : Json → Option Value
  | .null => some .nil
  | .boolean b => some (.boolean b)
  | .integer n =>
    if Int64.minValue.toInt ≤ n ∧ n ≤ Int64.maxValue.toInt then some (.integer (Int64.ofInt n))
    else none
  | .float x => some (.float x)
  | .string s => some (.string s)
  | .array _ | .object _ => none

variable {v : Value}

theorem ofJson?_json (h : v.IsPlain) : ofJson? v.json = some v := by
  cases v with
  | integer n =>
    rw [json, ofJson?, if_pos ⟨n.minValue_le_toInt, n.toInt_le⟩, Int64.ofInt_toInt]
  | float _ | function _ => exact h.elim
  | _ => rfl

theorem IsPlain.floatFree_json (h : v.IsPlain) : v.json.FloatFree := by
  cases v with
  | nil => exact .null
  | boolean b => exact .boolean b
  | integer n => exact .integer _
  | string s => exact .string s
  | float _ | function _ => exact h.elim

end Value

/-! ### Instructions -/

def Opcode.ofName? (s : String) : Option Opcode :=
  [getGlobal, loadConst, call, loadNil, loadBool, loadInt, move].find? (·.name == s)

theorem Opcode.ofName?_name (o : Opcode) : ofName? o.name = some o := by
  cases o <;> decide

def Json.byte? (j : Json) : Option UInt8 :=
  j.nat?.bind fun n => if n < 256 then some (UInt8.ofNat n) else none

theorem Json.byte?_toNat (b : UInt8) : (Json.integer b.toNat).byte? = some b := by
  rw [byte?, nat?, if_pos (Int.natCast_nonneg _), Option.bind_some, Int.toNat_natCast,
    if_pos b.toNat_lt, UInt8.ofNat_toNat]

namespace Instruction

/-- The operation byte that a JSON value describes: a name of an operation, or the number of a byte
that is none. -/
def opOfJson? : Json → Option UInt8
  | .string s => (Opcode.ofName? s).map Opcode.byte
  | j => j.byte?.filter fun b => (Opcode.ofByte? b).isNone

/-- The instruction that a JSON value describes. -/
def ofJson? (j : Json) : Option Instruction := do
  let op ← opOfJson? (← j.member? "op")
  let a ← (← j.member? "a").byte?
  let b ← (← j.member? "b").byte?
  let c ← (← j.member? "c").byte?
  return ⟨op, a, b, c⟩

/-- What stands for the operation byte. -/
def opJson (i : Instruction) : Json :=
  match i.opcode? with
  | some o => .string o.name
  | none => .integer i.op.toNat

theorem json_eq (i : Instruction) : i.json = .object [("op", i.opJson), ("a", .integer i.a.toNat),
    ("b", .integer i.b.toNat), ("c", .integer i.c.toNat)] := rfl

theorem opOfJson?_opJson (i : Instruction) : opOfJson? i.opJson = some i.op := by
  rw [opJson]
  split
  case h_1 o ho =>
    rw [opOfJson?, Opcode.ofName?_name, Option.map_some, Opcode.byte_of_ofByte? ho]
  case h_2 ho =>
    have ho : Opcode.ofByte? i.op = none := ho
    simp [opOfJson?, Json.byte?_toNat, ho]

theorem ofJson?_json (i : Instruction) : ofJson? i.json = some i := by
  simp [json_eq, ofJson?, Json.member?_cons, opOfJson?_opJson, Json.byte?_toNat]

theorem floatFree_json (i : Instruction) : i.json.FloatFree := by
  have hop : i.opJson.FloatFree := by
    rw [opJson]
    split
    · exact .string _
    · exact .integer _
  rw [json_eq]
  refine .object ?_
  simp only [List.forall_mem_cons]
  exact ⟨hop, .integer _, .integer _, .integer _, nofun⟩

end Instruction

/-! ### Chunks -/

namespace Chunk

/-- The chunk that a JSON value describes. -/
def ofJson? (j : Json) : Option Chunk := do
  let constants ← (← (← j.member? "constants").items?).mapM Value.ofJson?
  let code ← (← (← j.member? "code").items?).mapM Instruction.ofJson?
  return ⟨constants, code⟩

variable {c : Chunk}

theorem ofJson?_json (h : ∀ v ∈ c.constants, v.IsPlain) : ofJson? c.json = some c := by
  have hconstants : (c.constants.map Value.json).mapM Value.ofJson? = some c.constants :=
    Json.mapM_map fun v hv => Value.ofJson?_json (h v hv)
  have hcode : (c.code.map Instruction.json).mapM Instruction.ofJson? = some c.code :=
    Json.mapM_map fun i _ => i.ofJson?_json
  simp [ofJson?, json, Json.member?_cons, Json.items?, hconstants, hcode]

theorem floatFree_json (h : ∀ v ∈ c.constants, v.IsPlain) : c.json.FloatFree := by
  refine .object ?_
  simp only [List.forall_mem_cons]
  refine ⟨.array (List.forall_mem_map.mpr fun v hv => (h v hv).floatFree_json),
    .array (List.forall_mem_map.mpr fun i _ => i.floatFree_json), nofun⟩

theorem read_json (h : ∀ v ∈ c.constants, v.IsPlain) {t : String}
    (ht : t ∈ [c.json.compact, c.json.pretty]) : Json.read? t.toList = some c.json := by
  have hfree := floatFree_json h
  rcases List.mem_pair.mp ht with rfl | rfl
  · exact hfree.read_compact
  · exact hfree.read_pretty

/-- Both JSON texts of a chunk without floats and functions denote one value, and the chunk is
recovered from it. So two such chunks have no text in common, in whichever layout. -/
theorem json_texts_read_back (h : ∀ v ∈ c.constants, v.IsPlain) :
    (∃ j, Json.read? c.json.compact.toList = some j ∧ Json.read? c.json.pretty.toList = some j ∧
      ofJson? j = some c) ∧
    ∀ c' : Chunk, (∀ v ∈ c'.constants, v.IsPlain) →
      ∀ t ∈ [c.json.compact, c.json.pretty], t ∈ [c'.json.compact, c'.json.pretty] → c = c' := by
  refine ⟨⟨c.json, (floatFree_json h).read_compact, (floatFree_json h).read_pretty,
    ofJson?_json h⟩, fun c' h' t ht ht' => ?_⟩
  have hj : c.json = c'.json := Option.some.inj ((read_json h ht).symm.trans (read_json h' ht'))
  have hc := ofJson?_json h
  rw [hj, ofJson?_json h'] at hc
  exact (Option.some.inj hc).symm

/-- A constant with characters to escape, the least integer, and a byte that is no operation. -/
theorem json_texts_read_back_escapes :
    ∃ j, Json.read? (Chunk.json ⟨[.string "a\"\n\x01", .integer Int64.minValue, .nil],
      [⟨0xEE, 1, 2, 3⟩, .loadInt 7 (-1)]⟩).pretty.toList = some j ∧
      ofJson? j = some ⟨[.string "a\"\n\x01", .integer Int64.minValue, .nil],
        [⟨0xEE, 1, 2, 3⟩, .loadInt 7 (-1)]⟩ := by
  obtain ⟨⟨j, -, hpretty, hj⟩, -⟩ := json_texts_read_back (c := ⟨[.string "a\"\n\x01",
    .integer Int64.minValue, .nil], [⟨0xEE, 1, 2, 3⟩, .loadInt 7 (-1)]⟩) (by
      simp only [List.forall_mem_cons]
      exact ⟨trivial, trivial, trivial, nofun⟩)
  exact ⟨j, hpretty, hj⟩

end Chunk

end LuaLite
