import LuaLite.Diagnostic.Json
import LuaLite.Proofs.JsonTexts

/-!
# Diagnostics as JSON, read back

The JSON text of a diagnostic is one line, and denotes an object whose keys ascend. All of the
diagnostic is recovered from it but the source, which is not in it (`Diagnostic.json_line_read_back`).
-/

namespace LuaLite

/-- In every object of the value the keys ascend, so that none is there twice. -/
inductive Json.Sorted : Json → Prop
  | null : Sorted .null
  | boolean (b : Bool) : Sorted (.boolean b)
  | integer (n : Int) : Sorted (.integer n)
  | float (x : Binary64) : Sorted (.float x)
  | string (s : String) : Sorted (.string s)
  | array {items : List Json} (h : ∀ x ∈ items, Sorted x) : Sorted (.array items)
  | object {members : List (String × Json)} (hk : (members.map Prod.fst).Pairwise (· < ·))
    (h : ∀ m ∈ members, Sorted m.2) : Sorted (.object members)

namespace Label

/-- The label that a JSON value describes. -/
def ofJson? (j : Json) : Option Label := do
  let line ← (← j.member? "line").nat?
  let column ← (← j.member? "col").nat?
  let message ← (← j.member? "message").string?
  let isPrimary ← (← j.member? "primary").boolean?
  return ⟨⟨line, column⟩, message, isPrimary⟩

theorem ofJson?_json (l : Label) : ofJson? l.json = some l := by
  rfl

theorem floatFree_json (l : Label) : l.json.FloatFree := by
  refine .object ?_
  simp only [List.forall_mem_cons]
  exact ⟨.integer _, .integer _, .string _, .boolean _, nofun⟩

theorem sorted_json (l : Label) : l.json.Sorted := by
  refine .object (show ["col", "line", "message", "primary"].Pairwise (· < ·) by decide) ?_
  simp only [List.forall_mem_cons]
  exact ⟨.integer _, .integer _, .string _, .boolean _, nofun⟩

end Label

namespace Diagnostic

/-- The text under a key that may be left out. -/
def optional? (key : String) (j : Json) : Option (Option String) :=
  match j.member? key with
  | none => some none
  | some x => x.string?.map some

/-- The diagnostic that a JSON value describes, without its source. -/
def ofJson? (j : Json) : Option Diagnostic := do
  let _ ← (← j.member? "severity").string?.filter (· == "error")
  let code ← optional? "code" j
  let message ← (← j.member? "message").string?
  let labels ← (← (← j.member? "labels").items?).mapM Label.ofJson?
  let notes ← (← (← j.member? "notes").items?).mapM Json.string?
  let suggestion ← optional? "suggestion" j
  return ⟨code, message, labels, notes, suggestion, none⟩

theorem ofJson?_json (d : Diagnostic) : ofJson? d.json = some { d with source := none } := by
  obtain ⟨code, message, labels, notes, suggestion, source⟩ := d
  have hlabels : (labels.map Label.json).mapM Label.ofJson? = some labels :=
    Json.mapM_map fun l _ => l.ofJson?_json
  have hnotes : (notes.map Json.string).mapM Json.string? = some notes :=
    Json.mapM_map fun _ _ => rfl
  cases code <;> cases suggestion <;>
    simp [ofJson?, json, optional?, optionalMember, Json.member?_cons, Json.member?_nil,
      Json.items?, Json.string?, Option.filter_some, hlabels, hnotes]

/-- The members of the object that a diagnostic is written as. -/
def members (d : Diagnostic) : List (String × Json) :=
  optionalMember "code" d.code ++
    [("labels", .array (d.labels.map Label.json)), ("message", .string d.message),
      ("notes", .array (d.notes.map .string)), ("severity", .string "error")] ++
    optionalMember "suggestion" d.suggestion

theorem json_eq (d : Diagnostic) : d.json = .object d.members := rfl

theorem forall_mem_members {P : Json → Prop} (d : Diagnostic) (hs : ∀ s, P (.string s))
    (hlabels : P (.array (d.labels.map Label.json))) (hnotes : P (.array (d.notes.map .string))) :
    ∀ m ∈ d.members, P m.2 := by
  have hoptional (key : String) (value : Option String) :
      ∀ m ∈ optionalMember key value, P m.2 := by
    intro m hm
    obtain ⟨s, -, rfl⟩ := List.mem_map.mp hm
    exact hs s
  simp only [members, List.forall_mem_append, List.forall_mem_cons]
  exact ⟨⟨hoptional _ _, hlabels, hs _, hnotes, hs _, nofun⟩, hoptional _ _⟩

theorem floatFree_json (d : Diagnostic) : d.json.FloatFree := by
  rw [json_eq]
  refine .object (d.forall_mem_members .string ?_ ?_)
  · exact .array (List.forall_mem_map.mpr fun l _ => l.floatFree_json)
  · exact .array (List.forall_mem_map.mpr fun s _ => .string s)

theorem keys_members (d : Diagnostic) : d.members.map Prod.fst =
    (if d.code.isSome then ["code"] else []) ++ ["labels", "message", "notes", "severity"] ++
      if d.suggestion.isSome then ["suggestion"] else [] := by
  obtain ⟨code, message, labels, notes, suggestion, source⟩ := d
  cases code <;> cases suggestion <;> rfl

theorem sorted_json (d : Diagnostic) : d.json.Sorted := by
  rw [json_eq]
  refine .object ?_ (d.forall_mem_members .string ?_ ?_)
  · rw [keys_members]
    cases d.code.isSome <;> cases d.suggestion.isSome <;> decide
  · exact .array (List.forall_mem_map.mpr fun l _ => l.sorted_json)
  · exact .array (List.forall_mem_map.mpr fun s _ => .string s)

/-- A diagnostic is written on one line, as an object with sorted keys. It has a code and a
suggestion only where the diagnostic has them, and all but the source is recovered. -/
theorem json_line_read_back (d : Diagnostic) :
    Json.OneLine d.json.compact.toList ∧
    ∃ members, Json.read? d.json.compact.toList = some (.object members) ∧
      (Json.object members).Sorted ∧
      (∀ key, key ∈ members.map Prod.fst ↔ key ∈ ["labels", "message", "notes", "severity"] ∨
        (key = "code" ∧ d.code.isSome) ∨ (key = "suggestion" ∧ d.suggestion.isSome)) ∧
      ofJson? (.object members) = some { d with source := none } := by
  refine ⟨d.floatFree_json.oneLine_compact, d.members, d.floatFree_json.read_compact,
    d.sorted_json, fun key => ?_, d.ofJson?_json⟩
  rw [keys_members, List.mem_append, List.mem_append]
  split <;> split <;> grind

end Diagnostic

end LuaLite
