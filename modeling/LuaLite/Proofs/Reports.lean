import LuaLite.Diagnostic
import LuaLite.Diagnostic.Registry
import Mathlib.Data.List.Basic

/-!
# Errors and their diagnostics

A diagnostic says the same of an error as its message does. The message begins with the place, and
what stands behind it is the message of the diagnostic (`Diagnostic.ofScriptError_agrees`). That of a
compile error is cut out of the text, at the first colon with a space behind it; this finds the end
of the place because a place has no space in it (`CompileError.statement_eq`).
-/

namespace LuaLite

/-! ### Padded numbers -/

namespace Text

variable (width n : Nat)

/-- These are the digits of a number, behind as many zeros as the width asks for. -/
structure IsPadded (ds : List Char) : Prop where
  digit : ∀ c ∈ ds, c.isDigit = true
  value : Nat.ofDigitChars 10 ds 0 = n
  length : ds.length = max width (Nat.toDigits 10 n).length

theorem ofDigitChars_replicate_zero (count : Nat) :
    Nat.ofDigitChars 10 (List.replicate count '0') 0 = 0 := by
  induction count with
  | zero => rfl
  | succ count ih => rw [List.replicate_succ, Nat.ofDigitChars_cons]; exact ih

theorem isPadded_zeroPadded : IsPadded width n (zeroPadded width n).toList := by
  rw [zeroPadded, String.toList_ofList]
  refine ⟨fun c hc => ?_, ?_, ?_⟩
  · rcases List.mem_append.mp hc with hc | hc
    · rw [List.eq_of_mem_replicate hc]
      rfl
    · exact Nat.isDigit_of_mem_toDigits (by decide) (by decide) hc
  · rw [Nat.ofDigitChars_append, ofDigitChars_replicate_zero, Nat.ofDigitChars_ten_toDigits]
  · rw [List.length_append, List.length_replicate]
    omega

end Text

/-! ### What stands behind the place -/

theorem Cursor.space_notMem_text (k : Cursor) : ' ' ∉ k.text.toList := by
  intro h
  rcases isDigit_of_mem_text h with h | h
  · exact absurd h (by decide)
  · exact absurd h (by decide)

theorem Text.divide?_colon {word : List Char} (h : ' ' ∉ word) (rest : List Char) :
    divide? [':', ' '] (word ++ ':' :: ' ' :: rest) = some (word, rest) := by
  induction word with
  | nil =>
    have hmark : List.isPrefixOf? [':', ' '] (':' :: ' ' :: rest) = some rest :=
      List.isPrefixOf?_eq_some_iff_append_eq.mpr rfl
    rw [List.nil_append, divide?, hmark]
  | cons c word ih =>
    rw [List.mem_cons, not_or] at h
    have hmark : List.isPrefixOf? [':', ' '] (c :: (word ++ ':' :: ' ' :: rest)) = none := by
      refine Option.eq_none_iff_forall_ne_some.mpr fun rest' hs => ?_
      -- The character behind `c` is of the word or its colon, and no space.
      have he := List.isPrefixOf?_eq_some_iff_append_eq.mp hs
      cases word with
      | nil => exact absurd (List.cons_eq_cons.mp (List.cons_eq_cons.mp he).2).1 (by decide)
      | cons d word =>
        have hd : ' ' = d := (List.cons_eq_cons.mp (List.cons_eq_cons.mp he).2).1
        exact h.2 (hd ▸ List.mem_cons_self)
    rw [List.cons_append, divide?, hmark, ih h.2]
    rfl

namespace CompileError

theorem divide?_message (e : CompileError) : Text.divide? [':', ' '] e.message.toList =
    some (e.cursor.text.toList, e.fault.message.toList) := by
  have h : e.message.toList = e.cursor.text.toList ++ ':' :: ' ' :: e.fault.message.toList := by
    simp [message]
  rw [h]
  exact Text.divide?_colon e.cursor.space_notMem_text _

/-- Whether it is cut out of the text or not, what is said is the message of the fault. -/
theorem statement_eq (e : CompileError) : e.statement = e.fault.message := by
  unfold statement
  split
  · rename_i f hf
    rw [hf]
    rfl
  · rw [e.divide?_message]
    exact String.ofList_toList

end CompileError

/-! ### Codes -/

theorem Registry.exists_lookup? {code : String} (h : code ∈ entries.map ErrorEntry.code) :
    ∃ entry, lookup? code = some entry ∧ entry.code = code := by
  obtain ⟨entry, hmem, he⟩ := List.mem_map.mp h
  have hs : (lookup? code).isSome = true :=
    List.find?_isSome.mpr ⟨entry, hmem, beq_iff_eq.mpr he⟩
  obtain ⟨found, hf⟩ := Option.isSome_iff_exists.mp hs
  have hc := List.find?_some hf
  exact ⟨found, hf, beq_iff_eq.mp hc⟩

theorem LexFault.code_mem (f : LexFault) : f.code ∈ Registry.entries.map ErrorEntry.code := by
  cases f <;> simp [code, Registry.entries]

theorem CompileFault.code_mem (f : CompileFault) :
    f.code ∈ Registry.entries.map ErrorEntry.code := by
  cases f with
  | lex f => exact f.code_mem
  | _ => simp [code, Registry.entries]

theorem RuntimeFault.code_mem (f : RuntimeFault) :
    f.code ∈ Registry.entries.map ErrorEntry.code := by
  cases f <;> simp [code, Registry.entries]

namespace Diagnostic

theorem exists_code_ofScriptError (e : ScriptError) : ∃ code entry,
    (ofScriptError e).code = some code ∧ Registry.lookup? code = some entry ∧ entry.code = code := by
  cases e with
  | compile e =>
    obtain ⟨entry, h⟩ := Registry.exists_lookup? e.fault.code_mem
    exact ⟨e.fault.code, entry, rfl, h⟩
  | runtime e =>
    obtain ⟨entry, h⟩ := Registry.exists_lookup? e.fault.code_mem
    exact ⟨e.fault.code, entry, rfl, h⟩

/-- What a diagnostic takes over from its error. The message of an error is its stage, its place and
the message of the diagnostic. The place of a compile error is its cursor, at which the diagnostic
has its only label; that of a runtime error is the instruction with its number, in at least four
digits, which the only note names. The code is that of an entry in the registry. -/
theorem ofScriptError_agrees (e : ScriptError) :
    (match e with
      | .compile f =>
        e.message = "compile error: " ++ toString f.cursor.line ++ ":" ++ toString f.cursor.column ++
          ": " ++ (ofScriptError e).message ∧
        ∃ remark, (ofScriptError e).labels = [⟨f.cursor, remark, true⟩]
      | .runtime f => ∃ digits : String, Text.IsPadded 4 f.pc digits.toList ∧
        e.message = "runtime error: " ++ digits ++ " " ++ f.instruction.text ++ ": " ++
          (ofScriptError e).message ∧
        (ofScriptError e).labels = [] ∧
        (ofScriptError e).notes =
          ["at instruction " ++ digits ++ " `" ++ f.instruction.text ++ "`"]) ∧
    ∃ code entry, (ofScriptError e).code = some code ∧ Registry.lookup? code = some entry ∧
      entry.code = code := by
  refine ⟨?_, exists_code_ofScriptError e⟩
  cases e with
  | compile f =>
    have he : (ScriptError.compile f).message =
        "compile error: " ++ (f.cursor.text ++ ": " ++ f.fault.message) := rfl
    have hm : (ofScriptError (.compile f)).message = f.fault.message := f.statement_eq
    refine ⟨?_, f.fault.remark, rfl⟩
    rw [he, hm]
    simp only [Cursor.text, String.append_assoc]
  | runtime f =>
    refine ⟨Text.zeroPadded 4 f.pc, Text.isPadded_zeroPadded 4 f.pc, ?_, rfl, rfl⟩
    have he : (ScriptError.runtime f).message =
        "runtime error: " ++ (f.placeText ++ ": " ++ f.fault.message) := rfl
    have hm : (ofScriptError (.runtime f)).message = f.fault.message := rfl
    rw [he, hm]
    simp only [RuntimeError.placeText, String.append_assoc]

end Diagnostic

end LuaLite
