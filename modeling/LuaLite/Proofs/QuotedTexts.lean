import LuaLite.Proofs.Locality
import LuaLite.Text.Quoted

/-!
# Quoted texts, read back

Between quotes, a character is written as an escape or stands for itself. `unquotedChar?` reads it
back from either, and finds none at the closing quote, so that a quoted text ends where it should and
no two texts have one quotation (`quoted_injective`).
-/

namespace LuaLite

/-! ### Hexadecimal digits -/

namespace Numeral

theorem digitValue_digitChar : ∀ k < 16, digitValue (Nat.digitChar k) = k := by
  decide

theorem isHexDigit_digitChar : ∀ k < 16, isHexDigit (Nat.digitChar k) = true := by
  decide

theorem digitsValue_toDigits (n : Nat) : digitsValue 16 (Nat.toDigits 16 n) = n := by
  induction n using Nat.strongRecOn with
  | ind n ih =>
    rw [Nat.toDigits_eq_if (by decide)]
    split
    case isTrue h => rw [digitsValue, List.foldl_cons, List.foldl_nil, digitValue_digitChar n h,
      Nat.zero_mul, Nat.zero_add]
    case isFalse h =>
      have hd : digitsValue 16 (Nat.toDigits 16 (n / 16)) = n / 16 := ih _ (by omega)
      rw [digitsValue] at hd ⊢
      rw [List.foldl_append, hd, List.foldl_cons, List.foldl_nil,
        digitValue_digitChar _ (Nat.mod_lt n (by decide)), Nat.div_add_mod']

theorem isHexDigit_of_mem_toDigits {n : Nat} {c : Char} (h : c ∈ Nat.toDigits 16 n) :
    isHexDigit c = true := by
  induction n using Nat.strongRecOn with
  | ind n ih =>
    rw [Nat.toDigits_eq_if (by decide)] at h
    split at h
    case isTrue hn =>
      rw [List.mem_singleton.mp h]
      exact isHexDigit_digitChar n hn
    case isFalse hn =>
      rcases List.mem_append.mp h with h | h
      · exact ih _ (by omega) h
      · rw [List.mem_singleton.mp h]
        exact isHexDigit_digitChar _ (Nat.mod_lt n (by decide))

end Numeral

namespace Text

/-! ### Characters between quotes -/

/-- The first character between quotes, and what follows it; there is none where the text ends. -/
def unquotedChar? : List Char → Option (Char × List Char)
  | '\\' :: '0' :: cs => some ('\x00', cs)
  | '\\' :: 't' :: cs => some ('\t', cs)
  | '\\' :: 'r' :: cs => some ('\r', cs)
  | '\\' :: 'n' :: cs => some ('\n', cs)
  | '\\' :: '"' :: cs => some ('"', cs)
  | '\\' :: '\\' :: cs => some ('\\', cs)
  | '\\' :: 'u' :: '{' :: cs =>
    some (Char.ofNat (Numeral.digitsValue 16 (cs.takeWhile Numeral.isHexDigit)),
      (cs.dropWhile Numeral.isHexDigit).drop 1)
  | c :: cs => if c = '"' ∨ c = '\\' then none else some (c, cs)
  | [] => none

theorem unquotedChar?_of_ne {c : Char} (hquote : c ≠ '"') (hslash : c ≠ '\\') (cs : List Char) :
    unquotedChar? (c :: cs) = some (c, cs) := by
  unfold unquotedChar?
  split <;> simp_all

theorem unquotedChar?_hex (c : Char) (cs : List Char) :
    unquotedChar? ('\\' :: 'u' :: '{' :: (Nat.toDigits 16 c.toNat ++ '}' :: cs)) = some (c, cs) := by
  obtain ⟨htake, hdrop⟩ := takeWhile_append_of_head (p := Numeral.isHexDigit) (r := '}' :: cs)
    (fun _ => Numeral.isHexDigit_of_mem_toDigits) fun d hd => by cases hd; rfl
  rw [unquotedChar?, htake, hdrop, Numeral.digitsValue_toDigits, Char.ofNat_toNat]
  rfl

theorem unquotedChar?_quotedChar (c : Char) (cs : List Char) :
    unquotedChar? (quotedChar c ++ cs) = some (c, cs) := by
  unfold quotedChar
  iterate 4
    split
    · subst_vars
      rfl
  split
  case isTrue hc => subst hc; rfl
  split
  case isTrue hc => subst hc; rfl
  case isFalse hquote hslash =>
    split
    · exact unquotedChar?_of_ne hquote hslash cs
    · simpa using unquotedChar?_hex c cs

theorem lineFeed_notMem_quotedChar (c : Char) : '\n' ∉ quotedChar c := by
  unfold quotedChar
  iterate 3
    split
    · decide
  split
  · decide
  case isFalse hc =>
    iterate 2
      split
      · decide
    split
    · simpa using Ne.symm hc
    · have hd : '\n' ∉ Nat.toDigits 16 c.toNat := fun h =>
        absurd (Numeral.isHexDigit_of_mem_toDigits h) (by decide)
      simp [hd]

/-! ### Quoted texts -/

variable {s t : String}

theorem toList_quoted (s : String) :
    (quoted s).toList = '"' :: (s.toList.flatMap quotedChar ++ ['"']) :=
  String.toList_ofList

/-- What stands between quotes is known, and so is where it ends. -/
theorem flatMap_quotedChar_inj {cs ds r r' : List Char}
    (h : cs.flatMap quotedChar ++ '"' :: r = ds.flatMap quotedChar ++ '"' :: r') :
    cs = ds ∧ r = r' := by
  have hend (r : List Char) : unquotedChar? ('"' :: r) = none := rfl
  induction cs generalizing ds with
  | nil =>
    cases ds with
    | nil => exact ⟨rfl, (List.cons.inj h).2⟩
    | cons d ds =>
      have h := congrArg unquotedChar? h
      rw [List.flatMap_cons, List.append_assoc, unquotedChar?_quotedChar] at h
      exact absurd ((hend r).symm.trans h) nofun
  | cons c cs ih =>
    have h := congrArg unquotedChar? h
    rw [List.flatMap_cons, List.append_assoc, unquotedChar?_quotedChar] at h
    cases ds with
    | nil => exact absurd (h.trans (hend r')) nofun
    | cons d ds =>
      rw [List.flatMap_cons, List.append_assoc, unquotedChar?_quotedChar] at h
      obtain ⟨rfl, hrest⟩ := Prod.mk.inj (Option.some.inj h)
      obtain ⟨rfl, rfl⟩ := ih hrest
      exact ⟨rfl, rfl⟩

theorem quoted_injective (h : quoted s = quoted t) : s = t := by
  have h := congrArg String.toList h
  rw [toList_quoted, toList_quoted] at h
  exact String.toList_inj.mp (flatMap_quotedChar_inj (List.cons.inj h).2).1

theorem lineFeed_notMem_quoted (s : String) : '\n' ∉ (quoted s).toList := by
  rw [toList_quoted]
  intro h
  simp only [List.mem_cons, List.mem_append, List.mem_flatMap] at h
  rcases h with h | ⟨c, -, hc⟩ | h | h
  · cases h
  · exact lineFeed_notMem_quotedChar c hc
  · cases h
  · cases h

end Text

end LuaLite
