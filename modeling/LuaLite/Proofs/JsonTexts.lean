import LuaLite.Json.Reader
import LuaLite.Proofs.Numerals
import Mathlib.Data.List.Basic

/-!
# Reading JSON texts back

`Json.Written` relates a value without floats to its texts, in which lines may be broken around items
and members. Both layouts are such texts (`FloatFree.written_compact`, `written_pretty`), and from
each of them the reader gets the value back (`Written.read`). A text on one line has no control
characters in it (`FloatFree.oneLine_compact`).
-/

namespace LuaLite.Json

/-- Values with no float in them. -/
inductive FloatFree : Json → Prop
  | null : FloatFree .null
  | boolean (b : Bool) : FloatFree (.boolean b)
  | integer (n : Int) : FloatFree (.integer n)
  | string (s : String) : FloatFree (.string s)
  | array {items : List Json} (h : ∀ x ∈ items, FloatFree x) : FloatFree (.array items)
  | object {members : List (String × Json)} (h : ∀ m ∈ members, FloatFree m.2) :
    FloatFree (.object members)

def Blanks (b : List Char) : Prop := ∀ c ∈ b, isJsonBlank c = true

mutual

/-- The texts of a value: blanks may stand around the items of an array and the members of an
object. -/
inductive Written : Json → List Char → Prop
  | null : Written .null ['n', 'u', 'l', 'l']
  | true : Written (.boolean true) ['t', 'r', 'u', 'e']
  | false : Written (.boolean false) ['f', 'a', 'l', 's', 'e']
  | integer (n : Int) : Written (.integer n) (integerText n)
  | string (s : String) : Written (.string s) (stringText s)
  | emptyArray : Written (.array []) ['[', ']']
  | array {items : List Json} {t : List Char} (h : ItemsWritten items t) :
    Written (.array items) ('[' :: t)
  | emptyObject : Written (.object []) ['{', '}']
  | object {members : List (String × Json)} {t : List Char} (h : MembersWritten members t) :
    Written (.object members) ('{' :: t)

/-- The texts of at least one item, and the bracket behind them. -/
inductive ItemsWritten : List Json → List Char → Prop
  | last {x : Json} {b t b' : List Char} (hb : Blanks b) (h : Written x t) (hb' : Blanks b') :
    ItemsWritten [x] (b ++ (t ++ (b' ++ [']'])))
  | cons {x : Json} {items : List Json} {b t u : List Char} (hb : Blanks b) (h : Written x t)
    (hu : ItemsWritten items u) : ItemsWritten (x :: items) (b ++ (t ++ ',' :: u))

/-- The texts of at least one member, and the brace behind them. -/
inductive MembersWritten : List (String × Json) → List Char → Prop
  | last {k : String} {x : Json} {b s t b' : List Char} (hb : Blanks b) (hs : Blanks s)
    (h : Written x t) (hb' : Blanks b') :
    MembersWritten [(k, x)] (b ++ (stringText k ++ ':' :: (s ++ (t ++ (b' ++ ['}'])))))
  | cons {k : String} {x : Json} {members : List (String × Json)} {b s t u : List Char}
    (hb : Blanks b) (hs : Blanks s) (h : Written x t) (hu : MembersWritten members u) :
    MembersWritten ((k, x) :: members) (b ++ (stringText k ++ ':' :: (s ++ (t ++ ',' :: u))))

end

variable {b cs rest : List Char} {c mark : Char}

/-! ### Blanks and marks -/

theorem isJsonBlank_iff : isJsonBlank c = true ↔ c = ' ' ∨ c = '\t' ∨ c = '\n' ∨ c = '\r' := by
  simp [isJsonBlank, or_assoc]

theorem blanks_nil : Blanks [] := nofun

theorem blanks_newLine (depth : Nat) : Blanks (newLine depth) := by
  intro c hc
  rcases List.mem_cons.mp hc with rfl | hc
  · rfl
  · rw [List.eq_of_mem_replicate hc]
    rfl

theorem skipBlanks_append (hb : Blanks b) (cs : List Char) :
    skipBlanks (b ++ cs) = skipBlanks cs :=
  List.dropWhile_append_of_pos hb

theorem skipBlanks_cons (hc : isJsonBlank c = false) : skipBlanks (c :: cs) = c :: cs := by
  simp [skipBlanks, hc]

theorem readMark_append (hb : Blanks b) (hc : isJsonBlank c = false) :
    readMark mark (b ++ c :: cs) = if c = mark then some cs else none := by
  rw [readMark, skipBlanks_append hb, skipBlanks_cons hc]

/-! ### Strings -/

theorem codeUnit?_control {n : Nat} (h : n < 0x20) :
    codeUnit? '0' '0' (Nat.digitChar (n / 16)) (Nat.digitChar (n % 16)) = some n := by
  revert n
  decide

theorem readChar_escapedChar (c : Char) (cs : List Char) :
    readChar (escapedChar c ++ cs) = some (some c, cs) := by
  unfold escapedChar
  -- The characters that have an escape of one letter.
  iterate 7
    split
    · subst_vars
      rfl
  split
  case isTrue hc =>
    have hunit : unitChar? c.toNat = some c := by
      rw [unitChar?, if_neg (by omega), Char.ofNat_toNat]
    simp only [List.cons_append, List.nil_append, readChar, codeUnit?_control hc, hunit]
  case isFalse hc =>
    show readChar (c :: cs) = _
    unfold readChar
    split <;> simp_all

theorem readString_of_char {x : Char} (h : readChar cs = some (some x, rest)) :
    readString cs = (readString rest).map fun (xs, last) => (x :: xs, last) := by
  rw [readString]
  split <;> simp_all

theorem readString_quote (cs : List Char) : readString ('"' :: cs) = some ([], cs) := by
  rw [readString]
  split <;> simp_all [readChar]

theorem readString_flatMap (s rest : List Char) :
    readString (s.flatMap escapedChar ++ '"' :: rest) = some (s, rest) := by
  induction s with
  | nil => exact readString_quote rest
  | cons c s ih =>
    rw [List.flatMap_cons, List.append_assoc,
      readString_of_char (readChar_escapedChar c _), ih]
    rfl

theorem readString_stringText (s : String) (rest : List Char) :
    ∃ t, stringText s = '"' :: t ∧ readString (t ++ rest) = some (s.toList, rest) := by
  refine ⟨_, rfl, ?_⟩
  rw [List.append_assoc]
  exact readString_flatMap s.toList rest

/-! ### Integers -/

/-- No number goes on here. -/
def Ends (cs : List Char) : Prop :=
  ∀ c, cs.head? = some c → c.isDigit = false ∧ c ≠ '.' ∧ c ≠ 'e' ∧ c ≠ 'E'

theorem ends_of_head (hc : c.isDigit = false ∧ c ≠ '.' ∧ c ≠ 'e' ∧ c ≠ 'E') : Ends (c :: cs) := by
  rintro d ⟨⟩
  exact hc

theorem ends_append (hb : Blanks b) (h : Ends cs) : Ends (b ++ cs) := by
  cases b with
  | nil => exact h
  | cons c b =>
    rcases isJsonBlank_iff.mp (hb c List.mem_cons_self) with rfl | rfl | rfl | rfl <;>
      exact ends_of_head (by decide)

theorem head?_toDigits {n : Nat} (hn : 0 < n) : (Nat.toDigits 10 n).head? ≠ some '0' := by
  induction n using Nat.strongRecOn with
  | ind n ih =>
    rw [Nat.toDigits_eq_if (by decide)]
    split
    case isTrue h =>
      have hdigit : ∀ n < 10, 0 < n → n.digitChar ≠ '0' := by decide
      simpa using hdigit n h hn
    case isFalse h =>
      rw [List.head?_append_of_ne_nil _ Nat.toDigits_ne_nil]
      exact ih (n / 10) (by omega) (by omega)

theorem wholePart_toDigits (n : Nat) (h : Ends rest) :
    wholePart (Nat.toDigits 10 n ++ rest) = some (Nat.toDigits 10 n, rest) := by
  have hd := Numeral.isDigits_toDigits n
  rcases Nat.eq_zero_or_pos n with rfl | hn
  · rfl
  · obtain ⟨htake, hdrop⟩ := takeWhile_append_of_head hd.digit fun c hc => (h c hc).1
    have h0 := head?_toDigits hn
    unfold wholePart
    split
    case h_1 heq =>
      rw [← List.head?_append_of_ne_nil _ hd.ne_nil, heq] at h0
      exact absurd rfl h0
    case h_2 => rw [htake, hdrop, if_neg hd.ne_nil]

theorem fractionDigits_of_ends (h : Ends cs) : fractionDigits cs = some ([], cs) := by
  unfold fractionDigits
  split
  case h_1 => exact absurd rfl (h '.' rfl).2.1
  case h_2 => rfl

theorem readExponent_of_ends (h : Ends cs) : readExponent cs = some (none, cs) := by
  cases cs with
  | nil => rfl
  | cons c cs =>
    unfold readExponent
    exact if_neg (not_or.mpr (h c rfl).2.2)

theorem readUnsigned_toDigits (negative : Bool) (n : Nat) (h : Ends rest) :
    readUnsigned negative (Nat.toDigits 10 n ++ rest) =
      some (.integer (if negative then -n else n), rest) := by
  have hv : Numeral.digitsValue 10 (Nat.toDigits 10 n) = n := by
    rw [Numeral.digitsValue_eq_ofDigitChars (Numeral.isDigits_toDigits n).digit,
      Nat.ofDigitChars_ten_toDigits]
  rw [readUnsigned, wholePart_toDigits n h]
  simp only [Option.bind_eq_bind, Option.bind_some, fractionDigits_of_ends h, readExponent_of_ends h,
    and_self, if_true, hv]
  rfl

theorem readNumber_integerText (n : Int) (h : Ends rest) :
    readNumber (integerText n ++ rest) = some (.integer n, rest) := by
  rw [integerText]
  split
  case isTrue hn =>
    rw [List.cons_append, readNumber, readUnsigned_toDigits true _ h, if_pos rfl]
    rw [Int.ofNat_natAbs_of_nonpos (Int.le_of_lt hn), Int.neg_neg]
  case isFalse hn =>
    have hd := Numeral.isDigits_toDigits n.natAbs
    unfold readNumber
    split
    case h_1 heq =>
      have hc : '-' ∈ Nat.toDigits 10 n.natAbs := by
        apply List.mem_of_head?
        rw [← List.head?_append_of_ne_nil _ hd.ne_nil, heq]
        rfl
      exact absurd (hd.digit _ hc) (by decide)
    case h_2 =>
      rw [readUnsigned_toDigits false _ h, if_neg Bool.false_ne_true,
        Int.natAbs_of_nonneg (Int.not_lt.mp hn)]

/-! ### Values -/

/-- How the text of a value starts. -/
def Starts (c : Char) : Prop :=
  c ∈ ['n', 't', 'f', '"', '[', '{', '-'] ∨ c.isDigit = true

instance (c : Char) : Decidable (Starts c) := inferInstanceAs (Decidable (_ ∨ _))

theorem Starts.not_isJsonBlank (h : Starts c) : isJsonBlank c = false := by
  refine Bool.eq_false_iff.mpr fun hb => ?_
  rcases isJsonBlank_iff.mp hb with rfl | rfl | rfl | rfl <;> exact absurd h (by decide)

theorem starts_integerText (n : Int) :
    ∃ c t, integerText n = c :: t ∧ (c = '-' ∨ c.isDigit = true) := by
  rw [integerText]
  split
  · exact ⟨_, _, rfl, .inl rfl⟩
  · have hd := Numeral.isDigits_toDigits n.natAbs
    obtain ⟨c, t, he⟩ := List.exists_cons_of_ne_nil hd.ne_nil
    exact ⟨c, t, he, .inr (hd.digit c (he ▸ List.mem_cons_self))⟩

theorem Written.starts {j : Json} {t : List Char} (h : Written j t) :
    ∃ c u, t = c :: u ∧ Starts c := by
  cases h with
  | integer n =>
    obtain ⟨c, u, he, hc⟩ := starts_integerText n
    exact ⟨c, u, he, hc.imp_left fun h => by simp [h]⟩
  | _ => exact ⟨_, _, rfl, .inl (by simp)⟩

theorem readValue_append (fuel : Nat) (hb : Blanks b) (cs : List Char) :
    readValue fuel (b ++ cs) = readValue fuel cs := by
  cases fuel with
  | zero => rfl
  | succ fuel => rw [readValue, readValue, skipBlanks_append hb]

theorem readValue_number (fuel : Nat) (hc : c = '-' ∨ c.isDigit = true) (cs : List Char) :
    readValue (fuel + 1) (c :: cs) = readNumber (c :: cs) := by
  have hstart : Starts c := hc.imp_left fun h => by simp [h]
  rw [readValue, skipBlanks_cons hstart.not_isJsonBlank]
  split
  case h_7 => rfl
  all_goals
    rename_i heq
    cases heq
    exact absurd hc (by decide)

theorem readValue_array (fuel : Nat) {items : List Json} {t : List Char}
    (hm : readMark ']' cs = none) (h : readItems fuel cs = some (items, t)) :
    readValue (fuel + 1) ('[' :: cs) = some (.array items, t) := by
  rw [readValue, skipBlanks_cons (by decide)]
  simp only [hm, h, Option.map_some]

theorem readValue_object (fuel : Nat) {members : List (String × Json)} {t : List Char}
    (hm : readMark '}' cs = none) (h : readMembers fuel cs = some (members, t)) :
    readValue (fuel + 1) ('{' :: cs) = some (.object members, t) := by
  rw [readValue, skipBlanks_cons (by decide)]
  simp only [hm, h, Option.map_some]

theorem ItemsWritten.readMark {items : List Json} {t : List Char} (h : ItemsWritten items t)
    (rest : List Char) : readMark ']' (t ++ rest) = none := by
  cases h with
  | last hb h _ | cons hb h _ =>
    obtain ⟨c, u, rfl, hc⟩ := h.starts
    rw [List.append_assoc, List.cons_append, List.cons_append,
      readMark_append hb hc.not_isJsonBlank, if_neg]
    rintro rfl
    exact absurd hc (by decide)

theorem MembersWritten.readMark {members : List (String × Json)} {t : List Char}
    (h : MembersWritten members t) (rest : List Char) : readMark '}' (t ++ rest) = none := by
  cases h with
  | last hb _ _ _ | cons hb _ _ _ =>
    rw [List.append_assoc, stringText, List.cons_append, List.cons_append,
      readMark_append hb (by decide), if_neg (by decide)]

theorem readItems_last {fuel : Nat} {x : Json} (hb : Blanks b)
    (h : readValue fuel cs = some (x, b ++ ']' :: rest)) :
    readItems (fuel + 1) cs = some ([x], rest) := by
  have hcomma : readMark ',' (b ++ ']' :: rest) = none := readMark_append hb (by decide)
  have hclose : readMark ']' (b ++ ']' :: rest) = some rest := readMark_append hb (by decide)
  simp only [readItems, h, Option.bind_eq_bind, Option.bind_some, hcomma, hclose]
  rfl

theorem readItems_cons {fuel : Nat} {x : Json} {items : List Json}
    (h : readValue fuel cs = some (x, ',' :: b)) (hs : readItems fuel b = some (items, rest)) :
    readItems (fuel + 1) cs = some (x :: items, rest) := by
  have hcomma : readMark ',' (',' :: b) = some b := rfl
  simp only [readItems, h, Option.bind_eq_bind, Option.bind_some, hcomma, hs]
  rfl

theorem readMembers_key (fuel : Nat) (k : String) (hb : Blanks b) (cs : List Char) :
    readMembers (fuel + 1) (b ++ (stringText k ++ ':' :: cs)) = (do
      let (x, rest) ← readValue fuel cs
      match readMark ',' rest with
      | some rest =>
        let (ms, last) ← readMembers fuel rest
        return ((k, x) :: ms, last)
      | none =>
        let last ← readMark '}' rest
        return ([(k, x)], last)) := by
  obtain ⟨t, ht, hkey⟩ := readString_stringText k (':' :: cs)
  have hquote : readMark '"' (b ++ '"' :: (t ++ ':' :: cs)) = some (t ++ ':' :: cs) :=
    readMark_append hb (by decide)
  rw [ht, List.cons_append, readMembers, hquote, Option.bind_eq_bind, Option.bind_some, hkey]
  conv_rhs => rw [← String.ofList_toList (s := k)]
  rfl

theorem readMembers_last {fuel : Nat} {k : String} {x : Json} {b' : List Char} (hb : Blanks b)
    (hb' : Blanks b') (h : readValue fuel cs = some (x, b' ++ '}' :: rest)) :
    readMembers (fuel + 1) (b ++ (stringText k ++ ':' :: cs)) = some ([(k, x)], rest) := by
  have hcomma : readMark ',' (b' ++ '}' :: rest) = none := readMark_append hb' (by decide)
  have hclose : readMark '}' (b' ++ '}' :: rest) = some rest := readMark_append hb' (by decide)
  simp only [readMembers_key fuel k hb cs, h, Option.bind_eq_bind, Option.bind_some, hcomma, hclose]
  rfl

theorem readMembers_cons {fuel : Nat} {k : String} {x : Json} {members : List (String × Json)}
    {cs' : List Char} (hb : Blanks b) (h : readValue fuel cs = some (x, ',' :: cs'))
    (hs : readMembers fuel cs' = some (members, rest)) :
    readMembers (fuel + 1) (b ++ (stringText k ++ ':' :: cs)) =
      some ((k, x) :: members, rest) := by
  have hcomma : readMark ',' (',' :: cs') = some cs' := rfl
  simp only [readMembers_key fuel k hb cs, h, Option.bind_eq_bind, Option.bind_some, hcomma, hs]
  rfl

/-- Reading a text takes no more steps than it has characters. -/
theorem read_written (fuel : Nat) :
    (∀ {j t}, Written j t → t.length < fuel → ∀ {rest}, Ends rest →
      readValue fuel (t ++ rest) = some (j, rest)) ∧
    (∀ {items t}, ItemsWritten items t → t.length < fuel → ∀ rest,
      readItems fuel (t ++ rest) = some (items, rest)) ∧
    (∀ {members t}, MembersWritten members t → t.length < fuel → ∀ rest,
      readMembers fuel (t ++ rest) = some (members, rest)) := by
  induction fuel with
  | zero =>
    exact ⟨fun _ h => absurd h (Nat.not_lt_zero _), fun _ h => absurd h (Nat.not_lt_zero _),
      fun _ h => absurd h (Nat.not_lt_zero _)⟩
  | succ fuel ih =>
    obtain ⟨ihvalue, ihitems, ihmembers⟩ := ih
    have hcomma (cs : List Char) : Ends (',' :: cs) := ends_of_head (by decide)
    have hbracket (cs : List Char) : Ends (']' :: cs) := ends_of_head (by decide)
    have hbrace (cs : List Char) : Ends ('}' :: cs) := ends_of_head (by decide)
    refine ⟨fun {j t} h hlen {rest} hrest => ?_, fun {items t} h hlen rest => ?_,
      fun {members t} h hlen rest => ?_⟩
    · cases h with
      | null => rfl
      | true => rfl
      | false => rfl
      | integer n =>
        obtain ⟨c, u, he, hc⟩ := starts_integerText n
        have h := readNumber_integerText n hrest
        rw [he] at h ⊢
        exact (readValue_number fuel hc (u ++ rest)).trans h
      | string s =>
        obtain ⟨u, he, h⟩ := readString_stringText s rest
        rw [he, List.cons_append, readValue, skipBlanks_cons (by decide)]
        simp only [h, Option.map_some, String.ofList_toList]
      | emptyArray => rfl
      | array h =>
        exact readValue_array fuel (h.readMark rest)
          (ihitems h (Nat.lt_of_succ_lt_succ hlen) rest)
      | emptyObject => rfl
      | object h =>
        exact readValue_object fuel (h.readMark rest)
          (ihmembers h (Nat.lt_of_succ_lt_succ hlen) rest)
    · cases h with
      | last hb h hb' =>
        simp only [List.length_append, List.length_singleton] at hlen
        have hv := ihvalue h (by omega) (ends_append hb' (hbracket rest))
        simp only [List.append_assoc, List.cons_append, List.nil_append]
        exact readItems_last hb' ((readValue_append fuel hb _).trans hv)
      | @cons x items b t u hb h hu =>
        simp only [List.length_append, List.length_cons] at hlen
        have hv := ihvalue h (by omega) (hcomma (u ++ rest))
        simp only [List.append_assoc, List.cons_append]
        exact readItems_cons ((readValue_append fuel hb _).trans hv) (ihitems hu (by omega) rest)
    · cases h with
      | last hb hs h hb' =>
        simp only [List.length_append, List.length_cons] at hlen
        have hv := ihvalue h (by omega) (ends_append hb' (hbrace rest))
        simp only [List.append_assoc, List.cons_append, List.nil_append]
        exact readMembers_last hb hb' ((readValue_append fuel hs _).trans hv)
      | @cons k x members b s t u hb hs h hu =>
        simp only [List.length_append, List.length_cons] at hlen
        have hv := ihvalue h (by omega) (hcomma (u ++ rest))
        simp only [List.append_assoc, List.cons_append]
        exact readMembers_cons hb ((readValue_append fuel hs _).trans hv)
          (ihmembers hu (by omega) rest)

/-- A value is read back from each of its texts. -/
theorem Written.read {j : Json} {t : List Char} (h : Written j t) : read? t = some j := by
  have hends : Ends [] := nofun
  have hr := (read_written (t.length + 1)).1 h (Nat.lt_succ_self _) hends
  rw [List.append_nil] at hr
  rw [read?, hr]
  rfl

/-! ### The two layouts -/

section

variable {items : List Json} {members : List (String × Json)} {j : Json}

theorem itemsWritten_compact (h : ∀ x ∈ items, Written x (compactChars x)) (hne : items ≠ []) :
    ItemsWritten items (compactItems items ++ [']']) := by
  induction items with
  | nil => exact absurd rfl hne
  | cons x items ih =>
    have hx := h x List.mem_cons_self
    cases items with
    | nil => exact .last blanks_nil hx blanks_nil
    | cons y items =>
      have hs := ih (fun z hz => h z (List.mem_cons_of_mem x hz)) (List.cons_ne_nil y items)
      rw [compactItems, List.append_assoc]
      exact .cons blanks_nil hx hs

theorem membersWritten_compact (h : ∀ m ∈ members, Written m.2 (compactChars m.2))
    (hne : members ≠ []) : MembersWritten members (compactMembers members ++ ['}']) := by
  induction members with
  | nil => exact absurd rfl hne
  | cons m members ih =>
    obtain ⟨k, x⟩ := m
    have hx : Written x (compactChars x) := h (k, x) List.mem_cons_self
    cases members with
    | nil =>
      rw [compactMembers, List.append_assoc]
      exact .last blanks_nil blanks_nil hx blanks_nil
    | cons m members =>
      have hs := ih (fun z hz => h z (List.mem_cons_of_mem _ hz)) (List.cons_ne_nil m members)
      rw [compactMembers]
      simp only [List.append_assoc, List.cons_append]
      exact .cons blanks_nil blanks_nil hx hs

theorem FloatFree.written_compact (h : FloatFree j) : Written j (compactChars j) := by
  induction h with
  | null => exact .null
  | boolean b => cases b with
    | true => exact .true
    | false => exact .false
  | integer n => exact .integer n
  | string s => exact .string s
  | @array items _ ih => cases items with
    | nil => exact .emptyArray
    | cons x items => exact .array (itemsWritten_compact ih (List.cons_ne_nil x items))
  | @object members _ ih => cases members with
    | nil => exact .emptyObject
    | cons m members => exact .object (membersWritten_compact ih (List.cons_ne_nil m members))

theorem itemsWritten_pretty (depth : Nat)
    (h : ∀ x ∈ items, Written x (prettyChars (depth + 1) x)) (hne : items ≠ []) :
    ItemsWritten items (prettyItems depth items ++ newLine depth ++ [']']) := by
  have hdeep := blanks_newLine (depth + 1)
  induction items with
  | nil => exact absurd rfl hne
  | cons x items ih =>
    have hx := h x List.mem_cons_self
    cases items with
    | nil =>
      rw [prettyItems, List.append_assoc, List.append_assoc]
      exact .last hdeep hx (blanks_newLine depth)
    | cons y items =>
      have hs := ih (fun z hz => h z (List.mem_cons_of_mem x hz)) (List.cons_ne_nil y items)
      rw [prettyItems]
      simp only [List.append_assoc, List.cons_append] at hs ⊢
      exact .cons hdeep hx hs

theorem membersWritten_pretty (depth : Nat)
    (h : ∀ m ∈ members, Written m.2 (prettyChars (depth + 1) m.2)) (hne : members ≠ []) :
    MembersWritten members (prettyMembers depth members ++ newLine depth ++ ['}']) := by
  have hdeep := blanks_newLine (depth + 1)
  have hspace : Blanks [' '] := List.forall_mem_singleton.mpr rfl
  induction members with
  | nil => exact absurd rfl hne
  | cons m members ih =>
    obtain ⟨k, x⟩ := m
    have hx : Written x (prettyChars (depth + 1) x) := h (k, x) List.mem_cons_self
    cases members with
    | nil =>
      rw [prettyMembers]
      simp only [List.append_assoc, List.cons_append]
      exact .last hdeep hspace hx (blanks_newLine depth)
    | cons m members =>
      have hs := ih (fun z hz => h z (List.mem_cons_of_mem _ hz)) (List.cons_ne_nil m members)
      rw [prettyMembers]
      simp only [List.append_assoc, List.cons_append] at hs ⊢
      exact .cons hdeep hspace hx hs

theorem FloatFree.written_pretty (h : FloatFree j) (depth : Nat) :
    Written j (prettyChars depth j) := by
  induction h generalizing depth with
  | null => exact .null
  | boolean b => cases b with
    | true => exact .true
    | false => exact .false
  | integer n => exact .integer n
  | string s => exact .string s
  | @array items _ ih => cases items with
    | nil => exact .emptyArray
    | cons x items =>
      exact .array (itemsWritten_pretty depth (fun y hy => ih y hy _) (List.cons_ne_nil x items))
  | @object members _ ih => cases members with
    | nil => exact .emptyObject
    | cons m members =>
      exact .object
        (membersWritten_pretty depth (fun m hm => ih m hm _) (List.cons_ne_nil m members))

theorem FloatFree.read_compact (h : FloatFree j) : read? j.compact.toList = some j := by
  rw [compact, String.toList_ofList]
  exact h.written_compact.read

theorem FloatFree.read_pretty (h : FloatFree j) : read? j.pretty.toList = some j := by
  rw [pretty, String.toList_ofList]
  exact (h.written_pretty 0).read

/-! ### Members and items -/

theorem member?_nil (key : String) : (object []).member? key = none := rfl

theorem member?_cons (key k : String) (x : Json) (members : List (String × Json)) :
    (object ((k, x) :: members)).member? key =
      if key = k then some x else (object members).member? key := by
  rw [member?, List.lookup_cons]
  by_cases hk : key = k
  · rw [if_pos hk, beq_iff_eq.mpr hk]
  · rw [if_neg hk, beq_false_of_ne hk]
    rfl

theorem mapM_map {α β : Type} {f : β → Option α} {g : α → β} {xs : List α}
    (h : ∀ x ∈ xs, f (g x) = some x) : (xs.map g).mapM f = some xs := by
  induction xs with
  | nil => rfl
  | cons x xs ih =>
    obtain ⟨hx, hxs⟩ := List.forall_mem_cons.mp h
    rw [List.map_cons, List.mapM_cons, hx, ih hxs]
    rfl

/-! ### Texts on one line -/

/-- No character is a control character, so that the text is on one line. -/
def OneLine (t : List Char) : Prop := ∀ c ∈ t, 0x20 ≤ c.toNat

theorem oneLine_of_all {t : List Char} (h : t.all (0x20 ≤ ·.toNat) = true) : OneLine t := by
  simpa [OneLine] using h

theorem oneLine_cons {t : List Char} : OneLine (c :: t) ↔ 0x20 ≤ c.toNat ∧ OneLine t :=
  List.forall_mem_cons

theorem oneLine_append {t u : List Char} : OneLine (t ++ u) ↔ OneLine t ∧ OneLine u :=
  List.forall_mem_append

theorem oneLine_escapedChar (c : Char) : OneLine (escapedChar c) := by
  unfold escapedChar
  iterate 7
    split
    · exact oneLine_of_all (by decide)
  split
  case isTrue hc =>
    have hdigit : ∀ n < 16, 0x20 ≤ (Nat.digitChar n).toNat := by decide
    have hhigh := hdigit (c.toNat / 16) (by omega)
    have hlow := hdigit (c.toNat % 16) (by omega)
    exact oneLine_of_all (by simp [hhigh, hlow])
  case isFalse hc => exact List.forall_mem_singleton.mpr (Nat.le_of_not_lt hc)

theorem oneLine_stringText (s : String) : OneLine (stringText s) := by
  have hs : OneLine (s.toList.flatMap escapedChar) := by
    intro c hc
    obtain ⟨d, -, hd⟩ := List.mem_flatMap.mp hc
    exact oneLine_escapedChar d c hd
  exact oneLine_cons.mpr ⟨by decide, oneLine_append.mpr ⟨hs, oneLine_of_all (by decide)⟩⟩

theorem oneLine_integerText (n : Int) : OneLine (integerText n) := by
  have hd : OneLine (Nat.toDigits 10 n.natAbs) := by
    intro c hc
    have := Text.toNat_of_isDigit ((Numeral.isDigits_toDigits _).digit c hc)
    omega
  rw [integerText]
  split
  · exact oneLine_cons.mpr ⟨by decide, hd⟩
  · exact hd

theorem oneLine_compactItems (h : ∀ x ∈ items, OneLine (compactChars x)) :
    OneLine (compactItems items) := by
  induction items with
  | nil => exact nofun
  | cons x items ih =>
    obtain ⟨hx, hs⟩ := List.forall_mem_cons.mp h
    cases items with
    | nil => exact hx
    | cons y items => exact oneLine_append.mpr ⟨hx, oneLine_cons.mpr ⟨by decide, ih hs⟩⟩

theorem oneLine_compactMembers (h : ∀ m ∈ members, OneLine (compactChars m.2)) :
    OneLine (compactMembers members) := by
  induction members with
  | nil => exact nofun
  | cons m members ih =>
    obtain ⟨k, x⟩ := m
    obtain ⟨hx, hs⟩ := List.forall_mem_cons.mp h
    have hk (t : List Char) (ht : OneLine t) : OneLine (stringText k ++ ':' :: t) :=
      oneLine_append.mpr ⟨oneLine_stringText k, oneLine_cons.mpr ⟨by decide, ht⟩⟩
    cases members with
    | nil => exact hk _ hx
    | cons m members =>
      exact hk _ (oneLine_append.mpr ⟨hx, oneLine_cons.mpr ⟨by decide, ih hs⟩⟩)

theorem FloatFree.oneLine_compact (h : FloatFree j) : OneLine j.compact.toList := by
  rw [compact, String.toList_ofList]
  induction h with
  | null => exact oneLine_of_all (by decide)
  | boolean b => cases b <;> exact oneLine_of_all (by decide)
  | integer n => exact oneLine_integerText n
  | string s => exact oneLine_stringText s
  | array _ ih =>
    exact oneLine_cons.mpr ⟨by decide,
      oneLine_append.mpr ⟨oneLine_compactItems ih, oneLine_of_all (by decide)⟩⟩
  | object _ ih =>
    exact oneLine_cons.mpr ⟨by decide,
      oneLine_append.mpr ⟨oneLine_compactMembers ih, oneLine_of_all (by decide)⟩⟩

end

end LuaLite.Json
