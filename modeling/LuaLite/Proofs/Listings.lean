import LuaLite.Chunk.Listing
import LuaLite.Proofs.ChunkJson
import LuaLite.Proofs.FloatTexts
import LuaLite.Proofs.QuotedTexts
import LuaLite.Proofs.Soundness

/-!
# Listings tell chunks apart

A listing has one line for each constant and each instruction, and the chunk that it lists can be
told from it (`Chunk.listing_unambiguous`). This takes constants whose text says which they are, so
neither functions nor floats that are no number (`Value.IsListable`), and instructions that the
constructors make: of other words some bytes are not shown (`Instruction.Built`).
-/

namespace LuaLite

/-! ### Texts of numbers -/

theorem toDigits_injective {m n : Nat} (h : Nat.toDigits 10 m = Nat.toDigits 10 n) : m = n := by
  rw [← Nat.ofDigitChars_ten_toDigits (n := m), h, Nat.ofDigitChars_ten_toDigits]

@[simp] theorem lineFeed_notMem_toDigits (n : Nat) : '\n' ∉ Nat.toDigits 10 n :=
  notMem_toDigits rfl n

theorem toString_nat_injective {m n : Nat} (h : toString m = toString n) : m = n := by
  rw [Nat.toString_eq_ofList_toDigits, Nat.toString_eq_ofList_toDigits, String.ofList_inj] at h
  exact toDigits_injective h

theorem toString_int_injective {y z : ℤ} (h : toString y = toString z) : y = z := by
  rw [← String.toList_inj, toList_toString_int, toList_toString_int] at h
  obtain ⟨hsign, hdigits⟩ := sign_append_inj (head?_toDigits_ne rfl _) (head?_toDigits_ne rfl _) h
  have habs := toDigits_injective hdigits
  rw [decide_eq_decide] at hsign
  omega

/-! ### Constants -/

namespace Value

/-- Constants that are listed as what they are: no functions, and no floats but numbers. -/
def IsListable : Value → Prop
  | .function _ => False
  | .float x => Binary64.magnitude x ≤ Binary64.infinity
  | .nil | .boolean _ | .integer _ | .string _ => True

variable {v w : Value}

theorem eq_of_listed (hv : v.IsListable) (hw : w.IsListable) (ht : v.type = w.type)
    (h : v.listed = w.listed) : v = w := by
  cases v with
  | nil =>
    cases w with
    | nil => rfl
    | _ => cases ht
  | boolean a =>
    cases w with
    | boolean b => cases a <;> cases b <;> first | rfl | exact absurd h (by decide)
    | _ => cases ht
  | integer m =>
    cases w with
    | integer n => rw [Int64.toInt_inj.mp (toString_int_injective h)]
    | _ => cases ht
  | float x =>
    cases w with
    | float y => rw [floatText_injective hv hw h]
    | _ => cases ht
  | string s =>
    cases w with
    | string t => rw [Text.quoted_injective h]
    | _ => cases ht
  | function f => exact hv.elim

end Value

theorem lineFeed_notMem_floatText {x : Binary64} (hx : Binary64.magnitude x ≤ Binary64.infinity) :
    '\n' ∉ (floatText x).toList := by
  have hdigits {ds : List Char} (h : ∀ c ∈ ds, c.isDigit = true) : '\n' ∉ ds := fun hc =>
    absurd (h _ hc) (by decide)
  rw [toList_floatText hx, List.mem_append, not_or]
  constructor
  · split <;> decide
  · rw [unsignedText]
    split
    · decide
    · split
      · simp
      · generalize Decimal.shortest .up (Binary64.magnitude x) = d
        rcases Int.lt_or_le d.exponent 0 with he | he
        · obtain ⟨w, f, hd, hw, hf, -⟩ := Decimal.positional_of_neg he
          simp [hd, hdigits hw.digit, hdigits hf]
        · exact hdigits (Decimal.positional_of_nonneg he).1.digit

theorem lineFeed_notMem_toString_int (z : ℤ) : '\n' ∉ (toString z).toList := by
  rw [toList_toString_int, List.mem_append, not_or]
  refine ⟨?_, lineFeed_notMem_toDigits _⟩
  split <;> decide

theorem Value.IsListable.lineFeed_notMem {v : Value} (h : v.IsListable) :
    '\n' ∉ v.listed.toList := by
  cases v with
  | nil => decide
  | boolean b => cases b <;> decide
  | integer n => exact lineFeed_notMem_toString_int _
  | float x => exact lineFeed_notMem_floatText h
  | string s => exact Text.lineFeed_notMem_quoted s
  | function f => exact h.elim

/-! ### Instructions -/

/-- Two texts of one kind of characters are told apart where something else follows them. -/
theorem append_inj_of_head {p : Char → Bool} {s t r r' : List Char} (hs : ∀ c ∈ s, p c = true)
    (ht : ∀ c ∈ t, p c = true) (hr : ∀ c, r.head? = some c → p c = false)
    (hr' : ∀ c, r'.head? = some c → p c = false) (h : s ++ r = t ++ r') : s = t ∧ r = r' := by
  obtain ⟨htake, hdrop⟩ := takeWhile_append_of_head hs hr
  obtain ⟨htake', hdrop'⟩ := takeWhile_append_of_head ht hr'
  rw [h] at htake hdrop
  exact ⟨htake.symm.trans htake', hdrop.symm.trans hdrop'⟩

/-- The instructions that the constructor of an operation makes. -/
inductive Opcode.Builds : Opcode → Instruction → Prop
  | getGlobal (dst index : UInt8) : Builds .getGlobal (.getGlobal dst index)
  | loadConst (dst index : UInt8) : Builds .loadConst (.loadConst dst index)
  | call (slot count : UInt8) : Builds .call (.call slot count)
  | loadNil (dst : UInt8) : Builds .loadNil (.loadNil dst)
  | loadBool (dst : UInt8) (b : Bool) : Builds .loadBool (.loadBool dst b)
  | loadInt (dst : UInt8) (n : Int16) : Builds .loadInt (.loadInt dst n)
  | move (dst src : UInt8) : Builds .move (.move dst src)

namespace Instruction

/-- One of the constructors makes the instruction. -/
def Built (i : Instruction) : Prop := ∃ o : Opcode, o.Builds i

/-- What is written behind the first register of an operation. -/
def operands (i : Instruction) : String :=
  match i.opcode? with
  | some .getGlobal | some .loadConst => " " ++ constant i.b
  | some .call => " " ++ toString i.b.toNat
  | some .loadBool => " " ++ flag i.b
  | some .loadInt => " " ++ toString i.wide.toInt
  | some .move => " " ++ register i.b
  | some .loadNil | none => ""

variable {i j : Instruction} {o : Opcode}

theorem Sound.built {constants : List Value} (h : i.Sound constants) : i.Built := by
  cases h with
  | loadNil d => exact ⟨_, .loadNil d⟩
  | loadBool d b => exact ⟨_, .loadBool d b⟩
  | loadInt d n => exact ⟨_, .loadInt d n⟩
  | loadConst d hk => exact ⟨_, .loadConst d _⟩
  | getGlobal d hk => exact ⟨_, .getGlobal d _⟩
  | move d s => exact ⟨_, .move d s⟩
  | call s => exact ⟨_, .call s 1⟩

theorem toList_text (h : i.opcode? = some o) : i.text.toList =
    o.name.toList ++ ' ' :: 'R' :: (Nat.toDigits 10 i.a.toNat ++ i.operands.toList) := by
  cases o <;> simp [text, operands, h, Opcode.name, register]

theorem head?_operands (i : Instruction) {c : Char} (hc : i.operands.toList.head? = some c) :
    c = ' ' := by
  unfold operands at hc
  split at hc <;> simp at hc <;> exact hc.symm

end Instruction

namespace Opcode

open Instruction

variable {o o' : Opcode} {i j : Instruction}

theorem Builds.opcode? (h : o.Builds i) : i.opcode? = some o := by
  cases h <;> rfl

theorem space_notMem_name (o : Opcode) : ' ' ∉ o.name.toList := by
  cases o <;> decide

theorem name_injective (h : o.name = o'.name) : o = o' := by
  have ho := ofName?_name o
  rw [h, ofName?_name] at ho
  exact (Option.some.inj ho).symm

theorem Builds.eq_of_operands (hi : o.Builds i) (hj : o.Builds j) (ha : i.a = j.a)
    (h : i.operands = j.operands) : i = j := by
  have cancel {s t u : String} (h : s ++ t = s ++ u) : t = u := (String.append_right_inj s).mp h
  have byte_inj {b b' : UInt8} (h : toString b.toNat = toString b'.toNat) : b = b' :=
    UInt8.toNat_inj.mp (toString_nat_injective h)
  cases hi with
  | getGlobal dst index =>
    cases hj with
    | getGlobal dst' index' =>
      have h : " " ++ constant index = " " ++ constant index' := h
      rw [show dst = dst' from ha, byte_inj (cancel (cancel h))]
  | loadConst dst index =>
    cases hj with
    | loadConst dst' index' =>
      have h : " " ++ constant index = " " ++ constant index' := h
      rw [show dst = dst' from ha, byte_inj (cancel (cancel h))]
  | call slot count =>
    cases hj with
    | call slot' count' =>
      have h : " " ++ toString count.toNat = " " ++ toString count'.toNat := h
      rw [show slot = slot' from ha, byte_inj (cancel h)]
  | loadNil dst =>
    cases hj with
    | loadNil dst' => rw [show dst = dst' from ha]
  | loadBool dst b =>
    cases hj with
    | loadBool dst' b' =>
      have hflag : ∀ b b' : Bool, flag (if b then 1 else 0) = flag (if b' then 1 else 0) →
          b = b' := by
        decide
      have h : " " ++ flag (if b then 1 else 0) = " " ++ flag (if b' then 1 else 0) := h
      rw [show dst = dst' from ha, hflag b b' (cancel h)]
  | loadInt dst n =>
    cases hj with
    | loadInt dst' n' =>
      have h : " " ++ toString (Instruction.loadInt dst n).wide.toInt =
        " " ++ toString (Instruction.loadInt dst' n').wide.toInt := h
      rw [wide_loadInt, wide_loadInt] at h
      rw [show dst = dst' from ha, Int16.toInt_inj.mp (toString_int_injective (cancel h))]
  | move dst src =>
    cases hj with
    | move dst' src' =>
      have h : " " ++ register src = " " ++ register src' := h
      rw [show dst = dst' from ha, byte_inj (cancel (cancel h))]

/-- What is built is known by its text: the name ends at the first space, and the register where its
digits do. -/
theorem Builds.eq_of_text (hi : o.Builds i) (hj : o'.Builds j) (h : i.text = j.text) : i = j := by
  have hname (o : Opcode) : ∀ c ∈ o.name.toList, (c != ' ') = true := fun c hc =>
    bne_iff_ne.mpr fun e => space_notMem_name o (e ▸ hc)
  have hoperands (i : Instruction) (c : Char) (hc : i.operands.toList.head? = some c) :
      c.isDigit = false := by
    rw [head?_operands i hc]
    rfl
  have h := congrArg String.toList h
  rw [toList_text hi.opcode?, toList_text hj.opcode?] at h
  obtain ⟨ho, h⟩ := append_inj_of_head (hname o) (hname o') (by simp) (by simp) h
  obtain ⟨ha, hrest⟩ := append_inj_of_head (Numeral.isDigits_toDigits i.a.toNat).digit
    (Numeral.isDigits_toDigits j.a.toNat).digit (hoperands i) (hoperands j)
    (List.cons.inj (List.cons.inj h).2).2
  obtain rfl : o = o' := name_injective (String.toList_inj.mp ho)
  exact hi.eq_of_operands hj (UInt8.toNat_inj.mp (toDigits_injective ha))
    (String.toList_inj.mp hrest)

end Opcode

theorem Instruction.Built.eq_of_text {i j : Instruction} (hi : i.Built) (hj : j.Built)
    (h : i.text = j.text) : i = j := by
  obtain ⟨_, hi⟩ := hi
  obtain ⟨_, hj⟩ := hj
  exact hi.eq_of_text hj h

theorem Instruction.lineFeed_notMem_operands (i : Instruction) : '\n' ∉ i.operands.toList := by
  have hflag : '\n' ∉ (flag i.b).toList := by
    unfold flag
    iterate 2
      split
      · decide
    simp
  have hwide : '\n' ∉ (toString i.wide.toInt).toList := lineFeed_notMem_toString_int _
  unfold operands
  split <;> simp_all [constant, register]

theorem Instruction.Built.lineFeed_notMem {i : Instruction} (h : i.Built) :
    '\n' ∉ i.text.toList := by
  obtain ⟨o, h⟩ := h
  have hname : '\n' ∉ o.name.toList := by cases o <;> decide
  rw [Instruction.toList_text h.opcode?]
  simp [hname, i.lineFeed_notMem_operands]

/-! ### Lines -/

theorem splitOn_lines {ls : List (List Char)} (h : ∀ l ∈ ls, '\n' ∉ l) :
    (ls.flatMap (· ++ ['\n'])).splitOn '\n' = ls ++ [[]] := by
  induction ls with
  | nil => rfl
  | cons l ls ih =>
    obtain ⟨hl, hls⟩ := List.forall_mem_cons.mp h
    have hl' : ∀ c ∈ l, (c == '\n') = false := fun c hc => beq_false_of_ne fun e => hl (e ▸ hc)
    rw [List.flatMap_cons, List.append_assoc, List.cons_append, List.nil_append, List.splitOn,
      List.splitOnP_append_cons_of_forall_mem hl' '\n' rfl]
    exact congrArg (l :: ·) (ih hls)

theorem eq_of_mapIdx {α β : Type} {f : Nat → α → β} {xs ys : List α}
    (hf : ∀ n, ∀ x ∈ xs, ∀ y ∈ ys, f n x = f n y → x = y) (h : xs.mapIdx f = ys.mapIdx f) :
    xs = ys := by
  have hlength : xs.length = ys.length := by simpa using congrArg List.length h
  refine List.ext_getElem hlength fun n hx hy => ?_
  have h := congrArg (·[n]?) h
  simp only [List.getElem?_mapIdx, List.getElem?_eq_getElem hx, List.getElem?_eq_getElem hy,
    Option.map_some, Option.some.injEq] at h
  exact hf n _ (List.getElem_mem hx) _ (List.getElem_mem hy) h

theorem ValueType.eq_of_column (t t' : ValueType)
    (h : Text.padRight 8 t.name = Text.padRight 8 t'.name) : t = t' := by
  cases t <;> cases t' <;> first | rfl | exact absurd h (by decide)

namespace Chunk

variable {c c' : Chunk} {v w : Value} {i j : Instruction} {n : Nat}

/-- The types stand in a column, which is as wide as the longest of them. -/
theorem eq_of_constantLine (hv : v.IsListable) (hw : w.IsListable)
    (h : constantLine n v = constantLine n w) : v = w := by
  have hwidth (t : ValueType) : (Text.padRight 8 t.name).toList.length = 8 := by
    cases t <;> decide
  simp only [constantLine, String.append_assoc, String.append_right_inj] at h
  rw [← String.toList_inj, String.toList_append, String.toList_append, String.toList_append,
    String.toList_append] at h
  obtain ⟨ht, hl⟩ := List.append_inj h ((hwidth _).trans (hwidth _).symm)
  exact Value.eq_of_listed hv hw (ValueType.eq_of_column _ _ (String.toList_inj.mp ht))
    (String.toList_inj.mp (List.append_cancel_left hl))

theorem eq_of_instructionLine (hi : i.Built) (hj : j.Built)
    (h : instructionLine n i = instructionLine n j) : i = j := by
  simp only [instructionLine, String.append_assoc, String.append_right_inj] at h
  exact hi.eq_of_text hj h

/-- The constants and the instructions are such as a listing tells. -/
structure Listable (c : Chunk) : Prop where
  constants : ∀ v ∈ c.constants, v.IsListable
  code : ∀ i ∈ c.code, i.Built

theorem toList_listing (c : Chunk) :
    c.listing.toList = (c.listingLines.map String.toList).flatMap (· ++ ['\n']) := by
  simp [listing, String.toList_join, List.flatMap_map]

theorem lineFeed_notMem_constantLine (hv : v.IsListable) (n : Nat) :
    '\n' ∉ (constantLine n v).toList := by
  have htype : '\n' ∉ v.type.name.toList := by
    generalize v.type = t
    cases t <;> decide
  simp [constantLine, Text.padRight, htype, hv.lineFeed_notMem]

theorem lineFeed_notMem_instructionLine (hi : i.Built) (pc : Nat) :
    '\n' ∉ (instructionLine pc i).toList := by
  simp [instructionLine, Text.zeroPadded, hi.lineFeed_notMem]

theorem Listable.lineFeed_notMem (h : c.Listable) :
    ∀ l ∈ c.listingLines.map String.toList, '\n' ∉ l := by
  intro l hl
  obtain ⟨line, hline, rfl⟩ := List.mem_map.mp hl
  simp only [listingLines, List.mem_cons, List.mem_append, List.mem_mapIdx] at hline
  rcases hline with rfl | ⟨k, hk, rfl⟩ | rfl | ⟨pc, hpc, rfl⟩
  · simp
  · exact lineFeed_notMem_constantLine (h.constants _ (List.getElem_mem hk)) k
  · simp
  · exact lineFeed_notMem_instructionLine (h.code _ (List.getElem_mem hpc)) pc

theorem Listable.splitOn_listing (h : c.Listable) :
    c.listing.toList.splitOn '\n' = c.listingLines.map String.toList ++ [[]] := by
  rw [toList_listing, splitOn_lines h.lineFeed_notMem]

theorem length_listingLines (c : Chunk) :
    c.listingLines.length = 2 + c.constants.length + c.code.length := by
  simp only [listingLines, List.length_cons, List.length_append, List.length_mapIdx]
  omega

theorem getElem?_listingLines_constant (c : Chunk) {k : Nat} (hk : k < c.constants.length) :
    c.listingLines[1 + k]? = c.constants[k]?.map (constantLine k) := by
  rw [listingLines, Nat.add_comm, List.getElem?_cons_succ, List.getElem?_append_left,
    List.getElem?_mapIdx]
  rwa [List.length_mapIdx]

theorem getElem?_listingLines_code (c : Chunk) (pc : Nat) :
    c.listingLines[2 + c.constants.length + pc]? = c.code[pc]?.map (instructionLine pc) := by
  rw [listingLines, show 2 + c.constants.length + pc = c.constants.length + (pc + 1) + 1 by omega,
    List.getElem?_cons_succ, List.getElem?_append_right, List.length_mapIdx, Nat.add_sub_cancel_left,
    List.getElem?_cons_succ, List.getElem?_mapIdx]
  simp

theorem Listable.eq_of_listing (h : c.Listable) (h' : c'.Listable)
    (he : c.listing = c'.listing) : c = c' := by
  have hlines : c.listingLines = c'.listingLines := by
    have hs := congrArg (fun s => (String.toList s).splitOn '\n') he
    simp only [h.splitOn_listing, h'.splitOn_listing] at hs
    exact List.map_injective_iff.mpr (fun _ _ => String.toList_inj.mp) (List.append_cancel_right hs)
  obtain ⟨hheading, hrest⟩ := List.cons.inj hlines
  have hlength : c.constants.length = c'.constants.length :=
    toString_nat_injective (by simpa using hheading)
  obtain ⟨hconstants, hrest⟩ := List.append_inj hrest (by simpa using hlength)
  have hconstants : c.constants = c'.constants :=
    eq_of_mapIdx (f := constantLine)
      (fun _ v hv w hw => eq_of_constantLine (h.constants v hv) (h'.constants w hw)) hconstants
  have hcode : c.code = c'.code :=
    eq_of_mapIdx (f := instructionLine)
      (fun _ i hi j hj => eq_of_instructionLine (h.code i hi) (h'.code j hj))
      (List.cons.inj hrest).2
  cases c
  cases c'
  rw [Chunk.mk.injEq]
  exact ⟨hconstants, hcode⟩

/-- The lines of a listing are its headings and a line for each constant and each instruction, in
order, and no two chunks have one listing. What is compiled has only instructions that are told apart
by it. -/
theorem listing_unambiguous :
    (∀ c : Chunk, c.Listable →
      c.listing.toList.splitOn '\n' = c.listingLines.map String.toList ++ [[]] ∧
      c.listingLines.length = 2 + c.constants.length + c.code.length ∧
      (∀ k v, c.constants[k]? = some v → c.listingLines[1 + k]? = some (constantLine k v)) ∧
      ∀ pc i, c.code[pc]? = some i →
        c.listingLines[2 + c.constants.length + pc]? = some (instructionLine pc i)) ∧
    (∀ c c' : Chunk, c.Listable → c'.Listable → c.listing = c'.listing → c = c') ∧
    ∀ source n, ∀ c, .ok c ∈ (Compiler.ofSource source).parses n → ∀ i ∈ c.code, i.Built := by
  refine ⟨fun c h => ⟨h.splitOn_listing, c.length_listingLines, fun k v hv => ?_, fun pc i hi => ?_⟩,
    fun c c' h h' => h.eq_of_listing h', fun source n c hc i hi => ?_⟩
  · rw [c.getElem?_listingLines_constant (List.getElem?_eq_some_iff.mp hv).1, hv, Option.map_some]
  · rw [c.getElem?_listingLines_code, hi, Option.map_some]
  · exact ((Compiler.sound_of_mem_parses (c := .ofSource source) (.inl .empty) hc).sound i hi).built

/-- A string that would go on like a listing, numbers that differ in a sign and in a place, and two
operands that are shown as one. -/
theorem listing_unambiguous_lookalike :
    let c : Chunk := ⟨[.string "\"\n  K1   nil      nil\ncode (0):", .float (-0.0), .float 0.0,
      .integer 0], [.loadInt 7 (-1), .loadBool 0 true, .call 0 1]⟩
    c.Listable ∧ (c.listing.toList.splitOn '\n').length = 10 ∧
      ∀ c' : Chunk, c'.Listable → c'.listing = c.listing → c' = c := by
  intro c
  have hc : c.Listable := by
    constructor
    · have hzeros : Value.IsListable (.float (-0.0)) ∧ Value.IsListable (.float 0.0) := by
        constructor <;> (show Binary64.magnitude _ ≤ _; decide +kernel)
      simp only [c, List.forall_mem_cons]
      exact ⟨trivial, hzeros.1, hzeros.2, trivial, nofun⟩
    · simp only [c, List.forall_mem_cons]
      exact ⟨⟨_, .loadInt 7 (-1)⟩, ⟨_, .loadBool 0 true⟩, ⟨_, .call 0 1⟩, nofun⟩
  obtain ⟨hlines, hinj, -⟩ := listing_unambiguous
  obtain ⟨hsplit, hlength, -⟩ := hlines c hc
  refine ⟨hc, ?_, fun c' hc' h => hinj c' c hc' hc h⟩
  rw [hsplit, List.length_append, List.length_map, hlength]
  rfl

end Chunk

end LuaLite
