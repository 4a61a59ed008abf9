import LuaLite.Proofs.Pieces

/-!
# A lexeme depends on one character behind it

The scanner looks no further than the first character behind a lexeme, and a line feed ends a lexeme
as the end of the source does: the lexeme stays the same where what follows is replaced by something
`Alike` (`Lexeme.scan_alike`). A comment is the exception, since it takes the line feed. So what is
read of a source stays the same where a line feed and more are put behind it (`Lexer.next_extend`).
-/

namespace LuaLite

/-- Both start with the same character; or the first is empty and the second starts with a line
feed. -/
def Alike (r r' : List Char) : Prop :=
  r'.head? = r.head? ∨ r = [] ∧ r'.head? = some '\n'

namespace Alike

variable {r r' : List Char} {p : Char → Bool}

theorem newline (s : List Char) : Alike [] ('\n' :: s) :=
  .inr ⟨rfl, rfl⟩

theorem head_fails (h : Alike r r') (hn : p '\n' = false)
    (hr : ∀ c, r.head? = some c → p c = false) : ∀ c, r'.head? = some c → p c = false := by
  intro c hc
  rcases h with h | ⟨-, h⟩
  · exact hr c (h ▸ hc)
  · rw [hc] at h
    cases h
    exact hn

theorem head_append (h : Alike r r') {t : List Char} {c : Char} (hc : c ≠ '\n')
    (ht : (t ++ r').head? = some c) : (t ++ r).head? = some c := by
  cases t with
  | nil =>
    rcases h with h | ⟨-, h⟩
    · exact h ▸ ht
    · rw [List.nil_append, h] at ht
      exact absurd (Option.some.inj ht).symm hc
  | cons d t => exact ht

end Alike

theorem takeWhile_append_of_head {p : Char → Bool} {t r : List Char} (ht : ∀ c ∈ t, p c = true)
    (hr : ∀ c, r.head? = some c → p c = false) :
    (t ++ r).takeWhile p = t ∧ (t ++ r).dropWhile p = r := by
  induction t with
  | nil =>
    cases r with
    | nil => simp
    | cons c r => simp [hr c rfl]
  | cons c t ih =>
    have hc : p c = true := ht c List.mem_cons_self
    have := ih fun d hd => ht d (List.mem_cons_of_mem c hd)
    simp [hc, this.1, this.2]

theorem head_fails_dropWhile (p : Char → Bool) (cs : List Char) :
    ∀ c, (cs.dropWhile p).head? = some c → p c = false := by
  intro c hc
  have := List.head?_dropWhile_not p cs
  rwa [hc] at this

theorem Alike.takeWhile {p : Char → Bool} {cs r' : List Char} (hn : p '\n' = false)
    (h : Alike (cs.dropWhile p) r') :
    (cs.takeWhile p ++ r').takeWhile p = cs.takeWhile p ∧
      (cs.takeWhile p ++ r').dropWhile p = r' :=
  takeWhile_append_of_head (fun _ hc => List.mem_takeWhile_imp hc)
    (h.head_fails hn (head_fails_dropWhile p cs))

/-! ### Symbols -/

namespace Symbol

theorem exists_chars_eq_take (s : Symbol) {n : Nat} (hn : 0 < n) :
    ∃ s' : Symbol, s'.chars = s.chars.take n := by
  have hall : ∀ s ∈ all, s.chars.length ≤ 3 ∧
      ∀ k ∈ [1, 2, 3], ∃ s' ∈ all, s'.chars = s.chars.take k := by
    decide
  obtain ⟨hlen, hk⟩ := hall s (mem_all s)
  by_cases h : n ≤ 3
  · obtain ⟨s', -, hs'⟩ := hk n (by simp; omega)
    exact ⟨s', hs'⟩
  · exact ⟨s, (List.take_of_length_le (by omega)).symm⟩

theorem newline_not_mem_chars (s : Symbol) : '\n' ∉ s.chars := by
  have hall : ∀ s ∈ all, '\n' ∉ s.chars := by decide
  exact hall s (mem_all s)

theorem chars_injective {s s' : Symbol} (h : s.chars = s'.chars) : s = s' := by
  have hall : ∀ s ∈ all, ∀ s' ∈ all, s.chars = s'.chars → s = s' := by decide
  exact hall s (mem_all s) s' (mem_all s') h

theorem chars_prefix_of_longest? {cs : List Char} {s : Symbol} (h : longest? cs = some s) :
    s.chars <+: cs := by
  have hp := List.find?_some h
  exact List.isPrefixOf_iff_prefix.mp hp

theorem longest?_eq_some_iff {cs : List Char} {s : Symbol} :
    longest? cs = some s ↔
      s.chars <+: cs ∧ ∀ s' : Symbol, s'.chars <+: cs → s'.chars.length ≤ s.chars.length := by
  constructor
  · intro h
    exact ⟨chars_prefix_of_longest? h, fun s' => length_le_of_longest? h⟩
  · rintro ⟨hs, hmax⟩
    have hsome : (longest? cs).isSome := by
      rw [longest?, List.find?_isSome]
      exact ⟨s, mem_all s, List.isPrefixOf_iff_prefix.mpr hs⟩
    obtain ⟨s', h⟩ := Option.isSome_iff_exists.mp hsome
    have hs' := chars_prefix_of_longest? h
    have hlen : s'.chars.length = s.chars.length :=
      Nat.le_antisymm (hmax s' hs') (length_le_of_longest? h hs)
    rw [h, chars_injective ((List.prefix_of_prefix_length_le hs' hs hlen.le).eq_of_length hlen)]

theorem longest?_eq_none_iff {cs : List Char} :
    longest? cs = none ↔ ∀ s : Symbol, ¬ s.chars <+: cs := by
  rw [longest?, List.find?_eq_none]
  constructor
  · intro h s hs
    exact h s (mem_all s) (List.isPrefixOf_iff_prefix.mpr hs)
  · intro h s _ hs
    exact h s (List.isPrefixOf_iff_prefix.mp hs)

/-- A symbol that goes beyond `t` into `r'` shows that one goes beyond `t` into `r`. -/
theorem exists_longer {t r r' : List Char} (h : Alike r r') {s : Symbol} (hs : s.chars <+: t ++ r')
    (hlt : t.length < s.chars.length) : ∃ s' : Symbol, s'.chars <+: t ++ r ∧
      s'.chars.length = t.length + 1 := by
  obtain ⟨u, hu⟩ : t <+: s.chars :=
    List.prefix_of_prefix_length_le (List.prefix_append t r') hs hlt.le
  rw [← hu, List.prefix_append_right_inj] at hs
  cases u with
  | nil => simp [← hu] at hlt
  | cons d u =>
    obtain ⟨v, rfl⟩ := hs
    rcases h with h | ⟨-, h⟩
    · obtain ⟨s', hs'⟩ := s.exists_chars_eq_take (n := t.length + 1) (Nat.succ_pos _)
      have ht : s'.chars = t ++ [d] := by
        rw [hs', ← hu, List.take_length_add_append]
        rfl
      obtain ⟨r, rfl⟩ := List.head?_eq_some_iff.mp h.symm
      refine ⟨s', ?_, by simp [ht]⟩
      rw [ht]
      exact (List.prefix_append_right_inj t).mpr ⟨r, rfl⟩
    · cases h
      exact absurd (hu ▸ by simp) s.newline_not_mem_chars

end Symbol

/-! ### Lexemes -/

namespace Numeral

variable {isDigit isMark : Char → Bool}

theorem span_alike (hd : isDigit '\n' = false) (hm : isMark '\n' = false) {afterMark : Bool}
    {t r r' : List Char} (h : span isDigit isMark afterMark (t ++ r) = (t, r)) (hr : Alike r r') :
    span isDigit isMark afterMark (t ++ r') = (t, r') := by
  induction t generalizing afterMark with
  | nil =>
    cases r' with
    | nil => rfl
    | cons d r' =>
      have hd' : (isDigit d || d == '.' || isMark d || (afterMark && isSign d)) = false := by
        rcases hr with hr | ⟨-, hr⟩
        · obtain ⟨r, rfl⟩ := List.head?_eq_some_iff.mp hr.symm
          rw [List.nil_append, span] at h
          split at h
          · cases h
          · rename_i hd
            exact Bool.eq_false_iff.mpr hd
        · cases hr
          rw [hd, hm, show ('\n' == '.') = false from rfl, show isSign '\n' = false from rfl,
            Bool.and_false]
          rfl
      rw [List.nil_append, span, hd']
      rfl
  | cons c t ih =>
    rw [List.cons_append, span] at h ⊢
    split at h
    · rename_i hc
      rw [if_pos hc]
      simp only [Prod.mk.injEq, List.cons.injEq, true_and] at h ⊢
      have ht : span isDigit isMark (isMark c) (t ++ r) = (t, r) := Prod.ext h.1 h.2
      simp [ih ht]
    · cases h

end Numeral

namespace Lexeme

variable {c : Char} {t r r' : List Char} {o : Except LexFault Token}

theorem word_alike (h : word c (t ++ r) = ⟨o, c :: t, r⟩) (hr : Alike r r') :
    word c (t ++ r') = ⟨o, c :: t, r'⟩ := by
  simp only [word, mk.injEq, List.cons.injEq, true_and] at h ⊢
  obtain ⟨ho, ht, hrest⟩ := h
  rw [← hrest] at hr
  have hw := hr.takeWhile rfl
  rw [ht] at hw ho
  rw [hw.1, hw.2]
  exact ⟨ho, rfl, rfl⟩

theorem string_alike (hq : c ≠ '\n') (h : string c (t ++ r) = ⟨o, c :: t, r⟩) (hr : Alike r r') :
    string c (t ++ r') = ⟨o, c :: t, r'⟩ := by
  have hi : ∀ d ∈ (t ++ r).takeWhile (fun d => d != c && d != '\n'),
      (d != c && d != '\n') = true := by
    intro d hd
    exact List.mem_takeWhile_imp (p := fun d => d != c && d != '\n') hd
  have ha := List.takeWhile_append_dropWhile (p := fun d => d != c && d != '\n') (l := t ++ r)
  have hf := head_fails_dropWhile (fun d => d != c && d != '\n') (t ++ r)
  simp only [string] at h
  generalize (t ++ r).takeWhile (fun d => d != c && d != '\n') = u at h hi ha
  split at h
  · rename_i d rest hd
    rw [hd] at ha hf
    split at h
    · -- The string is closed, so what follows does not matter.
      rename_i hdc
      subst hdc
      simp only [mk.injEq, List.cons.injEq, true_and] at h
      obtain ⟨rfl, rfl, rfl⟩ := h
      have hw : (u ++ d :: r').takeWhile (fun x => x != d && x != '\n') = u ∧
          (u ++ d :: r').dropWhile (fun x => x != d && x != '\n') = d :: r' :=
        takeWhile_append_of_head hi fun x hx => by cases hx; simp
      rw [List.append_assoc, List.singleton_append, string, hw.1, hw.2]
      simp
    · rename_i hdc
      simp only [mk.injEq, List.cons.injEq, true_and] at h
      obtain ⟨rfl, rfl, rfl⟩ := h
      have hr' := hr.head_fails (p := fun d => d != c && d != '\n') (by simp) hf
      have hw := takeWhile_append_of_head hi hr'
      rw [string, hw.1, hw.2]
      obtain ⟨r', rfl⟩ : ∃ r'', r' = d :: r'' := by
        rcases hr with hr | ⟨hr, -⟩
        · exact List.head?_eq_some_iff.mp hr
        · cases hr
      simp [hdc]
  · rename_i hd
    simp only [mk.injEq, List.cons.injEq, true_and] at h
    obtain ⟨rfl, rfl, rfl⟩ := h
    have hr' := hr.head_fails (p := fun d => d != c && d != '\n') (by simp) fun x hx => by cases hx
    have hw := takeWhile_append_of_head hi hr'
    rw [string, hw.1, hw.2]
    rcases hr with hr | ⟨-, hr⟩
    · rw [List.head?_nil, List.head?_eq_none_iff] at hr
      rw [hr]
    · obtain ⟨r', rfl⟩ := List.head?_eq_some_iff.mp hr
      simp [hq.symm]

theorem decimal_alike (h : decimal (t ++ r) = ⟨o, t, r⟩) (hr : Alike r r') :
    decimal (t ++ r') = ⟨o, t, r'⟩ := by
  simp only [decimal, Numeral.spanDecimal, mk.injEq] at h ⊢
  obtain ⟨ho, ht, hrest⟩ := h
  have hs := Numeral.span_alike rfl rfl (Prod.ext ht hrest) hr
  rw [ht] at ho
  rw [hs]
  exact ⟨ho, rfl, rfl⟩

theorem hexadecimal_alike {x : Char} (h : hexadecimal x (t ++ r) = ⟨o, '0' :: x :: t, r⟩)
    (hr : Alike r r') : hexadecimal x (t ++ r') = ⟨o, '0' :: x :: t, r'⟩ := by
  simp only [hexadecimal, Numeral.spanHex, mk.injEq, List.cons.injEq, true_and] at h ⊢
  obtain ⟨ho, ht, hrest⟩ := h
  have hs := Numeral.span_alike rfl rfl (Prod.ext ht hrest) hr
  rw [ht] at ho
  rw [hs]
  exact ⟨ho, rfl, rfl⟩

theorem symbol_alike (h : symbol c (t ++ r) = ⟨o, c :: t, r⟩) (hr : Alike r r') :
    symbol c (t ++ r') = ⟨o, c :: t, r'⟩ := by
  unfold symbol at h ⊢
  rw [← List.cons_append] at h ⊢
  split at h
  · rename_i s hs
    simp only [mk.injEq] at h
    obtain ⟨rfl, ht, -⟩ := h
    rw [← ht] at hs ⊢
    have hs' : Symbol.longest? (s.chars ++ r') = some s := by
      refine Symbol.longest?_eq_some_iff.mpr ⟨List.prefix_append _ _, fun s' hs' => ?_⟩
      by_contra hlt
      obtain ⟨s'', h'', hlen⟩ := Symbol.exists_longer hr hs' (Nat.lt_of_not_le hlt)
      have := Symbol.length_le_of_longest? hs h''
      omega
    rw [hs']
    dsimp only
    rw [List.drop_left]
  · rename_i hs
    simp only [mk.injEq, List.cons.injEq, true_and] at h
    obtain ⟨rfl, rfl, -⟩ := h
    have hs' : Symbol.longest? ([c] ++ r') = none := by
      rw [Symbol.longest?_eq_none_iff] at hs ⊢
      intro s hp
      obtain ⟨s', h'⟩ := s.exists_chars_eq_take (n := 1) Nat.one_pos
      refine hs s' ?_
      cases hc : s.chars with
      | nil => exact absurd hc s.chars_ne_nil
      | cons d u =>
        rw [hc] at hp h'
        rw [h', (List.cons_prefix_cons.mp hp).1]
        exact List.prefix_append [c] r
    rw [hs']
    rfl

theorem numeral_of_isHexStart {x : Char} {cs : List Char} (hx : x = 'x' ∨ x = 'X') :
    numeral '0' (x :: cs) = hexadecimal x cs := by
  rw [numeral, if_pos ⟨rfl, hx⟩]

theorem numeral_of_not_isHexStart {cs : List Char} (hx : ¬ Numeral.IsHexStart (c :: cs)) :
    numeral c cs = decimal (c :: cs) := by
  unfold numeral
  split
  · rename_i x cs
    rw [if_neg]
    rintro ⟨rfl, h⟩
    exact hx ⟨x, cs, rfl, h⟩
  · rfl

theorem numeral_alike (h : numeral c (t ++ r) = ⟨o, c :: t, r⟩) (hr : Alike r r') :
    numeral c (t ++ r') = ⟨o, c :: t, r'⟩ := by
  by_cases hx : Numeral.IsHexStart (c :: (t ++ r))
  · obtain ⟨x, cs, e, hx⟩ := hx
    simp only [List.cons.injEq] at e
    obtain ⟨rfl, e⟩ := e
    rw [e, numeral_of_isHexStart hx] at h
    obtain ⟨d, rfl⟩ : ∃ d, t = x :: d := by
      have ht := congrArg text h
      simp only [hexadecimal, List.cons.injEq, true_and] at ht
      exact ⟨_, ht.symm⟩
    simp only [List.cons_append, List.cons.injEq, true_and] at e
    rw [← e] at h
    rw [List.cons_append, numeral_of_isHexStart hx]
    exact hexadecimal_alike h hr
  · have hx' : ¬ Numeral.IsHexStart (c :: (t ++ r')) := by
      rintro ⟨x, cs, e, hx'⟩
      simp only [List.cons.injEq] at e
      have hne : x ≠ '\n' := by rcases hx' with rfl | rfl <;> decide
      have hh := hr.head_append hne (t := t) (by rw [e.2]; rfl)
      obtain ⟨cs', e'⟩ := List.head?_eq_some_iff.mp hh
      exact hx ⟨x, cs', by rw [e.1, e'], hx'⟩
    rw [numeral_of_not_isHexStart hx, ← List.cons_append] at h
    rw [numeral_of_not_isHexStart hx', ← List.cons_append]
    exact decimal_alike h hr

/-! ### Comments -/

theorem lineEnd_append_of_head {e : List Char} (h : lineEnd (e ++ r) = (e, r))
    (hr : r'.head? = r.head?) : lineEnd (e ++ r') = (e, r') := by
  unfold lineEnd at h
  split at h
  · cases h
    rfl
  · rename_i cs hne _
    cases h
    cases r' with
    | nil => rfl
    | cons d r' =>
      have hd : d ≠ '\n' := by
        rintro rfl
        obtain ⟨u, rfl⟩ := List.head?_eq_some_iff.mp hr.symm
        exact hne u rfl
      simp [lineEnd, hd]
  · cases h
    rfl
  · rename_i hcr hlf
    cases h
    cases r' with
    | nil => rfl
    | cons d r' =>
      obtain ⟨u, rfl⟩ := List.head?_eq_some_iff.mp hr.symm
      have hd : d ≠ '\r' := fun hd => hcr u (by rw [hd]; rfl)
      have hd' : d ≠ '\n' := fun hd => hlf u (by rw [hd]; rfl)
      simp [lineEnd, hd, hd']

theorem comment_append_eq {u e : List Char} (hu : ∀ d ∈ u, d ≠ '\r' ∧ d ≠ '\n')
    (he : ∀ d, (e ++ r).head? = some d → d = '\r' ∨ d = '\n')
    (hl : lineEnd (e ++ r) = (e, r)) :
    comment (u ++ (e ++ r)) =
      ⟨.ok (.comment (String.ofList u)), '-' :: '-' :: (u ++ e), r⟩ := by
  have hw : (u ++ (e ++ r)).takeWhile (fun d => d != '\r' && d != '\n') = u ∧
      (u ++ (e ++ r)).dropWhile (fun d => d != '\r' && d != '\n') = e ++ r := by
    refine takeWhile_append_of_head (fun d hd => ?_) (fun d hd => ?_)
    · simpa using hu d hd
    · rcases he d hd with rfl | rfl <;> rfl
  rw [comment, hw.1, hw.2, hl]

theorem exists_comment_eq (cs : List Char) : ∃ u e r, cs = u ++ (e ++ r) ∧
    (∀ d ∈ u, d ≠ '\r' ∧ d ≠ '\n') ∧ (∀ d, (e ++ r).head? = some d → d = '\r' ∨ d = '\n') ∧
    lineEnd (e ++ r) = (e, r) := by
  have ha := List.takeWhile_append_dropWhile (p := fun d => d != '\r' && d != '\n') (l := cs)
  have hf := head_fails_dropWhile (fun d => d != '\r' && d != '\n') cs
  have hl := lineEnd_append (cs.dropWhile fun d => d != '\r' && d != '\n')
  refine ⟨_, _, _, (hl.symm ▸ ha).symm, fun d hd => ?_, fun d hd => ?_, ?_⟩
  · simpa using List.mem_takeWhile_imp (p := fun d => d != '\r' && d != '\n') hd
  · rw [hl] at hd
    have := hf d hd
    simpa [or_iff_not_imp_left] using this
  · rw [hl]

theorem comment_alike (h : comment (t ++ r) = ⟨o, '-' :: '-' :: t, r⟩) (hr : r'.head? = r.head?) :
    comment (t ++ r') = ⟨o, '-' :: '-' :: t, r'⟩ := by
  obtain ⟨u, e, r₀, ha, hu, he, hl⟩ := exists_comment_eq (t ++ r)
  rw [ha, comment_append_eq hu he hl] at h
  simp only [mk.injEq, List.cons.injEq, true_and] at h
  obtain ⟨rfl, rfl, rfl⟩ := h
  have he' : ∀ d, (e ++ r').head? = some d → d = '\r' ∨ d = '\n' := by
    intro d hd
    refine he d ?_
    cases e with
    | nil => exact hr ▸ hd
    | cons c e => exact hd
  rw [List.append_assoc]
  exact comment_append_eq hu he' (lineEnd_append_of_head hl hr)

/-- A comment at the end of the source takes a line feed that is put behind it, unless it has one
already. -/
theorem comment_newline (h : comment t = ⟨o, '-' :: '-' :: t, []⟩) (s : List Char) :
    comment (t ++ '\n' :: s) = ⟨o, '-' :: '-' :: t, '\n' :: s⟩ ∨
      comment (t ++ '\n' :: s) = ⟨o, '-' :: '-' :: (t ++ ['\n']), s⟩ := by
  obtain ⟨u, e, r₀, ha, hu, he, hl⟩ := exists_comment_eq t
  rw [ha, comment_append_eq hu he hl] at h
  simp only [mk.injEq, List.cons.injEq, true_and] at h
  obtain ⟨rfl, -, rfl⟩ := h
  rw [List.append_nil] at ha hl
  subst ha
  have key : ∀ e' r', e' ++ r' = e ++ '\n' :: s → lineEnd (e' ++ r') = (e', r') →
      comment (u ++ e ++ '\n' :: s) =
        ⟨.ok (.comment (String.ofList u)), '-' :: '-' :: (u ++ e'), r'⟩ := by
    intro e' r' ha' hl'
    have he' : ∀ d, (e' ++ r').head? = some d → d = '\r' ∨ d = '\n' := by
      intro d hd
      rw [ha'] at hd
      cases e with
      | nil => exact .inr (Option.some.inj hd).symm
      | cons c e => exact he d hd
    rw [List.append_assoc, ← ha', comment_append_eq hu he' hl']
  unfold lineEnd at hl
  split at hl <;> cases hl
  · exact .inl (key ['\r', '\n'] _ rfl rfl)
  · exact .inr (by simpa using key ['\r', '\n'] s rfl rfl)
  · exact .inl (key ['\n'] _ rfl rfl)
  · exact .inr (by simpa using key ['\n'] s rfl rfl)

/-! ### The scanner -/

theorem scan_dashes (cs : List Char) : scan '-' ('-' :: cs) = comment cs := rfl

theorem scan_eq_comment {cs : List Char} {u : String}
    (h : (scan c cs).outcome = .ok (.comment u)) : ∃ r, c = '-' ∧ cs = '-' :: r := by
  have hread := readFrom_of_scan h
  have ha := scan_append c cs
  generalize (scan c cs).text = w at hread ha
  cases hread
  simp only [List.cons_append, List.cons.injEq] at ha
  exact ⟨_, ha.1.symm, ha.2.symm⟩

section

variable {cs : List Char}

theorem scan_of_quote (hq : c = '"' ∨ c = '\'') : scan c cs = string c cs :=
  if_pos hq

theorem scan_of_digit (hd : c.isDigit = true) : scan c cs = numeral c cs := by
  have hq : ¬ (c = '"' ∨ c = '\'') := by
    rintro (rfl | rfl) <;> exact absurd hd (by decide)
  unfold scan
  rw [if_neg hq, if_pos hd]

theorem scan_of_nameStart (hn : Text.isNameStart c = true) : scan c cs = word c cs := by
  have hq : ¬ (c = '"' ∨ c = '\'') := by
    rintro (rfl | rfl) <;> exact absurd hn (by decide)
  unfold scan
  rw [if_neg hq, if_neg (Text.not_isDigit_of_isNameStart hn), if_pos hn]

theorem scan_of_not_dashes (hq : ¬ (c = '"' ∨ c = '\'')) (hd : ¬ c.isDigit = true)
    (hn : ¬ Text.isNameStart c = true) (hc : ¬ (c = '-' ∧ cs.head? = some '-')) :
    scan c cs = symbol c cs := by
  unfold scan
  rw [if_neg hq, if_neg hd, if_neg hn]
  split
  · exact absurd ⟨rfl, rfl⟩ hc
  · rfl

end

/-- What is scanned does not change where what follows is replaced by something alike. -/
theorem scan_alike (h : scan c (t ++ r) = ⟨o, c :: t, r⟩) (hr : Alike r r')
    (hc : (∃ u, o = .ok (.comment u)) → r'.head? = r.head?) :
    scan c (t ++ r') = ⟨o, c :: t, r'⟩ := by
  by_cases hq : c = '"' ∨ c = '\''
  · rw [scan_of_quote hq] at h ⊢
    exact string_alike (by rcases hq with rfl | rfl <;> decide) h hr
  by_cases hd : c.isDigit = true
  · rw [scan_of_digit hd] at h ⊢
    exact numeral_alike h hr
  by_cases hn : Text.isNameStart c = true
  · rw [scan_of_nameStart hn] at h ⊢
    exact word_alike h hr
  by_cases hdash : c = '-' ∧ (t ++ r).head? = some '-'
  · obtain ⟨rfl, hh⟩ := hdash
    obtain ⟨cs, e⟩ := List.head?_eq_some_iff.mp hh
    rw [e, scan_dashes] at h
    have hcomment := hc ⟨_, (congrArg outcome h).symm⟩
    obtain ⟨v, rfl⟩ : ∃ v, t = '-' :: v := by
      have ht := congrArg text h
      simp only [comment, List.cons.injEq, true_and] at ht
      exact ⟨_, ht.symm⟩
    simp only [List.cons_append, List.cons.injEq, true_and] at e
    rw [← e] at h
    rw [List.cons_append, scan_dashes]
    exact comment_alike h hcomment
  · have hdash' : ¬ (c = '-' ∧ (t ++ r').head? = some '-') := by
      rintro ⟨hc', hh⟩
      exact hdash ⟨hc', hr.head_append (by decide) hh⟩
    rw [scan_of_not_dashes hq hd hn hdash] at h
    rw [scan_of_not_dashes hq hd hn hdash']
    exact symbol_alike h hr

theorem exists_scan_eq (c : Char) (cs : List Char) :
    ∃ o t r, cs = t ++ r ∧ scan c cs = ⟨o, c :: t, r⟩ := by
  have ha := scan_append c cs
  have hne := scan_text_ne_nil c cs
  rcases hx : scan c cs with ⟨o, w, r⟩
  rw [hx] at ha hne
  cases w with
  | nil => exact absurd rfl hne
  | cons d t =>
    simp only [List.cons_append, List.cons.injEq] at ha
    obtain ⟨rfl, rfl⟩ := ha
    exact ⟨o, t, r, rfl, rfl⟩

/-- A line feed and more behind the source change nothing, but that a comment at the end may take
the line feed. -/
theorem scan_newline (c : Char) (cs s : List Char) :
    scan c (cs ++ '\n' :: s) = { scan c cs with rest := (scan c cs).rest ++ '\n' :: s } ∨
      ∃ u, scan c cs = ⟨.ok (.comment u), (scan c cs).text, []⟩ ∧
        scan c (cs ++ '\n' :: s) = ⟨.ok (.comment u), (scan c cs).text ++ ['\n'], s⟩ := by
  obtain ⟨o, t, r, rfl, h⟩ := exists_scan_eq c cs
  rw [h, List.append_assoc]
  cases r with
  | cons d r =>
    have hh : (d :: r ++ '\n' :: s).head? = (d :: r).head? := rfl
    exact .inl (scan_alike h (.inl hh) fun _ => hh)
  | nil =>
    by_cases hc : ∃ u, o = .ok (.comment u)
    · obtain ⟨u, rfl⟩ := hc
      obtain ⟨v, rfl, e⟩ := scan_eq_comment (congrArg outcome h)
      rw [List.append_nil] at e h
      subst e
      rw [scan_dashes] at h
      rw [List.nil_append, List.cons_append, scan_dashes]
      exact (comment_newline h s).imp_right fun hs => ⟨u, rfl, hs⟩
    · exact .inl (scan_alike h (.newline s) fun hu => absurd hu hc)

end Lexeme

namespace Lexer

variable {l : Lexer} {t : Token}

theorem next_of_rest {b cs : List Char} {c : Char} (hb : IsBlank b) (hc : Text.isBlank c = false)
    (hr : l.rest = b ++ c :: cs) :
    l.next = (((Lexeme.scan c cs).outcome.map some).mapError
        (⟨l.cursor.after (b ++ (Lexeme.scan c cs).text), ·⟩),
      ⟨(Lexeme.scan c cs).rest, l.cursor.after (b ++ (Lexeme.scan c cs).text)⟩) := by
  have hw := takeWhile_append_of_head (r := c :: cs) hb fun d hd => by
    cases hd
    exact hc
  simp only [next, hr, hw.1, hw.2, Cursor.after_append]
  cases (Lexeme.scan c cs).outcome <;> rfl

theorem exists_scan_of_next {k : Lexer} (h : l.next = (.ok (some t), k)) :
    ∃ b c cs, IsBlank b ∧ Text.isBlank c = false ∧ l.rest = b ++ c :: cs ∧
      (Lexeme.scan c cs).outcome = .ok t ∧
      k = ⟨(Lexeme.scan c cs).rest, l.cursor.after (b ++ (Lexeme.scan c cs).text)⟩ := by
  rcases next_cases l with ⟨-, hn⟩ | ⟨b, c, cs, hb, hc, hr, h₁, h₂⟩
  · rw [hn] at h
    cases h
  · rw [h] at h₁ h₂
    refine ⟨b, c, cs, hb, hc, hr, ?_, h₂⟩
    cases ho : (Lexeme.scan c cs).outcome with
    | error f => rw [ho] at h₁; cases h₁
    | ok t' => rw [ho] at h₁; cases h₁; rfl

theorem exists_scan_of_next_error {e : LexError} {k : Lexer} (h : l.next = (.error e, k)) :
    ∃ b c cs, IsBlank b ∧ Text.isBlank c = false ∧ l.rest = b ++ c :: cs ∧
      (Lexeme.scan c cs).outcome = .error e.fault ∧ e.cursor = k.cursor ∧
      k = ⟨(Lexeme.scan c cs).rest, l.cursor.after (b ++ (Lexeme.scan c cs).text)⟩ := by
  rcases next_cases l with ⟨-, hn⟩ | ⟨b, c, cs, hb, hc, hr, h₁, h₂⟩
  · rw [hn] at h
    cases h
  · rw [h] at h₁ h₂
    dsimp only at h₂
    subst h₂
    cases ho : (Lexeme.scan c cs).outcome with
    | error f =>
      rw [ho] at h₁
      cases h₁
      exact ⟨b, c, cs, hb, hc, hr, ho, rfl, rfl⟩
    | ok t => rw [ho] at h₁; cases h₁

/-- The lexer of the text with a line feed and `s` behind it. -/
def extend (l : Lexer) (s : List Char) : Lexer := { l with rest := l.rest ++ '\n' :: s }

@[simp] theorem rest_extend (l : Lexer) (s : List Char) :
    (l.extend s).rest = l.rest ++ '\n' :: s := rfl

theorem ofSource_newline (s₁ s₂ : String) :
    ofSource (s₁ ++ "\n" ++ s₂) = (ofSource s₁).extend s₂.toList := by
  simp [ofSource, extend, String.toList_append]

/-- What is read stays the same where a line feed and more stand behind the source; only a comment
at the end takes the line feed. -/
theorem next_extend (h : l.next.1 ≠ .ok none) (s : List Char) :
    (l.extend s).next = (l.next.1, l.next.2.extend s) ∨
      l.next.2.rest = [] ∧ (l.extend s).next = (l.next.1, ⟨s, l.next.2.cursor.advance '\n'⟩) := by
  rcases next_cases l with ⟨-, hn⟩ | ⟨b, c, cs, hb, hc, hr, -⟩
  · exact absurd (congrArg Prod.fst hn) h
  have hr' : (l.extend s).rest = b ++ c :: (cs ++ '\n' :: s) := by rw [rest_extend, hr]; simp
  rw [next_of_rest hb hc hr, next_of_rest hb hc hr']
  rcases Lexeme.scan_newline c cs s with hs | ⟨u, hu, hs⟩
  · rw [hs]
    exact .inl rfl
  · rw [hs, hu]
    refine .inr ⟨rfl, ?_⟩
    rw [← List.append_assoc, Cursor.after_append]
    rfl

end Lexer

end LuaLite
