import LuaLite.Lexer
import LuaLite.Statement

/-!
# What a source reads as

`Lexer.Reads l ts l'` says that calls of `Lexer.next` yield the tokens `ts` one after the other.
Tokens spell one list of statements at most (`Statement.ListSpelled.unique`), so a source reads as
one list of statements, if it reads as any.
-/

namespace LuaLite

theorem eq_ok_of_toOption {ε α : Type} {x : Except ε α} {a : α} (h : x.toOption = some a) :
    x = .ok a := by
  cases x with
  | error e => cases h
  | ok b => rw [Option.some.inj h]

theorem eq_error_of_error? {ε α : Type} {x : Except ε α} {e : ε}
    (h : (match x with | .error e => some e | .ok _ => none) = some e) : x = .error e := by
  cases x with
  | error e' => rw [Option.some.inj h]
  | ok a => cases h

namespace Lexer

/-- Reading from `l` yields these tokens, and then `l'` is left. -/
inductive Reads : Lexer → List Token → Lexer → Prop
  | nil (l : Lexer) : Reads l [] l
  | cons {l l' l'' : Lexer} {t : Token} {ts : List Token} (h : l.next = (.ok (some t), l'))
    (hs : Reads l' ts l'') : Reads l (t :: ts) l''

namespace Reads

variable {l l' l'' : Lexer} {t : Token} {ts us : List Token}

theorem single (h : l.next = (.ok (some t), l')) : l.Reads [t] l' :=
  .cons h (.nil l')

theorem append (h : l.Reads ts l') (h' : l'.Reads us l'') : l.Reads (ts ++ us) l'' := by
  induction h with
  | nil => exact h'
  | cons hn _ ih => exact .cons hn (ih h')

theorem of_cons (h : l.Reads (t :: ts) l'') :
    ∃ l', l.next = (.ok (some t), l') ∧ l'.Reads ts l'' := by
  cases h with
  | cons hn hs => exact ⟨_, hn, hs⟩

theorem of_append (h : l.Reads (ts ++ us) l'') : ∃ l', l.Reads ts l' ∧ l'.Reads us l'' := by
  induction ts generalizing l with
  | nil => exact ⟨l, .nil l, h⟩
  | cons t ts ih =>
    obtain ⟨m, hn, hs⟩ := of_cons h
    obtain ⟨l', h₁, h₂⟩ := ih hs
    exact ⟨l', .cons hn h₁, h₂⟩

theorem reaches (h : l.Reads ts l') : l.Reaches l' := by
  induction h with
  | nil l => exact .refl l
  | @cons l _ _ _ _ hn _ ih =>
    have h := l.reaches_next
    rw [hn] at h
    exact h.trans ih

theorem length_le (h : l.Reads ts l') : l'.rest.length ≤ l.rest.length :=
  h.reaches.length_le

end Reads

theorem all_of_none {l l' : Lexer} (h : l.next = (.ok none, l')) : l.all = (.ok [], l') := by
  rw [all]
  split <;> simp_all

theorem all_of_token {l l' : Lexer} {t : Token} (h : l.next = (.ok (some t), l')) :
    l.all = (l'.all.1.map (t :: ·), l'.all.2) := by
  rw [all]
  split <;> simp_all

theorem all_of_error {l l' : Lexer} {e : LexError} (h : l.next = (.error e, l')) :
    l.all = (.error e, l') := by
  rw [all]
  split <;> simp_all

theorem reads_of_all {l : Lexer} {ts : List Token} (h : l.all.1 = .ok ts) :
    ∃ l', l.Reads ts l' ∧ l'.next.1 = .ok none := by
  induction l using all.induct generalizing ts with
  | case1 l l' hn =>
    rw [all_of_none hn] at h
    cases h
    exact ⟨l, .nil l, by rw [hn]⟩
  | case2 l t l' hn _ _ _ ih =>
    rw [all_of_token hn] at h
    cases ha : l'.all.1 with
    | error e => rw [ha] at h; cases h
    | ok us =>
      rw [ha] at h
      cases h
      obtain ⟨l'', hr, he⟩ := ih ha
      exact ⟨l'', .cons hn hr, he⟩
  | case3 l e l' hn =>
    rw [all_of_error hn] at h
    cases h

theorem Reads.all {l l' : Lexer} {ts : List Token} (h : l.Reads ts l') (he : l'.next.1 = .ok none) :
    l.all.1 = .ok ts := by
  induction h with
  | nil l =>
    have hn : l.next = (.ok none, l.next.2) := by rw [← he]
    rw [all_of_none hn]
  | cons hn _ ih =>
    rw [all_of_token hn, ih he]
    rfl

theorem all_eq_ok_iff {l : Lexer} {ts : List Token} :
    l.all.1 = .ok ts ↔ ∃ l', l.Reads ts l' ∧ l'.next.1 = .ok none :=
  ⟨reads_of_all, fun ⟨_, hr, he⟩ => hr.all he⟩

end Lexer

/-! ### One reading -/

theorem Expression.Spelled.unique {e e' : Expression} {us us' ts ts' : List Token}
    (h : e.Spelled us) (h' : e'.Spelled us') (heq : us ++ ts = us' ++ ts') : e = e' ∧ ts = ts' := by
  cases h <;> cases h' <;> simp_all

theorem Statement.Spelled.unique {s s' : Statement} {us us' ts ts' : List Token}
    (h : s.Spelled us) (h' : s'.Spelled us') (heq : us ++ ts = us' ++ ts') : s = s' ∧ ts = ts' := by
  cases h with
  | declare name he =>
    cases h' with
    | declare name' he' =>
      simp only [List.cons_append, List.cons.injEq, Token.name.injEq, true_and] at heq
      obtain ⟨rfl, heq⟩ := heq
      obtain ⟨rfl, rfl⟩ := he.unique he' heq
      exact ⟨rfl, rfl⟩
    | callString => simp at heq
    | call => simp at heq
  | callString callee text =>
    cases h' <;> simp_all
  | call callee he =>
    cases h' with
    | declare => simp at heq
    | callString => simp at heq
    | call callee' he' =>
      simp only [List.cons_append, List.append_assoc, List.cons.injEq, Token.name.injEq,
        true_and] at heq
      obtain ⟨rfl, heq⟩ := heq
      obtain ⟨rfl, heq⟩ := he.unique he' heq
      simpa using heq

theorem Statement.ListSpelled.unique {ss ss' : List Statement} {ts : List Token}
    (h : ListSpelled ss ts) (h' : ListSpelled ss' ts) : ss = ss' := by
  induction h generalizing ss' with
  | nil =>
    generalize hts : ([] : List Token) = ts at h'
    cases h' with
    | nil => rfl
    | comment => cases hts
    | cons hs => cases hs <;> simp at hts
  | comment text _ ih =>
    generalize hts : Token.comment text :: _ = ts at h'
    cases h' with
    | nil => cases hts
    | comment _ h' =>
      cases hts
      exact ih h'
    | cons hs => cases hs <;> simp at hts
  | @cons s ss us ts hs _ ih =>
    generalize hts : us ++ ts = ts' at h'
    cases h' with
    | nil => cases hs <;> simp at hts
    | comment => cases hs <;> simp at hts
    | cons hs' h' =>
      obtain ⟨rfl, rfl⟩ := hs.unique hs' hts
      rw [ih h']

/-- The source reads as these statements, up to its end. -/
def Statement.ReadFrom (source : String) (ss : List Statement) : Prop :=
  ∃ ts, (Lexer.ofSource source).all.1 = .ok ts ∧ ListSpelled ss ts

theorem Statement.ReadFrom.unique {source : String} {ss ss' : List Statement}
    (h : ReadFrom source ss) (h' : ReadFrom source ss') : ss = ss' := by
  obtain ⟨ts, ht, hs⟩ := h
  obtain ⟨ts', ht', hs'⟩ := h'
  rw [ht] at ht'
  cases ht'
  exact hs.unique hs'

end LuaLite
