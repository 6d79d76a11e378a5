import Mathlib.Algebra.Group.Nat.Even
import Mathlib.Data.Nat.Find
import TraitIndex.Proofs.QuotedForms

/-! Where a quoted text ends.

    A backslash takes the next character with it, so of a run of backslashes every second one is
    escaped, and so is a quote behind an odd number of them. A quoted text ends at the first quote
    of its kind that is not escaped; if there is none, it does not end. -/

namespace TraitIndex.Literal

/-- What may stand between quotes of one kind: any characters but the quote and backslashes, and
    backslashes each with the next character, whatever that is. -/
inductive Inside (quote : CodePoint) : List CodePoint → Prop where
  | nil : Inside quote []
  | plain {c : CodePoint} {t : List CodePoint} (hq : c ≠ quote) (hb : c ≠ '\\')
      (ht : Inside quote t) :
    Inside quote (c :: t)
  | escape (c : CodePoint) {t : List CodePoint} (ht : Inside quote t) :
      Inside quote ('\\' :: c :: t)

/-- The characters between quotes as they are written in JSON. -/
def inJson : List CodePoint → List CodePoint
  | [] => []
  | '\\' :: c :: t => if c = '\'' then '\'' :: inJson t else '\\' :: c :: inJson t
  | c :: t => if c = '"' then '\\' :: '"' :: inJson t else c :: inJson t

/-- How many backslashes a text ends with. -/
def backslashes (s : List CodePoint) : Nat := (s.reverse.takeWhile (· == .char '\\')).length

/-- A character stands at a place and is not escaped. -/
def Unescaped (c : CodePoint) (s : List CodePoint) (k : Nat) : Prop :=
  s[k]? = some c ∧ Even (backslashes (s.take k))

instance (c : CodePoint) (s : List CodePoint) (k : Nat) : Decidable (Unescaped c s k) :=
  inferInstanceAs (Decidable (_ ∧ _))

variable {quote c : CodePoint} {s t rest after : List CodePoint} {k : Nat}

/-! ### Reading to the quote -/

theorem inJson_plain (hb : c ≠ '\\') (t : List CodePoint) :
    inJson (c :: t) =
      if c = .char '"' then .char '\\' :: .char '"' :: inJson t else c :: inJson t := by
  rw [inJson]
  exact fun _ _ h => absurd h hb

theorem body_of_inside (hq : '\\' ≠ quote) (h : Inside quote t) (after : List CodePoint) :
    body quote (t ++ quote :: after) = some (inJson t, after) := by
  induction h with
  | nil => exact body_quote hq after
  | plain hc hb _ ih =>
    rw [List.cons_append, body_plain hc hb, ih, inJson_plain hb]
    rfl
  | escape c _ ih =>
    rw [List.cons_append, List.cons_append, body_escape, ih, inJson]
    rfl

theorem inside_of_body {written : List CodePoint} (h : body quote s = some (written, after)) :
    ∃ t, Inside quote t ∧ s = t ++ quote :: after ∧ written = inJson t := by
  fun_induction body quote s generalizing written after with
  | case1 => exact absurd h (by simp)
  | case2 c rest ih =>
    simp only [Option.bind_eq_bind, Option.bind_eq_some_iff, Option.pure_def, Option.some.injEq,
      Prod.exists, Prod.mk.injEq] at h
    obtain ⟨written', after', hrest, rfl, rfl⟩ := h
    obtain ⟨t, ht, rfl, rfl⟩ := ih hrest
    exact ⟨'\\' :: c :: t, .escape c ht, rfl, by rw [inJson]⟩
  | case3 rest =>
    obtain ⟨rfl, rfl⟩ := Prod.mk.inj (Option.some.inj h)
    exact ⟨[], .nil, rfl, rfl⟩
  | case4 c rest hpair hc ih =>
    simp only [Option.bind_eq_bind, Option.bind_eq_some_iff, Option.pure_def, Option.some.injEq,
      Prod.exists, Prod.mk.injEq] at h
    obtain ⟨written', after', hrest, rfl, rfl⟩ := h
    obtain ⟨t, ht, rfl, rfl⟩ := ih hrest
    -- a backslash would stand here only at the end of the text, but the quote follows
    have hb : c ≠ '\\' := by
      intro hb
      rcases t with _ | ⟨d, t⟩
      · exact hpair quote after' hb rfl
      · exact hpair d (t ++ quote :: after') hb rfl
    exact ⟨c :: t, .plain hc hb ht, rfl, (inJson_plain hb t).symm⟩

/-- A written text may stand between its quotes. -/
theorem TextForm.inside {w j : List CodePoint} (h : TextForm quote s w j)
    (hq : isQuote quote = true) :
    Inside quote w := by
  obtain ⟨t, ht, hw, -⟩ := inside_of_body (h.body hq [])
  rw [List.append_cancel_right hw]
  exact ht

/-! ### Runs of backslashes -/

theorem backslashes_append (s t : List CodePoint) :
    backslashes (s ++ t) =
      if backslashes t = t.length then t.length + backslashes s else backslashes t := by
  by_cases h : backslashes t = t.length
  · have hall : (t.reverse.takeWhile (· == .char '\\')).length = t.reverse.length := by
      rw [List.length_reverse]
      exact h
    rw [if_pos h, backslashes, List.reverse_append, List.takeWhile_append, if_pos hall,
      List.length_append, List.length_reverse]
    rfl
  · have hall : ¬ (t.reverse.takeWhile (· == .char '\\')).length = t.reverse.length := by
      rw [List.length_reverse]
      exact h
    rw [if_neg h, backslashes, List.reverse_append, List.takeWhile_append, if_neg hall]
    rfl

theorem backslashes_plain (hb : c ≠ '\\') (t : List CodePoint) :
    backslashes (c :: t) = backslashes t := by
  have hc : backslashes [c] = 0 := by simp [backslashes, hb]
  rw [← List.singleton_append, backslashes_append, hc]
  split
  · rename_i h
    exact h.symm
  · rfl

/-- A backslash and what it takes with it leave it open whether what follows is escaped. -/
theorem even_backslashes_escape (c : CodePoint) (t : List CodePoint) :
    Even (backslashes ('\\' :: c :: t)) ↔ Even (backslashes t) := by
  have hpair : Even (backslashes ['\\', c]) := by
    by_cases hc : c = '\\'
    · rw [hc]
      decide
    · rw [show [.char '\\', c] = [.char '\\'] ++ [c] from rfl, backslashes_append]
      simp [backslashes, hc]
  rw [show .char '\\' :: c :: t = [.char '\\', c] ++ t from rfl, backslashes_append]
  split
  · rename_i h
    rw [Nat.even_add, iff_true_right hpair, h]
  · rfl

theorem unescaped_plain_succ (hb : c ≠ '\\') :
    Unescaped quote (c :: t) (k + 1) ↔ Unescaped quote t k := by
  rw [Unescaped, List.take_succ_cons, backslashes_plain hb]
  rfl

theorem unescaped_zero : Unescaped quote (c :: t) 0 ↔ c = quote := by
  simp [Unescaped, backslashes]

theorem unescaped_escape_succ (c : CodePoint) :
    Unescaped quote ('\\' :: c :: t) (k + 2) ↔ Unescaped quote t k := by
  rw [Unescaped, List.take_succ_cons, List.take_succ_cons, even_backslashes_escape]
  rfl

/-- What a backslash takes with it is escaped. -/
theorem not_unescaped_escape_one (c : CodePoint) : ¬ Unescaped quote ('\\' :: c :: t) 1 := by
  rintro ⟨-, heven⟩
  exact absurd heven (by decide : ¬ Even (backslashes ['\\']))

/-- Where no character follows a backslash, the text ends with an odd number of them. -/
theorem ne_backslash_of_even (hpair : ∀ d r, c = '\\' → t = d :: r → False)
    (heven : Even (backslashes (c :: t))) : c ≠ '\\' := by
  rintro rfl
  rcases t with _ | ⟨d, r⟩
  · exact absurd heven (by decide)
  · exact hpair d r rfl rfl

/-! ### The first quote that is not escaped -/

theorem Inside.even (h : Inside quote t) : Even (backslashes t) := by
  induction h with
  | nil => decide
  | plain _ hb _ ih =>
    rw [backslashes_plain hb]
    exact ih
  | escape c _ ih => exact (even_backslashes_escape c _).2 ih

/-- A text without such a quote, which does not end in the middle of an escape, may stand between
    the quotes. -/
theorem inside_of_not_unescaped (h : ∀ k, ¬ Unescaped quote t k)
    (heven : Even (backslashes t)) : Inside quote t := by
  fun_induction inJson t with
  | case1 => exact .nil
  | case2 t ih | case3 c t _ ih =>
    refine .escape _ (ih (fun k hk => h (k + 2) ((unescaped_escape_succ _).2 hk)) ?_)
    exact (even_backslashes_escape _ t).1 heven
  | case4 t hpair ih | case5 c t hpair _ ih =>
    have hb := ne_backslash_of_even hpair heven
    refine .plain (fun hc => h 0 (unescaped_zero.2 hc)) hb (ih (fun k hk => ?_) ?_)
    · exact h (k + 1) ((unescaped_plain_succ hb).2 hk)
    · rw [← backslashes_plain hb]
      exact heven

/-- Up to the first such quote the text is what stands between the quotes. -/
theorem inside_take (hk : Unescaped quote s k) (hfirst : ∀ j < k, ¬ Unescaped quote s j) :
    Inside quote (s.take k) := by
  refine inside_of_not_unescaped (fun j hj => ?_) hk.2
  have hlt : j < k := by
    by_contra hge
    have hnone : (s.take k)[j]? = none := List.getElem?_eq_none (by simp; omega)
    exact absurd (hnone.symm.trans hj.1) (by simp)
  refine hfirst j hlt ⟨?_, ?_⟩
  · rw [← hj.1, List.getElem?_take_of_lt hlt]
  · have heven := hj.2
    rw [List.take_take, Nat.min_eq_left (Nat.le_of_lt hlt)] at heven
    exact heven

theorem split_at (hk : Unescaped quote s k) : s = s.take k ++ quote :: s.drop (k + 1) := by
  obtain ⟨hlt, rfl⟩ := List.getElem?_eq_some_iff.1 hk.1
  rw [← List.drop_eq_getElem_cons, List.take_append_drop]

/-- A text is read up to the first such quote. -/
theorem body_of_first (hq : '\\' ≠ quote) (hk : Unescaped quote s k)
    (hfirst : ∀ j < k, ¬ Unescaped quote s j) :
    body quote s = some (inJson (s.take k), s.drop (k + 1)) := by
  have hbody := body_of_inside hq (inside_take hk hfirst) (s.drop (k + 1))
  rw [← split_at hk] at hbody
  exact hbody

/-- A text does not end if there is no such quote. -/
theorem body_eq_none_iff (hq : '\\' ≠ quote) :
    body quote s = none ↔ ∀ k, ¬ Unescaped quote s k := by
  constructor
  · intro h
    classical
    by_contra hsome
    have hex : ∃ k, Unescaped quote s k := not_forall_not.1 hsome
    rw [body_of_first hq (Nat.find_spec hex) fun j hj => Nat.find_min hex hj] at h
    exact absurd h (by simp)
  · intro h
    refine Option.eq_none_iff_forall_ne_some.2 ?_
    rintro ⟨written, after⟩ hbody
    obtain ⟨t, ht, rfl, -⟩ := inside_of_body hbody
    refine h t.length ⟨by simp, ?_⟩
    rw [List.take_left]
    exact ht.even

end TraitIndex.Literal
