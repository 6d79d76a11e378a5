import Mathlib.Data.List.Basic
import Mathlib.Data.List.TakeWhile
import Mathlib.Tactic.NthRewrite
import TraitIndex.Fragment
import TraitIndex.Proofs.QuotedForms

/-! The pattern of an assignment.

    `Matches` says which texts the pattern matches: the opening word, a quoted key, a bracket and an
    equals sign, with blanks between them and after. `start?` finds the match at the start of a text
    whenever there is one, and takes all blanks after it. `Leftmost` says what it is to list the
    matches of a text from left to right, none inside another; `all` does so. A match that starts at
    some place is listed unless one that is listed goes `Over` that place. -/

namespace TraitIndex.Fragment.Assignment

/-- Nothing but blanks. -/
def Blanks (s : List CodePoint) : Prop := ∀ c ∈ s, Text.isBlank c = true

/-- What may stand between the quotes of a key: any characters but the quote and backslashes, and
    backslashes each with any next character but a line feed. -/
inductive KeyText (quote : CodePoint) : List CodePoint → Prop where
  | nil : KeyText quote []
  | plain {c : CodePoint} {s : List CodePoint} (hq : c ≠ quote) (hb : c ≠ '\\')
      (hs : KeyText quote s) :
    KeyText quote (c :: s)
  | escape {c : CodePoint} {s : List CodePoint} (hc : c ≠ '\n') (hs : KeyText quote s) :
    KeyText quote ('\\' :: c :: s)

/-- A key in its quotes. -/
def IsKey (key : List CodePoint) : Prop :=
  ∃ quote s, Literal.isQuote quote = true ∧ KeyText quote s ∧ key = quote :: (s ++ [quote])

/-- The text is one that the pattern matches, with this key. -/
def Matches (key text : List CodePoint) : Prop :=
  ∃ b₁ b₂ b₃ b₄, IsKey key ∧ Blanks b₁ ∧ Blanks b₂ ∧ Blanks b₃ ∧ Blanks b₄ ∧
    text = opening ++ (b₁ ++ (key ++ (b₂ ++ .char ']' :: (b₃ ++ .char '=' :: b₄))))

/-- The text does not start with a blank. -/
def Solid (s : List CodePoint) : Prop := ∀ c ∈ s.head?, Text.isBlank c = false

/-- The assignment is the match at the start of the text: all blanks at its end belong to it. -/
def MatchAt (s : List CodePoint) (a : Assignment) : Prop :=
  Solid a.rest ∧ ∃ text, Matches a.key text ∧ s = text ++ a.rest

/-- The assignments are the matches of a text from left to right: each is the first that starts
    behind the one before it. -/
inductive Leftmost : List CodePoint → List Assignment → Prop where
  | nil {s : List CodePoint} (hs : ∀ t, t <:+ s → ∀ a, ¬ MatchAt t a) : Leftmost s []
  | cons {before s : List CodePoint} {a : Assignment} {as : List Assignment}
    (hbefore : ∀ t, t <:+ before ++ s → s.length < t.length → ∀ b, ¬ MatchAt t b)
    (ha : MatchAt s a) (has : Leftmost a.rest as) : Leftmost (before ++ s) (a :: as)

/-! ### Blanks -/

theorem solid_cons {c : CodePoint} (hc : Text.isBlank c = false) (s : List CodePoint) :
    Solid (c :: s) := by
  rintro d ⟨⟩
  exact hc

theorem solid_skipBlanks (s : List CodePoint) : Solid (skipBlanks s) := by
  intro c hc
  have h := List.head?_dropWhile_not Text.isBlank s
  rw [skipBlanks, Option.mem_def] at hc
  rw [hc] at h
  exact h

/-- Blanks before a text that does not start with one are all that is skipped. -/
theorem skipBlanks_append {b s : List CodePoint} (hb : Blanks b) (hs : Solid s) :
    skipBlanks (b ++ s) = s := by
  rw [skipBlanks, List.dropWhile_append_of_pos hb]
  rcases s with _ | ⟨c, s⟩
  · rfl
  · rw [List.dropWhile_cons_of_neg]
    rw [hs c rfl]
    exact Bool.false_ne_true

theorem Blanks.nil : Blanks [] := List.forall_mem_nil _

theorem Blanks.single {c : CodePoint} (hc : Text.isBlank c = true) : Blanks [c] :=
  List.forall_mem_singleton.2 hc

theorem exists_blanks (s : List CodePoint) : ∃ b, Blanks b ∧ s = b ++ skipBlanks s :=
  ⟨s.takeWhile Text.isBlank, fun _ hc => List.mem_takeWhile_imp hc,
    (List.takeWhile_append_dropWhile ..).symm⟩

/-! ### Keys -/

theorem keyText_of_keyBody {quote : CodePoint} {s key after : List CodePoint}
    (h : keyBody quote s = some (key, after)) :
    ∃ t, KeyText quote t ∧ key = t ++ [quote] ∧ s = key ++ after := by
  fun_induction keyBody quote s generalizing key after with
  | case1 => exact absurd h (by simp)
  | case2 => exact absurd h (by simp)
  | case3 c rest hc ih =>
    simp only [Option.bind_eq_bind, Option.bind_eq_some_iff, Option.pure_def, Option.some.injEq,
      Prod.exists, Prod.mk.injEq] at h
    obtain ⟨key', after', hrest, rfl, rfl⟩ := h
    obtain ⟨t, ht, rfl, rfl⟩ := ih hrest
    exact ⟨'\\' :: c :: t, .escape hc ht, rfl, rfl⟩
  | case4 rest =>
    obtain ⟨rfl, rfl⟩ := Prod.mk.inj (Option.some.inj h)
    exact ⟨[], .nil, rfl, rfl⟩
  | case5 => exact absurd h (by simp)
  | case6 c rest _ hq hb ih =>
    simp only [Option.bind_eq_bind, Option.bind_eq_some_iff, Option.pure_def, Option.some.injEq,
      Prod.exists, Prod.mk.injEq] at h
    obtain ⟨key', after', hrest, rfl, rfl⟩ := h
    obtain ⟨t, ht, rfl, rfl⟩ := ih hrest
    exact ⟨c :: t, .plain hq hb ht, rfl, rfl⟩

theorem keyBody_of_keyText {quote : CodePoint} (hq : quote ≠ '\\') {t : List CodePoint}
    (ht : KeyText quote t) (after : List CodePoint) :
    keyBody quote (t ++ quote :: after) = some (t ++ [quote], after) := by
  induction ht with
  | nil =>
    show keyBody quote (quote :: after) = some ([quote], after)
    rw [keyBody]
    · rw [if_pos rfl]
    · intro c rest h
      exact absurd h hq
  | @plain c t hc hb _ ih =>
    show keyBody quote (c :: (t ++ quote :: after)) = _
    rw [keyBody, if_neg hc, if_neg hb, ih]
    · rfl
    · intro d rest h
      exact absurd h hb
  | @escape c t hc _ ih =>
    show keyBody quote ('\\' :: c :: (t ++ quote :: after)) = _
    rw [keyBody, if_neg hc, ih]
    rfl

/-- A key at the start of a text is read to its closing quote. -/
theorem key?_eq_some_iff {s key after : List CodePoint} :
    key? s = some (key, after) ↔ IsKey key ∧ s = key ++ after := by
  constructor
  · intro h
    rcases s with _ | ⟨quote, rest⟩
    · exact absurd h (by simp [key?])
    · rw [key?] at h
      split at h
      · rename_i hquote
        obtain ⟨⟨key', after'⟩, hbody, he⟩ := Option.map_eq_some_iff.1 h
        obtain ⟨rfl, rfl⟩ := Prod.mk.inj he
        obtain ⟨t, ht, rfl, rfl⟩ := keyText_of_keyBody hbody
        exact ⟨⟨quote, t, hquote, ht, rfl⟩, rfl⟩
      · exact absurd h (by simp)
  · rintro ⟨⟨quote, t, hquote, ht, rfl⟩, rfl⟩
    have hbody := keyBody_of_keyText (Literal.ne_backslash_of_isQuote hquote).symm ht after
    show key? (quote :: (t ++ [quote] ++ after)) = _
    rw [key?, if_pos hquote, List.append_assoc, List.singleton_append, hbody]
    rfl

/-! ### The match at the start of a text -/

/-- The match at the start of a text is found if there is one, and it takes all blanks at its
    end. -/
theorem start?_eq_some_iff {s : List CodePoint} {a : Assignment} :
    start? s = some a ↔ MatchAt s a := by
  constructor
  · intro h
    simp only [start?, Option.bind_eq_bind, Option.bind_eq_some_iff, Option.pure_def,
      Option.some.injEq, Prod.exists, Text.afterStart?_eq_some_iff, key?_eq_some_iff] at h
    obtain ⟨s₁, rfl, key, s₂, ⟨hkey, hs₂⟩, s₃, hs₃, s₄, hs₄, rfl⟩ := h
    obtain ⟨b₁, hb₁, e₁⟩ := exists_blanks s₁
    obtain ⟨b₂, hb₂, e₂⟩ := exists_blanks s₂
    obtain ⟨b₃, hb₃, e₃⟩ := exists_blanks s₃
    obtain ⟨b₄, hb₄, e₄⟩ := exists_blanks s₄
    refine ⟨solid_skipBlanks s₄, _, ⟨b₁, b₂, b₃, b₄, hkey, hb₁, hb₂, hb₃, hb₄, rfl⟩, ?_⟩
    calc
      opening ++ s₁ = opening ++ (b₁ ++ (key ++ (b₂ ++ .char ']' :: (b₃ ++ .char '=' :: s₄)))) := by
        rw [e₁, hs₂, e₂, hs₃]
        simp only [List.cons_append, List.nil_append]
        rw [e₃, hs₄]
        rfl
      _ = _ := by
        nth_rewrite 1 [e₄]
        simp
  · rintro ⟨hsolid, text, ⟨b₁, b₂, b₃, b₄, hkey, hb₁, hb₂, hb₃, hb₄, rfl⟩, rfl⟩
    obtain ⟨key, rest⟩ := a
    have hquoted : ∀ t, Solid (key ++ t) := by
      obtain ⟨quote, t', hquote, -, rfl⟩ := hkey
      exact fun t => solid_cons (Literal.not_isBlank_of_isQuote hquote) _
    have h₁ : skipBlanks (b₁ ++ (key ++ (b₂ ++ .char ']' :: (b₃ ++ .char '=' :: (b₄ ++ rest))))) =
        key ++ (b₂ ++ .char ']' :: (b₃ ++ .char '=' :: (b₄ ++ rest))) :=
      skipBlanks_append hb₁ (hquoted _)
    have h₂ : skipBlanks (b₂ ++ .char ']' :: (b₃ ++ .char '=' :: (b₄ ++ rest))) =
        .char ']' :: (b₃ ++ .char '=' :: (b₄ ++ rest)) :=
      skipBlanks_append hb₂ (solid_cons (by decide) _)
    have h₃ : skipBlanks (b₃ ++ .char '=' :: (b₄ ++ rest)) = .char '=' :: (b₄ ++ rest) :=
      skipBlanks_append hb₃ (solid_cons (by decide) _)
    have h₄ : skipBlanks (b₄ ++ rest) = rest := skipBlanks_append hb₄ hsolid
    simp only [start?, Option.bind_eq_bind, Option.bind_eq_some_iff, Option.pure_def,
      Option.some.injEq, Prod.exists, Text.afterStart?_eq_some_iff, key?_eq_some_iff]
    refine ⟨_, by simp only [List.append_assoc, List.cons_append], key, _, ⟨hkey, h₁⟩, _, h₂, _,
      h₃, congrArg (Assignment.mk key) h₄⟩

/-- A key with all that belongs to an assignment is matched. -/
theorem start?_append {key b₁ b₂ b₃ b₄ rest : List CodePoint} (hkey : IsKey key) (h₁ : Blanks b₁)
    (h₂ : Blanks b₂) (h₃ : Blanks b₃) (h₄ : Blanks b₄) (hrest : Solid rest) :
    start? (opening ++ (b₁ ++ (key ++ (b₂ ++ .char ']' :: (b₃ ++ .char '=' :: (b₄ ++ rest)))))) =
      some ⟨key, rest⟩ :=
  start?_eq_some_iff.2 ⟨hrest, _, ⟨b₁, b₂, b₃, b₄, hkey, h₁, h₂, h₃, h₄, rfl⟩, by simp⟩

theorem Matches.append_blanks {key text b : List CodePoint} (h : Matches key text) (hb : Blanks b) :
    Matches key (text ++ b) := by
  obtain ⟨b₁, b₂, b₃, b₄, hkey, h₁, h₂, h₃, h₄, rfl⟩ := h
  exact ⟨b₁, b₂, b₃, b₄ ++ b, hkey, h₁, h₂, h₃, List.forall_mem_append.2 ⟨h₄, hb⟩, by simp⟩

/-- However the start of a text is matched, the key is that of the match that is found. -/
theorem Matches.key_eq {s key text after : List CodePoint} {a : Assignment} (h : Matches key text)
    (hs : s = text ++ after) (ha : start? s = some a) : key = a.key := by
  obtain ⟨b, hb, hafter⟩ := exists_blanks after
  have hmatch : MatchAt s ⟨key, skipBlanks after⟩ := by
    refine ⟨solid_skipBlanks after, text ++ b, h.append_blanks hb, ?_⟩
    rw [hs, List.append_assoc, ← hafter]
  exact congrArg Assignment.key (Option.some.inj ((start?_eq_some_iff.2 hmatch).symm.trans ha))

/-- What follows a match is what the text ends with. -/
theorem MatchAt.suffix {s : List CodePoint} {a : Assignment} (h : MatchAt s a) : a.rest <:+ s := by
  obtain ⟨-, text, -, rfl⟩ := h
  exact List.suffix_append text a.rest

theorem not_matchAt_of_none {s : List CodePoint} (h : start? s = none) (a : Assignment) :
    ¬ MatchAt s a := by
  intro ha
  rw [start?_eq_some_iff.2 ha] at h
  exact absurd h (by simp)

/-! ### All matches -/

theorem start?_nil : start? [] = none := by decide

/-- A character before which no match starts changes nothing. -/
theorem Leftmost.cons_text {c : CodePoint} {s : List CodePoint} {as : List Assignment}
    (hc : ∀ a, ¬ MatchAt (c :: s) a) (h : Leftmost s as) : Leftmost (c :: s) as := by
  cases h with
  | nil hs =>
    refine .nil fun t ht => ?_
    rcases List.suffix_cons_iff.1 ht with rfl | ht
    · exact hc
    · exact hs t ht
  | @cons before s a as hbefore ha has =>
    refine @Leftmost.cons (c :: before) s a as (fun t ht hlt => ?_) ha has
    rcases List.suffix_cons_iff.1 ht with rfl | ht
    · exact hc
    · exact hbefore t ht hlt

/-- All assignments of a text are its matches from left to right. -/
theorem leftmost_all (s : List CodePoint) : Leftmost s (all s) := by
  fun_induction all s with
  | case1 =>
    refine .nil fun t ht => not_matchAt_of_none ?_
    rw [List.eq_nil_of_suffix_nil ht, start?_nil]
  | case2 c s a h ih =>
    refine @Leftmost.cons [] (c :: s) a _ (fun t ht hlt => ?_) (start?_eq_some_iff.1 h) ih
    exact absurd ht.length_le (Nat.not_le.2 hlt)
  | case3 c s h ih => exact ih.cons_text (not_matchAt_of_none h)

/-- A text that starts with a match has it first. -/
theorem all_of_some {s : List CodePoint} {a : Assignment} (h : start? s = some a) :
    all s = a :: all a.rest := by
  rcases s with _ | ⟨c, s⟩
  · exact absurd h (by simp [start?_nil])
  · rw [all]
    split
    · rename_i b hb
      obtain rfl : a = b := Option.some.inj (h.symm.trans hb)
      rfl
    · rename_i hb
      exact absurd (h.symm.trans hb) (by simp)

/-- A text that starts with no match has those behind its first character. -/
theorem all_of_none {c : CodePoint} {s : List CodePoint} (h : start? (c :: s) = none) :
    all (c :: s) = all s := by
  rw [all]
  split
  · rename_i b hb
    exact absurd (h.symm.trans hb) (by simp)
  · rfl

/-! ### Where matches are -/

theorem matchAt_of_mem_all {s : List CodePoint} {a : Assignment} (h : a ∈ all s) :
    ∃ t, t <:+ s ∧ MatchAt t a := by
  fun_induction all s with
  | case1 => exact absurd h (by simp)
  | case2 c s b hb ih =>
    rcases List.mem_cons.1 h with rfl | h
    · exact ⟨c :: s, List.suffix_rfl, start?_eq_some_iff.1 hb⟩
    · obtain ⟨t, ht, ha⟩ := ih h
      exact ⟨t, ht.trans (start?_eq_some_iff.1 hb).suffix, ha⟩
  | case3 c s hb ih =>
    obtain ⟨t, ht, ha⟩ := ih h
    exact ⟨t, ht.trans (List.suffix_cons c s), ha⟩

theorem isKey_of_mem_all {s : List CodePoint} {a : Assignment} (h : a ∈ all s) : IsKey a.key := by
  obtain ⟨t, -, -, text, ⟨b₁, b₂, b₃, b₄, hkey, -⟩, -⟩ := matchAt_of_mem_all h
  exact hkey

theorem length_lt_of_mem_all {s : List CodePoint} {a : Assignment} (h : a ∈ all s) :
    a.rest.length < s.length := by
  obtain ⟨t, ht, ha⟩ := matchAt_of_mem_all h
  exact Nat.lt_of_lt_of_le (length_lt_of_start? (start?_eq_some_iff.2 ha)) ht.length_le

/-- No match is found twice. -/
theorem nodup_all (s : List CodePoint) : (all s).Nodup := by
  fun_induction all s with
  | case1 => exact List.nodup_nil
  | case2 c s a ha ih =>
    refine List.nodup_cons.2 ⟨fun hmem => ?_, ih⟩
    exact absurd (length_lt_of_mem_all hmem) (Nat.lt_irrefl _)
  | case3 c s ha ih => exact ih

/-- The match starts before a place of a text and ends behind it. -/
def Over (before s : List CodePoint) (b : Assignment) : Prop :=
  ∃ front back head, before = front ++ back ∧ back ≠ [] ∧ head ≠ [] ∧ s = head ++ b.rest ∧
    Matches b.key (back ++ head)

theorem Over.append {before s : List CodePoint} {b : Assignment} (h : Over before s b)
    (front : List CodePoint) : Over (front ++ before) s b := by
  obtain ⟨front', back, head, rfl, h⟩ := h
  exact ⟨front ++ front', back, head, (List.append_assoc ..).symm, h⟩

theorem not_over_nil {s : List CodePoint} {b : Assignment} : ¬ Over [] s b := by
  rintro ⟨front, back, head, hnil, hback, -⟩
  exact hback (List.append_eq_nil_iff.1 hnil.symm).2

/-- The match at a place of a text is among all matches, unless one of these goes over the place. -/
theorem all_place (before : List CodePoint) {s : List CodePoint} {a : Assignment}
    (ha : start? s = some a) :
    (∃ as, all (before ++ s) = as ++ a :: all a.rest) ∨
      ∃ b ∈ all (before ++ s), Over before s b := by
  induction hn : before.length using Nat.strongRecOn generalizing before with
  | _ n ih =>
    rcases before with _ | ⟨c, before⟩
    · exact .inl ⟨[], all_of_some ha⟩
    · rcases hb : start? (c :: before ++ s) with _ | b
      · have hall : all (c :: before ++ s) = all (before ++ s) := all_of_none hb
        rw [hall]
        refine (ih _ (by rw [← hn]; exact Nat.lt_succ_self _) before rfl).imp_right ?_
        rintro ⟨b, hb, hover⟩
        exact ⟨b, hb, hover.append [c]⟩
      · have hall := all_of_some hb
        obtain ⟨-, text, htext, he⟩ := start?_eq_some_iff.1 hb
        rcases List.append_eq_append_iff.1 he with ⟨head, rfl, hs⟩ | ⟨behind, hbehind, hrest⟩
        · rcases head with _ | ⟨d, head⟩
          · refine .inl ⟨[b], ?_⟩
            have hrest : b.rest = s := hs.symm
            rw [hall, hrest, all_of_some ha]
            rfl
          · refine .inr ⟨b, by rw [hall]; exact List.mem_cons_self .., ?_⟩
            exact ⟨[], c :: before, d :: head, rfl, by simp, by simp, hs, htext⟩
        · -- the search goes on behind the match, which ends before the place
          have hlt := length_lt_of_start? hb
          rw [hrest] at hlt hall
          have hlength : behind.length < n := by
            simp only [List.length_append] at hlt
            omega
          rw [hall, hbehind]
          rcases ih _ hlength behind rfl with ⟨as, has⟩ | ⟨e, he, hover⟩
          · exact .inl ⟨b :: as, by rw [has]; rfl⟩
          · exact .inr ⟨e, List.mem_cons_of_mem b he, hover.append text⟩

/-! ### Texts without the opening word -/

theorem start?_eq_none {s : List CodePoint} (h : ¬ opening <+: s) : start? s = none := by
  refine Option.eq_none_iff_forall_ne_some.2 fun a ha => h ?_
  obtain ⟨-, text, ⟨b₁, b₂, b₃, b₄, -, -, -, -, -, rfl⟩, rfl⟩ := start?_eq_some_iff.1 ha
  rw [List.append_assoc]
  exact List.prefix_append opening _

/-- Characters at which no match starts change nothing. -/
theorem all_append {before s : List CodePoint}
    (h : ∀ t, t <:+ before → t ≠ [] → ¬ opening <+: t ++ s) : all (before ++ s) = all s := by
  induction before with
  | nil => rfl
  | cons c before ih =>
    have hnone := start?_eq_none (h (c :: before) List.suffix_rfl (by simp))
    have hall : all (c :: before ++ s) = all (before ++ s) := all_of_none hnone
    rw [hall]
    exact ih fun t ht => h t (ht.trans (List.suffix_cons c before))

/-- A word does not reach over a character that it does not hold. -/
theorem prefix_of_append_cons {α : Type} {p u v : List α} {c : α} (hc : c ∉ p)
    (h : p <+: u ++ c :: v) : p <+: u := by
  induction u generalizing p with
  | nil =>
    rcases p with _ | ⟨d, p⟩
    · exact List.nil_prefix
    · obtain ⟨rfl, -⟩ := List.cons_prefix_cons.1 h
      exact absurd (List.mem_cons_self ..) hc
  | cons d u ih =>
    rcases p with _ | ⟨e, p⟩
    · exact List.nil_prefix
    · obtain ⟨hde, htail⟩ := List.cons_prefix_cons.1 h
      exact List.cons_prefix_cons.2 ⟨hde, ih (fun hp => hc (List.mem_cons_of_mem e hp)) htail⟩

/-- The opening word does not reach over a character that it does not hold, such as a line break
    or a quote. -/
theorem all_append_of_last {before s : List CodePoint} {c : CodePoint} (hc : c ∉ opening)
    (hlast : c ∈ before.getLast?) (h : ¬ opening <:+: before) : all (before ++ s) = all s := by
  refine all_append fun t ht hne hp => h ?_
  obtain ⟨x, rfl⟩ := ht
  obtain ⟨t, rfl⟩ : ∃ w, t = w ++ [c] := by
    rw [List.getLast?_append_of_ne_nil x hne] at hlast
    exact ⟨t.dropLast, (List.dropLast_append_getLast? c hlast).symm⟩
  rw [List.append_assoc] at hp
  have hopening : opening <+: t := prefix_of_append_cons hc hp
  exact hopening.isInfix.trans ⟨x, [c], by rw [List.append_assoc]⟩

end TraitIndex.Fragment.Assignment
