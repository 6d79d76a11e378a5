import TraitIndex.Proofs.Pattern
import TraitIndex.Proofs.QuotedExtent

/-! Keys and the texts in them.

    The pattern finds where a key ends, and three readers look at it then: `Literal.body` makes JSON
    of it, and `Json.pieces?` takes that apart. All of them stop at the same quote, the first
    that no backslash stands before. A key is no JSON text any more when a line break stands in it.
    -/

namespace TraitIndex.Fragment.Assignment

variable {quote : CodePoint} {s t : List CodePoint}

/-- Where the quote that ends a key stands depends on the text alone. -/
theorem keyText_unique (hq : quote ≠ '\\') {after after' : List CodePoint} (hs : KeyText quote s)
    (ht : KeyText quote t) (h : s ++ quote :: after = t ++ quote :: after') :
    s = t ∧ after = after' := by
  have he : some (s ++ [quote], after) = some (t ++ [quote], after') := by
    rw [← keyBody_of_keyText hq hs after, ← keyBody_of_keyText hq ht after', h]
  obtain ⟨hst, hafter⟩ := Prod.mk.inj (Option.some.inj he)
  exact ⟨List.append_cancel_right hst, hafter⟩

theorem inside_of_keyText (h : KeyText quote t) : Literal.Inside quote t := by
  induction h with
  | nil => exact .nil
  | plain hc hb _ ih => exact .plain hc hb ih
  | @escape c _ _ _ ih => exact .escape c ih

/-- What may stand between quotes may stand in a key, if no line break is in it. -/
theorem keyText_of_inside (h : Literal.Inside quote t) (hn : .char '\n' ∉ t) : KeyText quote t := by
  induction h with
  | nil => exact .nil
  | plain hc hb _ ih => exact .plain hc hb (ih fun hmem => hn (List.mem_cons_of_mem _ hmem))
  | escape c _ ih =>
    rw [List.mem_cons, List.mem_cons, not_or, not_or] at hn
    exact .escape (Ne.symm hn.2.1) (ih hn.2.2)

/-- A key is read to its last character. -/
theorem quoted_of_keyText (hq : Literal.isQuote quote = true) (ht : KeyText quote t) :
    Literal.quoted (quote :: (t ++ [quote])) =
      .ok (.char '"' :: (Literal.inJson t ++ [.char '"']), []) := by
  rw [Literal.quoted, Literal.body_of_inside (Literal.ne_backslash_of_isQuote hq)
    (inside_of_keyText ht)]
  rfl

/-- What is made in JSON of the text of a key could stand in a key as well. -/
theorem keyText_inJson (h : KeyText quote t) : KeyText '"' (Literal.inJson t) := by
  induction h with
  | nil => exact .nil
  | plain _ hb _ ih =>
    rw [Literal.inJson_plain hb]
    split
    · exact .escape (by decide) ih
    · rename_i hd
      exact .plain hd hb ih
  | escape hc _ ih =>
    rw [Literal.inJson]
    split
    · exact .plain (by decide) (by decide) ih
    · exact .escape hc ih

/-- It keeps the line breaks. -/
theorem newline_mem_inJson (h : KeyText quote t) (hn : .char '\n' ∈ t) :
    .char '\n' ∈ Literal.inJson t := by
  induction h with
  | nil => exact hn
  | @plain c t _ hb _ ih =>
    have hrest : c ≠ .char '\n' → .char '\n' ∈ Literal.inJson t :=
      fun hc => ih ((List.mem_cons.1 hn).resolve_left hc.symm)
    rw [Literal.inJson_plain hb]
    split
    · rename_i hd
      have hc : c ≠ '\n' := by
        rw [hd]
        decide
      exact List.mem_cons_of_mem _ (List.mem_cons_of_mem _ (hrest hc))
    · by_cases hc : c = '\n'
      · rw [hc]
        exact List.mem_cons_self ..
      · exact List.mem_cons_of_mem _ (hrest hc)
  | @escape c t hc _ ih =>
    have hrest : .char '\n' ∈ Literal.inJson t := by
      have hn := (List.mem_cons.1 hn).resolve_left (by decide)
      exact ih ((List.mem_cons.1 hn).resolve_left hc.symm)
    rw [Literal.inJson]
    split
    · exact List.mem_cons_of_mem _ hrest
    · exact List.mem_cons_of_mem _ (List.mem_cons_of_mem _ hrest)

theorem not_lt_space_of_hexValue? {c : CodePoint} {d : Nat} (h : Text.hexValue? c = some d) :
    ¬ c < ' ' := by
  intro hc
  have hc : c.toNat < ' '.toNat := hc
  have hlt : ∀ e : CodePoint, ' ' ≤ e → ¬ e ≤ c := fun e he hec =>
    absurd (Nat.lt_of_le_of_lt (show e.toNat ≤ c.toNat from hec) hc)
      (Nat.not_lt.2 (show ' '.toNat ≤ e.toNat from he))
  rw [Text.hexValue?, if_neg fun h => hlt '0' (by decide) h.1,
    if_neg fun h => hlt 'a' (by decide) h.1, if_neg fun h => hlt 'A' (by decide) h.1] at h
  exact absurd h (by simp)

/-- The digits of a unit are none of the characters that a text ends or escapes with. -/
theorem digits_of_unit? {x₁ x₂ x₃ x₄ : CodePoint} {n : Nat} (h : Json.unit? x₁ x₂ x₃ x₄ = some n) :
    ∀ c ∈ [x₁, x₂, x₃, x₄], c ≠ '"' ∧ c ≠ '\\' ∧ ¬ c < ' ' := by
  obtain ⟨q₁, q₂, q₃, q₄⟩ := Literal.ne_of_unit? (c := '"') h (by decide)
  obtain ⟨b₁, b₂, b₃, b₄⟩ := Literal.ne_of_unit? (c := '\\') h (by decide)
  simp only [Json.unit?, Option.bind_eq_bind, Option.bind_eq_some_iff] at h
  obtain ⟨d₁, h₁, d₂, h₂, d₃, h₃, d₄, h₄, -⟩ := h
  simp only [List.forall_mem_cons]
  exact ⟨⟨q₁, b₁, not_lt_space_of_hexValue? h₁⟩, ⟨q₂, b₂, not_lt_space_of_hexValue? h₂⟩,
    ⟨q₃, b₃, not_lt_space_of_hexValue? h₃⟩, ⟨q₄, b₄, not_lt_space_of_hexValue? h₄⟩,
    List.forall_mem_nil _⟩

theorem not_lt_space_of_plainEscape? {e c : CodePoint} (h : Json.plainEscape? e = some c) :
    ¬ e < ' ' := by
  unfold Json.plainEscape? at h
  split at h
  case h_9 => exact absurd h (by simp)
  all_goals decide

theorem keyText_append (hs : ∀ c ∈ s, c ≠ quote ∧ c ≠ '\\') (ht : KeyText quote t) :
    KeyText quote (s ++ t) := by
  induction s with
  | nil => exact ht
  | cons c s ih =>
    obtain ⟨hq, hb⟩ := hs c (List.mem_cons_self ..)
    exact .plain hq hb (ih fun d hd => hs d (List.mem_cons_of_mem c hd))

/-- What a reader of JSON takes as a text could stand in a key, without control characters unless
    they may stand for themselves. -/
theorem keyText_of_isBody {controls : Bool} {w : List CodePoint} (h : Json.IsBody controls w) :
    KeyText '"' w ∧ (controls = false → ∀ c ∈ w, ¬ c < ' ') := by
  induction h with
  | nil => exact ⟨.nil, fun _ => List.forall_mem_nil _⟩
  | @unit a b c d n w hx _ ih =>
    obtain ⟨hw, hcontrol⟩ := ih
    have hdigits := digits_of_unit? hx
    have hkey : KeyText '"' ([a, b, c, d] ++ w) :=
      keyText_append (fun e he => ⟨(hdigits e he).1, (hdigits e he).2.1⟩) hw
    refine ⟨.escape (by decide) hkey, fun hf => ?_⟩
    have hall : ∀ e ∈ [a, b, c, d] ++ w, ¬ e < ' ' :=
      List.forall_mem_append.2 ⟨fun e he => (hdigits e he).2.2, hcontrol hf⟩
    exact List.forall_mem_cons.2 ⟨by decide, List.forall_mem_cons.2 ⟨by decide, hall⟩⟩
  | @escape e c w hc _ ih =>
    obtain ⟨hw, hcontrol⟩ := ih
    have he : ¬ e < ' ' := not_lt_space_of_plainEscape? hc
    have hn : e ≠ '\n' := by
      rintro rfl
      exact he (by decide)
    refine ⟨.escape hn hw, fun hf => ?_⟩
    exact List.forall_mem_cons.2 ⟨by decide, List.forall_mem_cons.2 ⟨he, hcontrol hf⟩⟩
  | plain hq hb hc _ ih =>
    obtain ⟨hw, hcontrol⟩ := ih
    refine ⟨.plain hq hb hw, fun hf => List.forall_mem_cons.2 ⟨fun hlt => ?_, hcontrol hf⟩⟩
    exact absurd (hc hlt) (by simp [hf])

/-- A text of JSON may stand in a key, without control characters unless they may stand for
    themselves. -/
theorem keyText_of_textForm {controls : Bool} {w : List CodePoint}
    (h : Json.TextForm controls s w) :
    KeyText '"' w ∧ (controls = false → ∀ c ∈ w, ¬ c < ' ') := by
  obtain ⟨ps, hps, -⟩ := h.pieces? []
  obtain ⟨v, hv, hbody⟩ := Json.isBody_of_pieces? hps
  rw [List.append_cancel_right hv]
  exact keyText_of_isBody hbody

/-- A key in which a line break stands denotes no crate. -/
theorem crate_ne_of_newline {a : Assignment} (hkey : IsKey a.key) (hn : .char '\n' ∈ a.key)
    (name : Text) : a.crate ≠ .ok name := by
  obtain ⟨quote, t, hquote, ht, hk⟩ := hkey
  have hnt : .char '\n' ∈ t := by
    have hne : '\n' ≠ quote := by
      rintro rfl
      exact absurd hquote (by decide)
    rw [hk, List.mem_cons, List.mem_append, List.mem_singleton] at hn
    exact (hn.resolve_left hne).resolve_right hne
  have hquoted : Literal.quoted a.key =
      .ok (.char '"' :: (Literal.inJson t ++ [.char '"']), []) := by
    rw [hk, quoted_of_keyText hquote ht]
  -- a reader that takes the text has seen all of it, and refuses the line break
  have hpieces : Json.pieces? false (Literal.inJson t ++ [.char '"']) = none := by
    refine Option.eq_none_iff_forall_ne_some.2 ?_
    rintro ⟨ps, after⟩ hps
    obtain ⟨w, hw, hread⟩ := Json.isBody_of_pieces? hps
    obtain ⟨hkey, hcontrol⟩ := keyText_of_isBody hread
    obtain ⟨rfl, -⟩ := keyText_unique (by decide) (keyText_inJson ht) hkey hw
    exact hcontrol rfl '\n' (newline_mem_inJson ht hnt) (by decide)
  have hparse : Json.parse {} (.char '"' :: (Literal.inJson t ++ [.char '"'])) =
      .error .malformedJson := by
    rw [Json.parse, Json.read_text_none hpieces]
    rfl
  rw [crate, hquoted]
  simp only [bind, Except.bind, hparse]
  exact fun h => absurd h (by simp)

end TraitIndex.Fragment.Assignment
