import TraitIndex.Json.Document
import TraitIndex.Proofs.LiteralDocument
import TraitIndex.Proofs.Outcomes

/-! JSON stays as it is.

    A text that some reader of JSON accepts is not changed by `asJson`. Nothing is known of such a
    text but that it was read, so each reader is followed: what it has taken becomes itself. Words
    and numbers do so only where they stand apart, and they do, because a comma, a closing bracket
    or the end comes next. No comma is left out, because what comes behind it starts with neither a
    blank nor a closing bracket. -/

namespace TraitIndex.Literal

open Json (Dialect)

variable {s items more rest after : List CodePoint} {c : CodePoint} {dialect : Dialect}

/-! ### Gaps -/

/-- White space comes before the first token. -/
theorem exists_gap (s : List CodePoint) : ∃ gap : Gap, s = gap.chars ++ Json.skipSpace s := by
  refine ⟨⟨s.takeWhile Json.isSpace, ?_⟩, ?_⟩
  · intro c hc
    exact List.mem_takeWhile_imp hc
  · exact List.takeWhile_append_dropWhile.symm

/-- A word stands alone before a comma or a closing bracket that is the next token. -/
theorem apart_of_skipSpace (h : Json.skipSpace s = c :: rest) (hc : c = ',' ∨ closes c = true) :
    Apart s := by
  obtain ⟨gap, hgap⟩ := exists_gap s
  rw [hgap, h]
  exact apart_gap gap hc rest

/-! ### What is bare -/

/-- What comes before the rest is bare. -/
def Bare (s rest : List CodePoint) : Prop := ∃ w, s = w ++ rest ∧ ∀ c ∈ w, isBare c = true

theorem Bare.refl (s : List CodePoint) : Bare s s := ⟨[], rfl, by simp⟩

theorem Bare.cons (hc : isBare c = true) (h : Bare s rest) : Bare (c :: s) rest := by
  obtain ⟨w, rfl, hw⟩ := h
  exact ⟨c :: w, rfl, List.forall_mem_cons.2 ⟨hc, hw⟩⟩

theorem Bare.trans (h : Bare s more) (h' : Bare more rest) : Bare s rest := by
  obtain ⟨w, rfl, hw⟩ := h
  obtain ⟨v, rfl, hv⟩ := h'
  exact ⟨w ++ v, (List.append_assoc w v rest).symm, List.forall_mem_append.2 ⟨hw, hv⟩⟩

theorem isBare_of_asciiDigit? {d : Nat} (h : Text.asciiDigit? c = some d) : isBare c = true := by
  refine isBare_of_isDigit ?_
  by_contra hc
  simp [Json.asciiDigit?_eq_none (by simpa using hc)] at h

theorem bare_spanDigits (s : List CodePoint) : Bare s (Json.spanDigits s).2 := by
  induction s with
  | nil => exact .refl []
  | cons c s ih =>
    rw [Json.spanDigits]
    cases hd : Text.asciiDigit? c with
    | none => exact .refl _
    | some d => exact ih.cons (isBare_of_asciiDigit? hd)

/-- Digits start with a digit. -/
theorem cons_of_spanDigits {d : Nat} {ds : List Nat} (h : Json.spanDigits s = (d :: ds, rest)) :
    ∃ c t, s = c :: t ∧ isBare c = true ∧ Bare t rest := by
  cases s with
  | nil => simp [Json.spanDigits] at h
  | cons c t =>
    cases hd : Text.asciiDigit? c with
    | none => simp [Json.spanDigits, hd] at h
    | some n =>
      simp only [Json.spanDigits, hd, Prod.mk.injEq] at h
      obtain ⟨-, rfl⟩ := h
      exact ⟨c, t, rfl, isBare_of_asciiDigit? hd, bare_spanDigits t⟩

theorem cons_of_whole? {ds : List Nat} (h : Json.whole? s = some (ds, rest)) :
    ∃ c t, s = c :: t ∧ isBare c = true ∧ Bare t rest := by
  unfold Json.whole? at h
  split at h
  case h_1 => simp at h
  case h_2 hspan =>
    obtain ⟨c, t, rfl, hc, -⟩ := cons_of_spanDigits hspan
    simp only [Option.some.injEq, Prod.mk.injEq, List.drop_one, List.tail_cons] at h
    obtain ⟨-, rfl⟩ := h
    exact ⟨c, t, rfl, hc, .refl t⟩
  case h_3 whole hnil _ =>
    rcases hspan : Json.spanDigits s with ⟨_ | ⟨d, ds'⟩, rest'⟩
    · exact absurd hspan (hnil rest')
    · simp only [hspan, Option.some.injEq, Prod.mk.injEq] at h
      obtain ⟨-, rfl⟩ := h
      exact cons_of_spanDigits hspan

theorem bare_fraction (s : List CodePoint) : Bare s (Json.fraction s).2 := by
  unfold Json.fraction
  split
  · rename_i rest
    have hdigits := bare_spanDigits rest
    split
    · exact .refl _
    · rename_i ds after _ hspan
      rw [hspan] at hdigits
      exact hdigits.cons (by decide)
  · exact .refl s

theorem bare_exponent (s : List CodePoint) : Bare s (Json.exponent s).2 := by
  unfold Json.exponent
  dsimp only
  split
  case h_3 => exact .refl s
  all_goals
    split
    · exact .refl _
    · rename_i hspan
      have hdigits := congrArg Prod.snd hspan ▸ bare_spanDigits _
      refine .cons (by decide) (.trans ?_ hdigits)
      split
      · exact .cons (by decide) (.refl _)
      · exact .cons (by decide) (.refl _)
      · exact .refl _

/-- A number is bare and has a character at least. -/
theorem cons_of_number {negative : Bool} {x : Json}
    (h : Json.number dialect negative s = .ok (x, rest)) :
    ∃ c t, s = c :: t ∧ isBare c = true ∧ Bare t rest := by
  unfold Json.number at h
  split at h
  · simp at h
  · rename_i ds afterWhole hwhole
    obtain ⟨c, t, rfl, hc, ht⟩ := cons_of_whole? hwhole
    have hfraction := bare_fraction afterWhole
    have hexponent := bare_exponent (Json.fraction afterWhole).2
    have hrest : (Json.exponent (Json.fraction afterWhole).2).2 = rest := by
      dsimp only at h
      split at h
      · split at h
        · simp_all
        · simp at h
      · simp_all
    exact ⟨c, t, rfl, hc, ht.trans (hfraction.trans (hrest ▸ hexponent))⟩

/-! ### What stays -/

/-- What comes before the rest stays as it is, and starts as a literal does. -/
def Stays (s rest : List CodePoint) : Prop := ∃ w, s = w ++ rest ∧ Starts w ∧ Becomes w w rest

theorem stays_bare (hc : isBare c = true) (h : Bare s rest) (hrest : Apart rest) :
    Stays (c :: s) rest := by
  obtain ⟨w, rfl, hw⟩ := h
  exact ⟨c :: w, rfl, starts_bare hc w, becomes_bare (List.forall_mem_cons.2 ⟨hc, hw⟩) hrest⟩

theorem stays_opening (hc : opens c = true) (s : List CodePoint) : Stays (c :: s) s := by
  simp only [opens, Bool.or_eq_true, beq_iff_eq] at hc
  rcases hc with rfl | rfl
  · exact ⟨['['], rfl, ⟨'[', [], rfl, rfl, rfl⟩, becomes_char rfl rfl (by decide) s⟩
  · exact ⟨['{'], rfl, ⟨'{', [], rfl, rfl, rfl⟩, becomes_char rfl rfl (by decide) s⟩

/-- What comes next, behind white space, stays as well. -/
theorem Stays.trans (h : Stays s more) (h' : Stays (Json.skipSpace more) rest) : Stays s rest := by
  obtain ⟨w, rfl, hstarts, hw⟩ := h
  obtain ⟨v, hv, -, hbecomes⟩ := h'
  obtain ⟨gap, hgap⟩ := exists_gap more
  have hnext : Becomes (gap.chars ++ v) (gap.chars ++ v) rest :=
    (becomes_gap gap _).append hbecomes
  rw [hv, ← List.append_assoc] at hgap
  subst hgap
  exact ⟨w ++ (gap.chars ++ v), by simp, hstarts.append _, hw.append hnext⟩

/-- So does a mark that is the next token. -/
theorem Stays.mark (h : Stays s more) (hnext : Json.skipSpace more = c :: rest)
    (hc : Becomes [c] [c] rest) : Stays s rest := by
  obtain ⟨w, rfl, hstarts, hw⟩ := h
  obtain ⟨gap, hgap⟩ := exists_gap more
  have hmark : Becomes (gap.chars ++ [c]) (gap.chars ++ [c]) rest :=
    (becomes_gap gap _).append hc
  rw [hnext, List.append_cons] at hgap
  subst hgap
  exact ⟨w ++ (gap.chars ++ [c]), by simp, hstarts.append _, hw.append hmark⟩

theorem Stays.closing (h : Stays s more) (hnext : Json.skipSpace more = c :: rest)
    (hc : closes c = true) : Stays s rest := by
  refine h.mark hnext ?_
  simp only [closes, Bool.or_eq_true, beq_iff_eq] at hc
  rcases hc with rfl | rfl
  · exact becomes_char rfl rfl (by decide) rest
  · exact becomes_char rfl rfl (by decide) rest

/-- A comma stays because what comes behind it starts as a literal does. -/
theorem Stays.comma (h : Stays s more) (hnext : Json.skipSpace more = .char ',' :: after)
    (h' : Stays (Json.skipSpace after) rest) : Stays s rest := by
  have hsolid : (firstSolid after).any closes = false := by
    obtain ⟨v, hv, hstarts, -⟩ := h'
    obtain ⟨gap, hgap⟩ := exists_gap after
    rw [hgap, hv]
    exact firstSolid_starts gap hstarts rest
  exact (h.mark hnext (becomes_comma hsolid)).trans h'

theorem Stays.colon (h : Stays s more) (hnext : Json.skipSpace more = .char ':' :: after)
    (h' : Stays (Json.skipSpace after) rest) : Stays s rest :=
  (h.mark hnext (becomes_char rfl rfl (by decide) after)).trans h'

/-! ### Texts -/

/-- What is made of a text of JSON is what is written. -/
theorem body_of_isBody {controls : Bool} {w : List CodePoint} (h : Json.IsBody controls w)
    (rest : List CodePoint) : body '"' (w ++ .char '"' :: rest) = some (w, rest) := by
  induction h with
  | nil => exact body_quote (by decide) rest
  | unit hx _ ih =>
    simp only [List.cons_append]
    rw [body_unit rfl hx, ih]
    rfl
  | @escape e c w hc _ ih =>
    have he : e ≠ '\'' := by
      rintro rfl
      simp [Json.plainEscape?] at hc
    simp only [List.cons_append]
    rw [body_escape, ih, Option.map_some, if_neg he]
  | plain hq hb _ _ ih =>
    rw [List.cons_append, body_plain hq hb, ih, Option.map_some, if_neg hq]

theorem stays_string {t : Text} (h : Json.string dialect s = .ok (t, rest)) :
    Stays ('"' :: s) rest := by
  unfold Json.string at h
  split at h
  · rename_i ps rest' hps
    obtain ⟨-, rfl⟩ := Prod.mk.inj (Except.ok.inj h)
    obtain ⟨w, rfl, hw⟩ := Json.isBody_of_pieces? hps
    exact ⟨.char '"' :: (w ++ [.char '"']), by simp, ⟨.char '"', _, rfl, by decide, by decide⟩,
      becomes_text rfl (body_of_isBody hw _)⟩
  · simp at h

/-! ### Documents -/

mutual

/-- What is read as a value stays where it stands apart. -/
theorem value_stays : ∀ {bound : Nat} {s rest : List CodePoint} {x : Json},
    Json.value dialect bound s = .ok (x, rest) → Apart rest → Stays s rest
  | 0, _, _, _, h, _ => by simp [Json.value] at h
  | bound + 1, s, rest, x, h, hrest => by
    unfold Json.value at h
    split at h
    case h_1 s =>
      obtain ⟨⟨t, after⟩, hstring, h⟩ := ok_of_bind_ok h
      obtain ⟨-, rfl⟩ := Prod.mk.inj (Except.ok.inj h)
      exact stays_string hstring
    case h_2 s =>
      split at h
      · rename_i after hclose
        obtain ⟨-, rfl⟩ := Prod.mk.inj (Except.ok.inj h)
        exact (stays_opening rfl s).closing hclose rfl
      · obtain ⟨⟨xs, after⟩, hxs, h⟩ := ok_of_bind_ok h
        obtain ⟨-, rfl⟩ := Prod.mk.inj (Except.ok.inj h)
        exact (stays_opening rfl s).trans (elements_stay hxs)
    case h_3 s =>
      split at h
      · rename_i after hclose
        obtain ⟨-, rfl⟩ := Prod.mk.inj (Except.ok.inj h)
        exact (stays_opening rfl s).closing hclose rfl
      · obtain ⟨⟨ps, after⟩, hps, h⟩ := ok_of_bind_ok h
        obtain ⟨-, rfl⟩ := Prod.mk.inj (Except.ok.inj h)
        exact (stays_opening rfl s).trans (members_stay hps)
    case h_10 s _ =>
      obtain ⟨c, t, rfl, hc, ht⟩ := cons_of_number h
      exact stays_bare rfl (ht.cons hc) hrest
    case h_11 =>
      obtain ⟨c, t, rfl, hc, ht⟩ := cons_of_number h
      exact stays_bare hc ht hrest
    -- the words
    all_goals
      obtain ⟨-, rfl⟩ := Prod.mk.inj (Except.ok.inj h)
      refine stays_bare (by decide) ?_ hrest
      repeat' first | exact .refl _ | refine .cons (by decide) ?_

theorem elements_stay : ∀ {bound : Nat} {s rest : List CodePoint} {xs : List Json},
    Json.elements dialect bound s = .ok (xs, rest) → Stays s rest
  | 0, _, _, _, h => by simp [Json.elements] at h
  | bound + 1, s, rest, xs, h => by
    unfold Json.elements at h
    obtain ⟨⟨x, more⟩, hx, h⟩ := ok_of_bind_ok h
    dsimp only at h
    split at h
    · rename_i after hclose
      obtain ⟨-, rfl⟩ := Prod.mk.inj (Except.ok.inj h)
      exact (value_stays hx (apart_of_skipSpace hclose (.inr rfl))).closing hclose rfl
    · rename_i after hcomma
      obtain ⟨⟨xs, rest'⟩, hxs, h⟩ := ok_of_bind_ok h
      obtain ⟨-, rfl⟩ := Prod.mk.inj (Except.ok.inj h)
      exact (value_stays hx (apart_of_skipSpace hcomma (.inl rfl))).comma hcomma (elements_stay hxs)
    · simp at h

theorem members_stay : ∀ {bound : Nat} {s rest : List CodePoint} {ps : List (Text × Json)},
    Json.members dialect bound s = .ok (ps, rest) → Stays s rest
  | 0, _, _, _, h => by simp [Json.members] at h
  | bound + 1, s, rest, ps, h => by
    unfold Json.members at h
    split at h
    case h_2 => simp at h
    rename_i text
    obtain ⟨⟨name, more⟩, hname, h⟩ := ok_of_bind_ok h
    dsimp only at h
    split at h
    case h_2 => simp at h
    rename_i after hcolon
    obtain ⟨⟨x, more'⟩, hx, h⟩ := ok_of_bind_ok h
    have hmember : Apart more' → Stays ('"' :: text) more' := fun hapart =>
      (stays_string hname).colon hcolon (value_stays hx hapart)
    dsimp only at h
    split at h
    · rename_i after' hclose
      obtain ⟨-, rfl⟩ := Prod.mk.inj (Except.ok.inj h)
      exact (hmember (apart_of_skipSpace hclose (.inr rfl))).closing hclose rfl
    · rename_i after' hcomma
      obtain ⟨⟨ps, rest'⟩, hps, h⟩ := ok_of_bind_ok h
      obtain ⟨-, rfl⟩ := Prod.mk.inj (Except.ok.inj h)
      exact (hmember (apart_of_skipSpace hcomma (.inl rfl))).comma hcomma (members_stay hps)
    · simp at h

end

/-- A text that some reader of JSON accepts stays as it is, character by character. -/
theorem json_stays {dialect : Dialect} {s : List CodePoint} {v : Json}
    (h : Json.parse dialect s = .ok v) : asJson s = .ok s := by
  unfold Json.parse Json.read at h
  rcases hvalue : Json.value dialect (s.length + 1) (Json.skipSpace s) with why | ⟨x, rest⟩
  · simp [hvalue, bind, Except.bind, Except.mapError] at h
  · have hend : Json.skipSpace rest = [] := by
      by_contra hrest
      simp [hvalue, bind, Except.bind, Except.mapError, hrest] at h
    obtain ⟨before, hbefore⟩ := exists_gap s
    obtain ⟨after, hafter⟩ := exists_gap rest
    rw [hend, List.append_nil] at hafter
    subst hafter
    obtain ⟨w, hw, -, hbecomes⟩ := value_stays hvalue (apart_space after)
    rw [hbefore, hw]
    exact asJson_of_becomes before after hbecomes

/-- Words that are numbers, signs and letters in numbers, escapes that no writer chooses, half of a
    pair of units, and white space of all kinds. -/
def unusual : List CodePoint :=
  ("\t[-Infinity , NaN,\r\n\x7b\"'\\ud800\\\"\\/\" :-0.5E+2 , \"a:\": [\t]\x7d ]\n" : Text).toList

theorem json_stays_unusual :
    (∃ v, Json.parse {} unusual = .ok v) ∧ asJson unusual = .ok unusual := by
  have hread : (Json.parse {} unusual).isOk = true := by decide +kernel
  cases h : Json.parse {} unusual with
  | error why =>
    rw [h] at hread
    exact absurd hread (by simp [Except.isOk, Except.toBool])
  | ok v => exact ⟨⟨v, rfl⟩, json_stays h⟩

end TraitIndex.Literal
