import TraitIndex.Json.Document
import TraitIndex.Proofs.QuotedExtent
import TraitIndex.Proofs.Units

/-! The value of a quoted text.

    A script has more escapes than JSON: a character by two digits or by its code point in braces, a
    zero, a vertical tab, any other character for itself, and a line end that does not count.
    `denoted?` says what a text between quotes denotes there, in sixteen-bit units. What is made of
    the text in JSON denotes the same units if it uses no escape but those that both have, and the
    one of a single quote; if it uses any other, it is no JSON. -/

namespace TraitIndex.Literal

/-! ### Scripts -/

/-- A character that ends a line. -/
def isLineEnd (c : CodePoint) : Bool := c == '\n' || c == '\r' || c == '\u2028' || c == '\u2029'

/-- The control character that a letter behind a backslash denotes. -/
def letterEscape? : CodePoint → Option CodePoint
  | 'b' => some '\x08'
  | 't' => some '\t'
  | 'n' => some '\n'
  | 'v' => some '\x0b'
  | 'f' => some '\x0c'
  | 'r' => some '\r'
  | _ => none

def isHexDigit (c : CodePoint) : Bool := (Text.hexValue? c).isSome

/-- The units of a code point in braces, the first of which is already read, and what follows. -/
def braced? (s : List CodePoint) : Option (List Nat × List CodePoint) :=
  let digits := s.takeWhile isHexDigit
  let n := Text.ofDigits 16 (digits.filterMap Text.hexValue?)
  match s.dropWhile isHexDigit with
  | '}' :: after => if digits ≠ [] ∧ n < 0x110000 then some (Text.units n, after) else none
  | _ => none

/-- The units that an escape denotes behind its backslash, and what follows it. A zero is one only
    if no digit follows, and other digits are none. -/
def escape? : List CodePoint → Option (List Nat × List CodePoint)
  | [] => none
  | 'u' :: '{' :: s => braced? s
  | 'u' :: a :: b :: c :: d :: after => (Json.unit? a b c d).map fun n => ([n], after)
  | 'x' :: a :: b :: after => do
    return ([Text.ofDigits 16 [← Text.hexValue? a, ← Text.hexValue? b]], after)
  | '\r' :: '\n' :: after => some ([], after)
  | c :: after =>
    if isLineEnd c then some ([], after)
    else if c = '0' ∧ after.head?.all (! ·.isDigit) then some ([0], after)
    else if c = 'u' ∨ c = 'x' ∨ c.isDigit then none
    else some (Text.units ((letterEscape? c).getD c).toNat, after)

theorem length_lt_of_braced? {s after : List CodePoint} {us : List Nat}
    (h : braced? s = some (us, after)) : after.length < s.length := by
  simp only [braced?] at h
  split at h
  · rename_i after' hdrop
    split at h
    · obtain ⟨-, rfl⟩ := Prod.mk.inj (Option.some.inj h)
      have hle := (List.dropWhile_suffix isHexDigit (l := s)).length_le
      rw [hdrop, List.length_cons] at hle
      omega
    · exact absurd h (by simp)
  · exact absurd h (by simp)

/-- What follows an escape is shorter than the text with it. -/
theorem length_lt_of_escape? {s after : List CodePoint} {us : List Nat}
    (h : escape? s = some (us, after)) : after.length < s.length := by
  unfold escape? at h
  split at h
  · exact absurd h (by simp)
  · have := length_lt_of_braced? h
    simp only [List.length_cons]
    omega
  · obtain ⟨n, -, hn⟩ := Option.map_eq_some_iff.1 h
    obtain ⟨-, rfl⟩ := Prod.mk.inj hn
    simp only [List.length_cons]
    omega
  · simp only [Option.bind_eq_bind, Option.bind_eq_some_iff, Option.pure_def, Option.some.injEq,
      Prod.mk.injEq] at h
    obtain ⟨_, -, _, -, -, rfl⟩ := h
    simp only [List.length_cons]
    omega
  · obtain ⟨-, rfl⟩ := Prod.mk.inj (Option.some.inj h)
    simp only [List.length_cons]
    omega
  · rename_i c rest _ _ _ _
    have hrest : rest = after := by
      split at h
      · exact (Prod.mk.inj (Option.some.inj h)).2
      · split at h
        · exact (Prod.mk.inj (Option.some.inj h)).2
        · split at h
          · exact absurd h (by simp)
          · exact (Prod.mk.inj (Option.some.inj h)).2
    rw [hrest, List.length_cons]
    exact Nat.lt_succ_self _

/-- The units that the characters between two quotes denote; line breaks stand for themselves. -/
def denoted? : List CodePoint → Option (List Nat)
  | [] => some []
  | '\\' :: s =>
    match _h : escape? s with
    | some (us, after) => (denoted? after).map (us ++ ·)
    | none => none
  | c :: s => (denoted? s).map (Text.units c.toNat ++ ·)
termination_by s => s.length
decreasing_by
  · have := length_lt_of_escape? _h
    simp only [List.length_cons]
    omega
  · simp

/-! ### Shared escapes -/

/-- The characters that make an escape with a backslash in JSON, and the single quote. -/
def sharedLetters : List CodePoint := ['\\', '"', '\'', '/', 'b', 'f', 'n', 'r', 't']

/-- What follows a backslash starts with an escape that JSON has as well, or that of a single
    quote. -/
def IsShared (s : List CodePoint) : Prop :=
  (∃ c rest, s = c :: rest ∧ c ∈ sharedLetters) ∨
    ∃ x₁ x₂ x₃ x₄ rest, s = .char 'u' :: x₁ :: x₂ :: x₃ :: x₄ :: rest ∧
      ∀ x ∈ [x₁, x₂, x₃, x₄], isHexDigit x = true

/-- The text uses an escape of another kind. -/
def UsesOther (t : List CodePoint) : Prop := ∃ k, Unescaped '\\' t k ∧ ¬ IsShared (t.drop (k + 1))

/-- The character that is written in JSON by a backslash and a character, or as a single quote. -/
def sharedEscape? (c : CodePoint) : Option CodePoint :=
  if c = '\'' then some '\'' else Json.plainEscape? c

variable {quote c d : CodePoint} {t rest : List CodePoint}

theorem not_usesOther_nil : ¬ UsesOther [] := by
  rintro ⟨k, ⟨h, -⟩, -⟩
  exact absurd h (by simp)

theorem usesOther_plain (hb : c ≠ '\\') : UsesOther (c :: t) ↔ UsesOther t := by
  constructor
  · rintro ⟨_ | k, hk, hother⟩
    · exact absurd (unescaped_zero.1 hk) hb
    · exact ⟨k, (unescaped_plain_succ hb).1 hk, hother⟩
  · rintro ⟨k, hk, hother⟩
    exact ⟨k + 1, (unescaped_plain_succ hb).2 hk, hother⟩

theorem usesOther_escape (c : CodePoint) (t : List CodePoint) :
    UsesOther ('\\' :: c :: t) ↔ ¬ IsShared (c :: t) ∨ UsesOther t := by
  constructor
  · rintro ⟨_ | _ | k, hk, hother⟩
    · exact .inl hother
    · exact absurd hk (not_unescaped_escape_one c)
    · exact .inr ⟨k, (unescaped_escape_succ c).1 hk, hother⟩
  · rintro (hother | ⟨k, hk, hother⟩)
    · exact ⟨0, unescaped_zero.2 rfl, hother⟩
    · exact ⟨k + 2, (unescaped_escape_succ c).2 hk, hother⟩

/-! ### Reading what is made of a text -/

/-- A character that is no backslash is read as itself. -/
theorem pieces?_inJson_plain (hb : c ≠ '\\') (t r : List CodePoint) :
    Json.pieces? true (inJson (c :: t) ++ r) =
      (Json.pieces? true (inJson t ++ r)).map fun p => (.char c :: p.1, p.2) := by
  rw [inJson_plain hb]
  by_cases hd : c = '"'
  · rw [if_pos hd, hd]
    show Json.pieces? true ('\\' :: '"' :: (inJson t ++ r)) = _
    rw [Json.pieces?_escape fun _ _ _ _ _ h => absurd h (by decide)]
    rfl
  · rw [if_neg hd]
    exact Json.pieces?_plain hd hb (fun _ => rfl) _

theorem pieces?_inJson_shared (hc : sharedEscape? c = some d) (t r : List CodePoint) :
    Json.pieces? true (inJson ('\\' :: c :: t) ++ r) =
      (Json.pieces? true (inJson t ++ r)).map fun p => (.char d :: p.1, p.2) := by
  rw [sharedEscape?] at hc
  rw [inJson]
  by_cases hs : c = '\''
  · rw [if_pos hs, ← Option.some.inj ((if_pos hs).symm.trans hc)]
    exact Json.pieces?_plain (by decide) (by decide) (fun _ => rfl) _
  · rw [if_neg hs] at hc ⊢
    show Json.pieces? true ('\\' :: c :: (inJson t ++ r)) = _
    rw [Json.pieces?_escape fun _ _ _ _ _ h => absurd h (Json.ne_of_plainEscape? hc), hc]
    rfl

/-- The digits of a unit stay as they are. -/
theorem pieces?_inJson_unit {x₁ x₂ x₃ x₄ : CodePoint} {n : Nat}
    (hx : Json.unit? x₁ x₂ x₃ x₄ = some n) (t r : List CodePoint) :
    Json.pieces? true (inJson ('\\' :: 'u' :: x₁ :: x₂ :: x₃ :: x₄ :: t) ++ r) =
      (Json.pieces? true (inJson t ++ r)).map fun p => (.unit n :: p.1, p.2) := by
  obtain ⟨b₁, b₂, b₃, b₄⟩ := ne_of_unit? (c := '\\') hx (by decide)
  obtain ⟨d₁, d₂, d₃, d₄⟩ := ne_of_unit? (c := '"') hx (by decide)
  rw [inJson, inJson_plain b₁, inJson_plain b₂, inJson_plain b₃, inJson_plain b₄]
  simp only [d₁, d₂, d₃, d₄, if_false, if_neg (by decide : ¬ CodePoint.char 'u' = .char '\'')]
  show Json.pieces? true ('\\' :: 'u' :: x₁ :: x₂ :: x₃ :: x₄ :: (inJson t ++ r)) = _
  rw [Json.pieces?_unit, hx]
  rfl

theorem unit?_isSome_iff {a b c d : CodePoint} :
    (Json.unit? a b c d).isSome ↔ ∀ x ∈ [a, b, c, d], isHexDigit x = true := by
  simp only [Json.unit?, isHexDigit, List.forall_mem_cons]
  rcases Text.hexValue? a with _ | _ <;> rcases Text.hexValue? b with _ | _ <;>
    rcases Text.hexValue? c with _ | _ <;> rcases Text.hexValue? d with _ | _ <;> simp

/-- A hexadecimal digit in JSON was one before. -/
theorem head_of_inJson {x : CodePoint} {r : List CodePoint} (hx : isHexDigit x = true)
    (h : inJson t ++ [.char '"'] = x :: r) : ∃ t', t = x :: t' ∧ inJson t' ++ [.char '"'] = r := by
  have hne : ∀ c : CodePoint, isHexDigit c = false → c ≠ x := by
    rintro c hc rfl
    exact absurd (hc.symm.trans hx) (by simp)
  rcases t with _ | ⟨c, t⟩
  · exact absurd (List.cons.inj h).1 (hne _ (by decide))
  · by_cases hb : c = '\\'
    · rw [hb] at h
      rcases t with _ | ⟨e, t⟩
      · exact absurd (List.cons.inj h).1 (hne _ (by decide))
      · rw [inJson] at h
        split at h
        · exact absurd (List.cons.inj h).1 (hne _ (by decide))
        · exact absurd (List.cons.inj h).1 (hne _ (by decide))
    · rw [inJson_plain hb] at h
      split at h
      · exact absurd (List.cons.inj h).1 (hne _ (by decide))
      · obtain ⟨rfl, hr⟩ := List.cons.inj h
        exact ⟨t, rfl, hr⟩

theorem mem_of_plainEscape? (h : Json.plainEscape? c = some d) :
    c ∈ sharedLetters := by
  unfold Json.plainEscape? at h
  split at h
  case h_9 => exact absurd h (by simp)
  all_goals decide

/-- Behind a backslash JSON reads shared escapes only. -/
theorem pieces?_inJson_other (hother : ¬ IsShared (c :: t)) :
    Json.pieces? true (inJson (.char '\\' :: c :: t) ++ [.char '"']) = none := by
  have hc : c ∉ sharedLetters :=
    fun hc => hother (.inl ⟨c, t, rfl, hc⟩)
  have hs : c ≠ '\'' := by
    rintro rfl
    exact hc (by decide)
  rw [inJson, if_neg hs]
  show Json.pieces? true (.char '\\' :: c :: (inJson t ++ [.char '"'])) = none
  by_cases hu : ∃ x₁ x₂ x₃ x₄ r, c = .char 'u' ∧ inJson t ++ [.char '"'] = x₁ :: x₂ :: x₃ :: x₄ :: r
  · obtain ⟨x₁, x₂, x₃, x₄, r, rfl, hr⟩ := hu
    have hunit : Json.unit? x₁ x₂ x₃ x₄ = none := by
      rw [← Option.not_isSome_iff_eq_none, unit?_isSome_iff]
      intro hdigits
      simp only [List.forall_mem_cons] at hdigits
      obtain ⟨h₁, h₂, h₃, h₄, -⟩ := hdigits
      obtain ⟨t₁, rfl, hr₁⟩ := head_of_inJson h₁ hr
      obtain ⟨t₂, rfl, hr₂⟩ := head_of_inJson h₂ hr₁
      obtain ⟨t₃, rfl, hr₃⟩ := head_of_inJson h₃ hr₂
      obtain ⟨t₄, rfl, -⟩ := head_of_inJson h₄ hr₃
      exact hother (.inr ⟨_, _, _, _, _, rfl, by simp [h₁, h₂, h₃, h₄]⟩)
    rw [hr, Json.pieces?_unit, hunit]
    rfl
  · have hplain : Json.plainEscape? c = none :=
      Option.eq_none_iff_forall_ne_some.2 fun d hd => hc (mem_of_plainEscape? hd)
    rw [Json.pieces?_escape fun a b d e r hu' hr => hu ⟨a, b, d, e, r, hu', hr⟩, hplain]
    rfl

/-! ### Texts of shared escapes -/

/-- A text all escapes of which are shared, with the pieces that it denotes. -/
inductive Shared : List CodePoint → List Json.Piece → Prop where
  | nil : Shared [] []
  | plain {c : CodePoint} {t : List CodePoint} {ps : List Json.Piece} (hb : c ≠ '\\')
      (ht : Shared t ps) :
    Shared (c :: t) (.char c :: ps)
  | short {c d : CodePoint} {t : List CodePoint} {ps : List Json.Piece}
      (hc : sharedEscape? c = some d)
    (ht : Shared t ps) : Shared ('\\' :: c :: t) (.char d :: ps)
  | unit {x₁ x₂ x₃ x₄ : CodePoint} {n : Nat} {t : List CodePoint} {ps : List Json.Piece}
    (hx : Json.unit? x₁ x₂ x₃ x₄ = some n) (ht : Shared t ps) :
    Shared ('\\' :: 'u' :: x₁ :: x₂ :: x₃ :: x₄ :: t) (.unit n :: ps)

variable {ps : List Json.Piece}

theorem Shared.pieces? (h : Shared t ps) (r : List CodePoint) :
    Json.pieces? true (inJson t ++ .char '"' :: r) = some (ps, r) := by
  induction h with
  | nil => rfl
  | plain hb _ ih =>
    rw [pieces?_inJson_plain hb, ih]
    rfl
  | short hc _ ih =>
    rw [pieces?_inJson_shared hc, ih]
    rfl
  | unit hx _ ih =>
    rw [pieces?_inJson_unit hx, ih]
    rfl

theorem denoted?_plain (hb : c ≠ '\\') (t : List CodePoint) :
    denoted? (c :: t) = (denoted? t).map (Text.units c.toNat ++ ·) := by
  rw [denoted?]
  exact fun h => absurd h hb

theorem denoted?_escape {s after : List CodePoint} {us : List Nat}
    (h : escape? s = some (us, after)) :
    denoted? ('\\' :: s) = (denoted? after).map (us ++ ·) := by
  rw [denoted?]
  split
  · rename_i h'
    obtain ⟨rfl, rfl⟩ := Prod.mk.inj (Option.some.inj (h'.symm.trans h))
    rfl
  · rename_i h'
    exact absurd (h'.symm.trans h) (by simp)

theorem escape?_shared (hc : sharedEscape? c = some d) (t : List CodePoint) :
    escape? (c :: t) = some (Text.units d.toNat, t) := by
  rw [sharedEscape?] at hc
  split at hc
  · rename_i hs
    rw [hs, ← Option.some.inj hc]
    rfl
  · unfold Json.plainEscape? at hc
    split at hc
    case h_9 => exact absurd hc (by simp)
    all_goals
      rw [← Option.some.inj hc]
      rfl

theorem escape?_unit {x₁ x₂ x₃ x₄ : CodePoint} {n : Nat} (hx : Json.unit? x₁ x₂ x₃ x₄ = some n)
    (t : List CodePoint) : escape? ('u' :: x₁ :: x₂ :: x₃ :: x₄ :: t) = some ([n], t) := by
  rw [escape?, hx]
  · rfl
  · exact fun h => absurd h (ne_of_unit? (c := '{') hx (by decide)).1

theorem Shared.denoted? (h : Shared t ps) : denoted? t = some (ps.flatMap Json.pieceUnits) := by
  induction h with
  | nil =>
    rw [Literal.denoted?]
    rfl
  | plain hb _ ih =>
    rw [denoted?_plain hb, ih]
    rfl
  | short hc _ ih =>
    rw [denoted?_escape (escape?_shared hc _), ih]
    rfl
  | unit hx _ ih =>
    rw [denoted?_escape (escape?_unit hx _), ih]
    rfl

/-- A shared escape is a character or a unit. -/
theorem IsShared.cases (h : IsShared (c :: t)) : (∃ d, sharedEscape? c = some d) ∨
    ∃ x₁ x₂ x₃ x₄ n t', c = 'u' ∧ t = x₁ :: x₂ :: x₃ :: x₄ :: t' ∧
      Json.unit? x₁ x₂ x₃ x₄ = some n := by
  rcases h with ⟨c', t', hct, hmem⟩ | ⟨x₁, x₂, x₃, x₄, t', hct, hdigits⟩
  · obtain ⟨rfl, -⟩ := List.cons.inj hct
    have hsome : ∀ c ∈ sharedLetters,
        (sharedEscape? c).isSome = true := List.all_eq_true.1 rfl
    exact .inl (Option.isSome_iff_exists.1 (hsome c hmem))
  · obtain ⟨rfl, rfl⟩ := List.cons.inj hct
    obtain ⟨n, hn⟩ := Option.isSome_iff_exists.1 (unit?_isSome_iff.2 hdigits)
    exact .inr ⟨x₁, x₂, x₃, x₄, n, t', rfl, rfl, hn⟩

theorem usesOther_unit {x₁ x₂ x₃ x₄ : CodePoint} {n : Nat} (hx : Json.unit? x₁ x₂ x₃ x₄ = some n)
    (t : List CodePoint) : UsesOther ('\\' :: 'u' :: x₁ :: x₂ :: x₃ :: x₄ :: t) ↔ UsesOther t := by
  have hshared : IsShared ('u' :: x₁ :: x₂ :: x₃ :: x₄ :: t) :=
    .inr ⟨_, _, _, _, _, rfl, unit?_isSome_iff.1 (by rw [hx]; rfl)⟩
  obtain ⟨b₁, b₂, b₃, b₄⟩ := ne_of_unit? (c := '\\') hx (by decide)
  rw [usesOther_escape, usesOther_plain b₁, usesOther_plain b₂, usesOther_plain b₃,
    usesOther_plain b₄]
  exact or_iff_right (not_not_intro hshared)

theorem Inside.of_plain (h : Inside quote (c :: t)) (hb : c ≠ '\\') : Inside quote t := by
  cases h with
  | plain _ _ ht => exact ht
  | escape _ _ => exact absurd rfl hb

theorem Inside.of_unit {x₁ x₂ x₃ x₄ : CodePoint} {n : Nat} (hx : Json.unit? x₁ x₂ x₃ x₄ = some n)
    (h : Inside quote (x₁ :: x₂ :: x₃ :: x₄ :: t)) : Inside quote t := by
  obtain ⟨b₁, b₂, b₃, b₄⟩ := ne_of_unit? (c := '\\') hx (by decide)
  exact (((h.of_plain b₁).of_plain b₂).of_plain b₃).of_plain b₄

/-- Either a text uses shared escapes only, or what is made of it is not read. -/
def SharedOrOther (t : List CodePoint) : Prop :=
  ¬ UsesOther t ∧ (∃ ps, Shared t ps) ∨
    UsesOther t ∧ Json.pieces? true (inJson t ++ [.char '"']) = none

theorem SharedOrOther.cons {s : List CodePoint} (h : SharedOrOther t) {p : Json.Piece}
    (huses : UsesOther s ↔ UsesOther t) (hshared : ∀ {ps}, Shared t ps → Shared s (p :: ps))
    (hpieces : Json.pieces? true (inJson s ++ [.char '"']) =
      (Json.pieces? true (inJson t ++ [.char '"'])).map fun q => (p :: q.1, q.2)) :
    SharedOrOther s := by
  rcases h with ⟨hnot, ps, hps⟩ | ⟨hother, hnone⟩
  · exact .inl ⟨fun h => hnot (huses.1 h), _, hshared hps⟩
  · refine .inr ⟨huses.2 hother, ?_⟩
    rw [hpieces, hnone]
    rfl

theorem Inside.sharedOrOther (ht : Inside quote t) : SharedOrOther t := by
  induction hn : t.length using Nat.strong_induction_on generalizing t with
  | _ n ih =>
    subst hn
    cases ht with
    | nil => exact .inl ⟨not_usesOther_nil, [], .nil⟩
    | @plain c t _ hb ht =>
      exact (ih _ (by simp) ht rfl).cons (usesOther_plain hb) (.plain hb)
        (pieces?_inJson_plain hb t _)
    | @escape c t ht =>
      by_cases hshared : IsShared (c :: t)
      · rcases hshared.cases with ⟨d, hd⟩ | ⟨x₁, x₂, x₃, x₄, n, t', rfl, rfl, hx⟩
        · have hlt : t.length < (.char '\\' :: c :: t).length := by
            simp only [List.length_cons]
            omega
          refine (ih _ hlt ht rfl).cons ?_ (.short hd) (pieces?_inJson_shared hd t _)
          rw [usesOther_escape]
          exact or_iff_right (not_not_intro hshared)
        · have hlt : t'.length <
            (.char '\\' :: .char 'u' :: x₁ :: x₂ :: x₃ :: x₄ :: t').length := by
            simp only [List.length_cons]
            omega
          exact (ih _ hlt (ht.of_unit hx) rfl).cons (usesOther_unit hx t') (.unit hx)
            (pieces?_inJson_unit hx t' _)
      · exact .inr ⟨(usesOther_escape c t).2 (.inl hshared), pieces?_inJson_other hshared⟩

/-! ### The value -/

theorem hexValue?_lt {x : CodePoint} {d : Nat} (h : Text.hexValue? x = some d) : d < 16 := by
  have hle : ∀ a b : CodePoint, a ≤ b → a.toNat ≤ b.toNat := fun a b hab => hab
  unfold Text.hexValue? at h
  split at h
  · rename_i hx
    have := hle _ _ hx.2
    simp only [CodePoint.toNat_char, Char.reduceToNat, Option.some.injEq] at this h
    omega
  · split at h
    · rename_i hx
      have := hle _ _ hx.2
      simp only [CodePoint.toNat_char, Char.reduceToNat, Option.some.injEq] at this h
      omega
    · split at h
      · rename_i hx
        have := hle _ _ hx.2
        simp only [CodePoint.toNat_char, Char.reduceToNat, Option.some.injEq] at this h
        omega
      · exact absurd h (by simp)

/-- Four digits denote no more than one unit. -/
theorem unit?_lt {a b c d : CodePoint} {n : Nat} (h : Json.unit? a b c d = some n) :
    n < 0x10000 := by
  simp only [Json.unit?, Option.bind_eq_bind, Option.bind_eq_some_iff, Option.pure_def,
    Option.some.injEq] at h
  obtain ⟨d₁, h₁, d₂, h₂, d₃, h₃, d₄, h₄, rfl⟩ := h
  have := hexValue?_lt h₁
  have := hexValue?_lt h₂
  have := hexValue?_lt h₃
  have := hexValue?_lt h₄
  simp only [Text.ofDigits, List.foldl_cons, List.foldl_nil]
  omega

theorem units_lt (c : CodePoint) : ∀ n ∈ Text.units c.toNat, n < 0x10000 := by
  have hc := c.toNat_lt
  unfold Text.units
  split
  · rename_i hlt
    exact List.forall_mem_singleton.2 hlt
  · refine List.forall_mem_cons.2 ⟨by omega, List.forall_mem_singleton.2 (by omega)⟩

theorem Shared.lt (h : Shared t ps) : ∀ n ∈ ps.flatMap Json.pieceUnits, n < 0x10000 := by
  induction h with
  | nil => exact List.forall_mem_nil _
  | plain _ _ ih | short _ _ ih => exact List.forall_mem_append.2 ⟨units_lt _, ih⟩
  | unit hx _ ih => exact List.forall_mem_cons.2 ⟨unit?_lt hx, ih⟩

/-- What is made of a text of shared escapes denotes what the text denotes. -/
theorem Shared.parse (h : Shared t ps) :
    ∃ text,
      Json.parse { rawControls := true } (.char '"' :: inJson t ++ [.char '"']) = .ok (.text text) ∧
        Text.textUnits text.toList = ps.flatMap Json.pieceUnits := by
  have hread : Json.read { rawControls := true } ('"' :: (inJson t ++ [.char '"'])) = _ :=
    Json.read_text (h.pieces? [])
  refine ⟨Text.ofList (Json.join ps), ?_, Json.textUnits_join h.lt⟩
  rw [Json.parse, List.cons_append, hread]
  rfl

/-- A quoted text whose quote is at some place of a source is refused if no quote of its kind that
    is not escaped follows, and else read to the first of these. What is made of it in JSON is no
    JSON if it uses an escape of another kind. If it does not, it is read, and denotes what the
    quoted text denotes, unit by unit. -/
theorem quoted_text_means_value {source : List CodePoint} {i : Nat} {quote : CodePoint}
    (hi : source[i]? = some quote) (hq : isQuote quote = true) :
    (quoted (source.drop i) = .error .unterminatedText ↔
      ∀ k, ¬ Unescaped quote (source.drop (i + 1)) k) ∧
    ∀ k t, Unescaped quote (source.drop (i + 1)) k →
      (∀ j < k, ¬ Unescaped quote (source.drop (i + 1)) j) → t = (source.drop (i + 1)).take k →
      ∃ json, quoted (source.drop i) = .ok (json, source.drop (i + 1 + (k + 1))) ∧
        (UsesOther t → Json.parse { rawControls := true } json = .error .malformedJson) ∧
        (¬ UsesOther t → ∃ us text, denoted? t = some us ∧
          Json.parse { rawControls := true } json = .ok (.text text) ∧
          Text.textUnits text.toList = us) := by
  have hquote := ne_backslash_of_isQuote hq
  have hsource : source.drop i = quote :: source.drop (i + 1) := by
    obtain ⟨hlt, rfl⟩ := List.getElem?_eq_some_iff.1 hi
    exact List.drop_eq_getElem_cons hlt
  constructor
  · rw [← body_eq_none_iff hquote, hsource, quoted]
    rcases body quote (source.drop (i + 1)) with _ | p
    · simp
    · simp
  · rintro k t hk hfirst rfl
    have hinside := inside_take hk hfirst
    refine ⟨.char '"' :: inJson ((source.drop (i + 1)).take k) ++ [.char '"'], ?_, fun hother => ?_,
      fun hnot => ?_⟩
    · rw [hsource, quoted, body_of_first hquote hk hfirst, List.drop_drop]
    · rcases hinside.sharedOrOther with ⟨hnot, -⟩ | ⟨-, hnone⟩
      · exact absurd hother hnot
      · have hread : Json.read { rawControls := true }
            (.char '"' :: (inJson ((source.drop (i + 1)).take k) ++ [.char '"'])) = _ :=
          Json.read_text_none hnone
        rw [Json.parse, List.cons_append, hread]
        rfl
    · rcases hinside.sharedOrOther with ⟨-, ps, hps⟩ | ⟨hother, -⟩
      · obtain ⟨text, hparse, hunits⟩ := hps.parse
        exact ⟨_, text, hps.denoted?, hparse, hunits⟩
      · exact absurd hother hnot

/-- An escaped quote before the one that ends the text. -/
theorem quoted_text_means_value_escaped :
    ("'\\'';" : Text).toList[0]? = some (.char '\'') ∧ isQuote '\'' = true ∧
      ∃ json us text, quoted ("'\\'';" : Text).toList = .ok (json, [';']) ∧
        denoted? ['\\', '\''] = some us ∧
        Json.parse { rawControls := true } json = .ok (.text text) ∧
        Text.textUnits text.toList = us := by
  have hshared : ¬ UsesOther ['\\', '\''] := by
    rw [usesOther_escape]
    rintro (hother | hnil)
    · exact hother (.inl ⟨_, _, rfl, by decide⟩)
    · exact not_usesOther_nil hnil
  obtain ⟨-, hmeans⟩ :=
    @quoted_text_means_value ("'\\'';" : Text).toList 0 '\'' rfl rfl
  obtain ⟨json, hquoted, -, hvalue⟩ :=
    hmeans 2 ['\\', '\''] (by decide) (by decide) rfl
  obtain ⟨us, text, hus, hparse, hunits⟩ := hvalue hshared
  exact ⟨rfl, rfl, json, us, text, hquoted, hus, hparse, hunits⟩

end TraitIndex.Literal
