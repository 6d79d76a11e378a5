import TraitIndex.Json.Reader
import TraitIndex.Literal.Quoted
import TraitIndex.Proofs.Units
import TraitIndex.Text.Blank

/-! Ways to write a text.

    In JSON a character stands between the quotes as it is or by an escape, and most characters can
    be written in several ways. `Json.TextForm` relates a text to every way to write it, and
    whichever is chosen `Json.string` reads the text back. In a literal there are two kinds of
    quotes and one escape more; `Literal.TextForm` relates a text to the ways to write it there and
    to the JSON that `Literal.body` makes of each. -/

namespace TraitIndex

namespace Json

/-- A way to write a code point between the quotes: as it is or by an escape. A control character
    stands for itself only where it may. The half that opens a pair has no escape, for it would be
    taken together with what follows it. -/
inductive CharForm (controls : Bool) (c : CodePoint) : List CodePoint → Prop where
  | raw (hq : c ≠ '"') (hb : c ≠ '\\') (hc : c < ' ' → controls = true) : CharForm controls c [c]
  | short {e : CodePoint} (he : plainEscape? e = some c) : CharForm controls c ['\\', e]
  | unit {x₁ x₂ x₃ x₄ : CodePoint} (hx : unit? x₁ x₂ x₃ x₄ = some c.toNat)
    (hc : Text.isHigh c.toNat = false) : CharForm controls c ['\\', 'u', x₁, x₂, x₃, x₄]
  | pair {x₁ x₂ x₃ x₄ y₁ y₂ y₃ y₄ : CodePoint} {high low : Nat} (hx : unit? x₁ x₂ x₃ x₄ = some high)
    (hy : unit? y₁ y₂ y₃ y₄ = some low) (hh : Text.isHigh high = true)
    (hl : Text.isLow low = true) (hc : Text.pairedUnits high low = c) :
    CharForm controls c ['\\', 'u', x₁, x₂, x₃, x₄, '\\', 'u', y₁, y₂, y₃, y₄]

/-- A way to write a text between the quotes, each character in any way. -/
inductive TextForm (controls : Bool) : (text written : List CodePoint) → Prop where
  | nil : TextForm controls [] []
  | cons {c : CodePoint} {w s v : List CodePoint} (hc : CharForm controls c w)
    (hs : TextForm controls s v) : TextForm controls (c :: s) (w ++ v)

/-- Where control characters may stand for themselves, all else is as where they may not. -/
theorem CharForm.controls {controls : Bool} {c : CodePoint} {w : List CodePoint}
    (h : CharForm controls c w) : CharForm true c w := by
  cases h with
  | raw hq hb _ => exact .raw hq hb fun _ => rfl
  | short he => exact .short he
  | unit hx hc => exact .unit hx hc
  | pair hx hy hh hl hc => exact .pair hx hy hh hl hc

/-- A way that holds no control character is one where they may not stand for themselves. -/
theorem CharForm.strict {c : CodePoint} {w : List CodePoint} (h : CharForm true c w)
    (hw : ∀ d ∈ w, ¬ d < ' ') : CharForm false c w := by
  cases h with
  | raw hq hb _ => exact .raw hq hb fun hc => absurd hc (hw c (List.mem_singleton_self c))
  | short he => exact .short he
  | unit hx hc => exact .unit hx hc
  | pair hx hy hh hl hc => exact .pair hx hy hh hl hc

/-! ### Reading a text -/

theorem pieces?_plain {controls : Bool} {c : CodePoint} (hq : c ≠ '"') (hb : c ≠ '\\')
    (hc : c < ' ' → controls = true) (rest : List CodePoint) :
    pieces? controls (c :: rest) =
      (pieces? controls rest).map fun p => (.char c :: p.1, p.2) := by
  have hraw : ¬ (c = '\\' ∨ (c < ' ' ∧ controls = false)) := by
    rintro (h | ⟨h, hf⟩)
    · exact hb h
    · exact absurd ((hc h).symm.trans hf) (by simp)
  rw [pieces?, if_neg hraw]
  · rcases pieces? controls rest with _ | p
    · rfl
    · rfl
  · exact fun h => absurd h hq
  · exact fun _ _ _ _ _ h => absurd h hb
  · exact fun _ _ h => absurd h hb

theorem pieces?_escape {controls : Bool} {e : CodePoint} {rest : List CodePoint}
    (hu : ∀ a b c d after, e = 'u' → rest = a :: b :: c :: d :: after → False) :
    pieces? controls ('\\' :: e :: rest) = (plainEscape? e).bind fun c =>
      (pieces? controls rest).map fun p => (.char c :: p.1, p.2) := by
  rw [pieces?]
  · rcases plainEscape? e with _ | c
    · rfl
    · rcases pieces? controls rest with _ | p
      · rfl
      · rfl
  · exact hu

theorem pieces?_unit (controls : Bool) (a b c d : CodePoint) (rest : List CodePoint) :
    pieces? controls ('\\' :: 'u' :: a :: b :: c :: d :: rest) = (unit? a b c d).bind fun n =>
      (pieces? controls rest).map fun p => (.unit n :: p.1, p.2) := by
  rw [pieces?]
  rcases unit? a b c d with _ | n
  · rfl
  · rcases pieces? controls rest with _ | p
    · rfl
    · rfl

theorem ne_of_plainEscape? {e c : CodePoint} (h : plainEscape? e = some c) : e ≠ 'u' := by
  rintro rfl
  exact absurd h (by simp [plainEscape?])

/-- A unit that opens no pair is read as the code point that it is, whatever follows it. -/
theorem join_unit {c : CodePoint} (hc : Text.isHigh c.toNat = false) (ps : List Piece) :
    join (.unit c.toNat :: ps) = c :: join ps := by
  rcases ps with _ | ⟨p, ps⟩
  · show CodePoint.ofNat c.toNat :: join [] = _
    rw [CodePoint.ofNat_toNat]
  · cases p with
    | char d =>
      show CodePoint.ofNat c.toNat :: join (.char d :: ps) = _
      rw [CodePoint.ofNat_toNat]
    | unit l => rw [join, hc, Bool.false_and, if_neg Bool.false_ne_true, CodePoint.ofNat_toNat]

theorem join_pair {high low : Nat} (hh : Text.isHigh high = true) (hl : Text.isLow low = true)
    (ps : List Piece) :
    join (.unit high :: .unit low :: ps) = Text.pairedUnits high low :: join ps := by
  rw [join, hh, hl, Bool.and_self, if_pos rfl]

/-- The pieces of a written character come before those of what follows it, and denote it. -/
theorem CharForm.pieces? {controls : Bool} {c : CodePoint} {w : List CodePoint}
    (h : CharForm controls c w) :
    ∃ ps, (∀ rest, pieces? controls (w ++ rest) =
        (pieces? controls rest).map fun p => (ps ++ p.1, p.2)) ∧
      ∀ qs, join (ps ++ qs) = c :: join qs := by
  cases h with
  | raw hq hb hc => exact ⟨[.char c], pieces?_plain hq hb hc, fun qs => rfl⟩
  | @short e he =>
    refine ⟨[.char c], fun rest => ?_, fun qs => rfl⟩
    show Json.pieces? controls ('\\' :: e :: rest) = _
    rw [pieces?_escape fun _ _ _ _ _ h => absurd h (ne_of_plainEscape? he), he]
    rfl
  | @unit x₁ x₂ x₃ x₄ hx hc =>
    refine ⟨[.unit c.toNat], fun rest => ?_, fun qs => join_unit hc qs⟩
    show Json.pieces? controls ('\\' :: 'u' :: x₁ :: x₂ :: x₃ :: x₄ :: rest) = _
    rw [pieces?_unit, hx]
    rfl
  | @pair x₁ x₂ x₃ x₄ y₁ y₂ y₃ y₄ high low hx hy hh hl hc =>
    refine ⟨[.unit high, .unit low], fun rest => ?_, fun qs => hc ▸ join_pair hh hl qs⟩
    show Json.pieces? controls
      ('\\' :: 'u' :: x₁ :: x₂ :: x₃ :: x₄ :: '\\' :: 'u' :: y₁ :: y₂ :: y₃ :: y₄ :: rest) = _
    rw [pieces?_unit, hx, pieces?_unit, hy, Option.bind_some, Option.bind_some, Option.map_map]
    rfl

/-- The pieces of a written text are read up to its closing quote, and denote it. -/
theorem TextForm.pieces? {controls : Bool} {s w : List CodePoint} (h : TextForm controls s w)
    (rest : List CodePoint) :
    ∃ ps, pieces? controls (w ++ .char '"' :: rest) = some (ps, rest) ∧ join ps = s := by
  induction h with
  | nil => exact ⟨[], rfl, rfl⟩
  | cons hc _ ih =>
    obtain ⟨qs, hqs, hjoin⟩ := ih
    obtain ⟨ps, hps, hc⟩ := hc.pieces?
    refine ⟨ps ++ qs, ?_, ?_⟩
    · rw [List.append_assoc, hps, hqs]
      rfl
    · rw [hc, hjoin]

/-- A text is read back from any way to write it. -/
theorem TextForm.string {dialect : Dialect} {s w : List CodePoint}
    (h : TextForm dialect.rawControls s w) (rest : List CodePoint) :
    string dialect (w ++ .char '"' :: rest) = .ok (Text.ofList s, rest) := by
  obtain ⟨ps, hps, hjoin⟩ := h.pieces? rest
  simp only [Json.string, hps, hjoin]

/-- A document that starts with a quote is a text that ends it, or none. -/
theorem read_text {dialect : Dialect} {s : List CodePoint} {ps : List Piece}
    (h : pieces? dialect.rawControls s = some (ps, [])) :
    read dialect ('"' :: s) = .ok (.text (Text.ofList (join ps))) := by
  have hskip : skipSpace (.char '"' :: s) = .char '"' :: s := rfl
  rw [read, hskip, value, string, h]
  rfl

theorem read_text_none {dialect : Dialect} {s : List CodePoint}
    (h : pieces? dialect.rawControls s = none) : read dialect ('"' :: s) = .error .malformed := by
  have hskip : skipSpace (.char '"' :: s) = .char '"' :: s := rfl
  rw [read, hskip, value, string, h]
  rfl

/-- What stands between the quotes of a text that is read, whatever it denotes: a unit need be no
    character. -/
inductive IsBody (controls : Bool) : List CodePoint → Prop where
  | nil : IsBody controls []
  | unit {x₁ x₂ x₃ x₄ : CodePoint} {n : Nat} {w : List CodePoint} (hx : unit? x₁ x₂ x₃ x₄ = some n)
    (hw : IsBody controls w) : IsBody controls ('\\' :: 'u' :: x₁ :: x₂ :: x₃ :: x₄ :: w)
  | escape {e c : CodePoint} {w : List CodePoint} (hc : plainEscape? e = some c)
    (hw : IsBody controls w) : IsBody controls ('\\' :: e :: w)
  | plain {c : CodePoint} {w : List CodePoint} (hq : c ≠ '"') (hb : c ≠ '\\')
    (hc : c < ' ' → controls = true) (hw : IsBody controls w) : IsBody controls (c :: w)

/-- A text is read up to the quote that closes it. -/
theorem isBody_of_pieces? {controls : Bool} {s after : List CodePoint} {ps : List Piece}
    (h : pieces? controls s = some (ps, after)) :
    ∃ w, s = w ++ .char '"' :: after ∧ IsBody controls w := by
  fun_induction Json.pieces? controls s generalizing ps after with
  | case1 => exact absurd h (by simp)
  | case2 rest =>
    obtain ⟨rfl, rfl⟩ := Prod.mk.inj (Option.some.inj h)
    exact ⟨[], rfl, .nil⟩
  | case3 a b c d rest ih =>
    simp only [Option.bind_eq_bind, Option.bind_eq_some_iff, Option.pure_def, Option.some.injEq,
      Prod.exists, Prod.mk.injEq] at h
    obtain ⟨n, hn, ps', after', hrest, -, rfl⟩ := h
    obtain ⟨w, rfl, hw⟩ := ih hrest
    exact ⟨_, rfl, .unit hn hw⟩
  | case4 e rest _ ih =>
    simp only [Option.bind_eq_bind, Option.bind_eq_some_iff, Option.pure_def, Option.some.injEq,
      Prod.exists, Prod.mk.injEq] at h
    obtain ⟨c, hc, ps', after', hrest, -, rfl⟩ := h
    obtain ⟨w, rfl, hw⟩ := ih hrest
    exact ⟨_, rfl, .escape hc hw⟩
  | case5 => exact absurd h (by simp)
  | case6 c rest hq _ _ hc ih =>
    simp only [Option.bind_eq_bind, Option.bind_eq_some_iff, Option.pure_def, Option.some.injEq,
      Prod.exists, Prod.mk.injEq] at h
    obtain ⟨ps', after', hrest, -, rfl⟩ := h
    obtain ⟨w, rfl, hw⟩ := ih hrest
    obtain ⟨hb, hcontrol⟩ := not_or.1 hc
    exact ⟨_, rfl, .plain hq hb (fun hlt => by simpa [hlt] using hcontrol) hw⟩

/-! ### Writing a text -/

theorem hexValue?_hexDigit : ∀ d, d < 16 → Text.hexValue? (Text.hexDigit d) = some d := by decide

/-- The four digits of a unit denote it. -/
theorem unit?_hexDigits {n : Nat} (h : n < 0x10000) :
    ∃ x₁ x₂ x₃ x₄, Text.hexDigits 4 n = [x₁, x₂, x₃, x₄] ∧ unit? x₁ x₂ x₃ x₄ = some n := by
  refine ⟨_, _, _, _, rfl, ?_⟩
  simp only [unit?, hexValue?_hexDigit _ (Nat.mod_lt _ (by decide : 0 < 16)), Option.bind_eq_bind,
    Option.bind_some, Option.pure_def, Text.ofDigits, List.foldl_cons, List.foldl_nil,
    Option.some.injEq]
  omega

theorem plainEscape?_of_shortEscape? {c e : CodePoint} (h : shortEscape? c = some e) :
    plainEscape? e = some c := by
  unfold shortEscape? at h
  split at h
  case h_8 => exact absurd h (by simp)
  all_goals
    rw [← Option.some.inj h]
    rfl

/-- Only quotes, backslashes and some control characters have a short escape, and quotes and
    backslashes do have one. -/
theorem ne_of_shortEscape?_eq_none {c : CodePoint} (h : shortEscape? c = none) :
    c ≠ '"' ∧ c ≠ '\\' := by
  constructor
  · rintro rfl
    exact absurd h (by simp [shortEscape?])
  · rintro rfl
    exact absurd h (by simp [shortEscape?])

theorem charForm_unitEscape {controls : Bool} {c : CodePoint} (h : c.toNat < 0x10000)
    (hc : Text.isHigh c.toNat = false) : CharForm controls c (unitEscape c.toNat) := by
  obtain ⟨x₁, x₂, x₃, x₄, hdigits, hunit⟩ := unit?_hexDigits h
  rw [unitEscape, hdigits]
  exact .unit hunit hc

theorem charForm_escapedChar (controls : Bool) (c : CodePoint) :
    CharForm controls c (escapedChar c) := by
  unfold escapedChar
  rcases he : shortEscape? c with _ | e
  · obtain ⟨hq, hb⟩ := ne_of_shortEscape?_eq_none he
    by_cases hc : c < ' '
    · simp only [hc, if_true]
      have hlt : c.toNat < 0x20 := hc
      refine charForm_unitEscape (by omega) ?_
      simp only [Text.isHigh, Bool.and_eq_false_imp, decide_eq_true_eq]
      omega
    · simp only [hc, if_false]
      exact .raw hq hb fun h => absurd h hc
  · exact .short (plainEscape?_of_shortEscape? he)

theorem charForm_escapedCharAscii (controls : Bool) {c : CodePoint} (hc : c.isChar = true) :
    CharForm controls c (escapedCharAscii c) := by
  unfold escapedCharAscii
  rcases he : shortEscape? c with _ | e
  · obtain ⟨hq, hb⟩ := ne_of_shortEscape?_eq_none he
    by_cases hplain : 0x20 ≤ c.toNat ∧ c.toNat < 0x7f
    · simp only [hplain, and_self, if_true]
      refine .raw hq hb fun hlt => ?_
      have : c.toNat < 0x20 := hlt
      omega
    · simp only [hplain, if_false]
      by_cases hn : c.toNat < 0x10000
      · simp only [hn, if_true]
        exact charForm_unitEscape hn (Text.isHigh_toNat hc)
      · simp only [hn, if_false]
        have hlast := c.toNat_lt
        obtain ⟨hh, hl, hpair⟩ := Text.pair_of_toNat hn
        obtain ⟨x₁, x₂, x₃, x₄, hx, hhigh⟩ :=
          unit?_hexDigits (n := 0xd800 + (c.toNat - 0x10000) / 0x400) (by omega)
        obtain ⟨y₁, y₂, y₃, y₄, hy, hlow⟩ :=
          unit?_hexDigits (n := 0xdc00 + (c.toNat - 0x10000) % 0x400) (by omega)
        rw [unitEscape, unitEscape, hx, hy]
        exact .pair hhigh hlow hh hl hpair
  · exact .short (plainEscape?_of_shortEscape? he)

theorem textForm_flatMap {controls : Bool} {f : CodePoint → List CodePoint}
    {s : List CodePoint} (hf : ∀ c ∈ s, CharForm controls c (f c)) :
    TextForm controls s (s.flatMap f) := by
  induction s with
  | nil => exact .nil
  | cons c s ih =>
    obtain ⟨hc, hs⟩ := List.forall_mem_cons.1 hf
    rw [List.flatMap_cons]
    exact .cons hc (ih hs)

/-- A text without halves of pairs can be written in ASCII. -/
theorem textForm_ascii (controls : Bool) {s : Text} (hs : s.isWhole = true) :
    TextForm controls s.toList (s.toList.flatMap escapedCharAscii) :=
  textForm_flatMap fun c hc => charForm_escapedCharAscii controls (List.all_eq_true.1 hs c hc)

/-- A text with the characters that are written for it between the quotes. -/
structure Written where
  text : Text
  chars : List CodePoint
  form : TextForm false text.toList chars

/-- The text with the escapes that must be there. -/
def Written.escaped (s : Text) : Written :=
  ⟨s, s.toList.flatMap escapedChar, textForm_flatMap fun c _ => charForm_escapedChar false c⟩

/-- A text with escapes for all that is not ASCII. -/
def Written.escapedAscii (s : Text) (hs : s.isWhole = true) : Written :=
  ⟨s, s.toList.flatMap escapedCharAscii, textForm_ascii false hs⟩

/-- The text in double quotes. -/
def Written.quoted (w : Written) : List CodePoint := .char '"' :: (w.chars ++ [.char '"'])

end Json

namespace Literal

/-- A way to write a character between quotes of one kind, and what is made of it in JSON: any way
    of JSON in which the quote does not stand for itself, a bare double quote between single ones,
    and a single quote by a backslash. -/
inductive CharForm (quote : CodePoint) : (c : CodePoint) →
    (written json : List CodePoint) → Prop where
  | same {c : CodePoint} {w : List CodePoint} (hw : Json.CharForm true c w) (hq : w ≠ [quote]) :
    CharForm quote c w w
  | double (hq : quote ≠ '"') : CharForm quote '"' ['"'] ['\\', '"']
  | single : CharForm quote '\'' ['\\', '\''] ['\'']

/-- A way to write a text between quotes of one kind, and what is made of it in JSON. -/
inductive TextForm (quote : CodePoint) : (text written json : List CodePoint) → Prop where
  | nil : TextForm quote [] [] []
  | cons {c : CodePoint} {w j s v k : List CodePoint} (hc : CharForm quote c w j)
    (hs : TextForm quote s v k) : TextForm quote (c :: s) (w ++ v) (j ++ k)

theorem not_isBlank_of_isQuote {quote : CodePoint} (hq : isQuote quote = true) :
    Text.isBlank quote = false := by
  simp only [isQuote, Bool.or_eq_true, beq_iff_eq] at hq
  rcases hq with rfl | rfl <;> decide

theorem ne_backslash_of_isQuote {quote : CodePoint} (hq : isQuote quote = true) : '\\' ≠ quote := by
  rintro rfl
  exact absurd hq (by decide)

/-- What is made of a text is the text still. -/
theorem CharForm.json {quote c : CodePoint} {w j : List CodePoint} (h : CharForm quote c w j) :
    Json.CharForm true c j := by
  cases h with
  | same hw _ => exact hw
  | double _ => exact .short rfl
  | single => exact .raw (by decide) (by decide) fun _ => rfl

theorem TextForm.json {quote : CodePoint} {s w j : List CodePoint} (h : TextForm quote s w j) :
    Json.TextForm true s j := by
  induction h with
  | nil => exact .nil
  | cons hc _ ih => exact .cons hc.json ih

/-- What is made of a text in which no control character stands is a text where none may. -/
theorem TextForm.strict {quote : CodePoint} {s w j : List CodePoint} (h : TextForm quote s w j)
    (hw : ∀ c ∈ w, ¬ c < ' ') : Json.TextForm false s j := by
  induction h with
  | nil => exact .nil
  | cons hc _ ih =>
    obtain ⟨hfirst, hrest⟩ := List.forall_mem_append.1 hw
    refine .cons ?_ (ih hrest)
    cases hc with
    | same hform _ => exact hform.strict hfirst
    | double _ => exact .short rfl
    | single => exact .raw (by decide) (by decide) fun h => absurd h (by decide)

/-- Between double quotes a text of a JSON document stays as it is. -/
theorem textForm_of_json {controls : Bool} {s w : List CodePoint} (h : Json.TextForm controls s w) :
    TextForm '"' s w w := by
  induction h with
  | nil => exact .nil
  | cons hc _ ih =>
    refine .cons (.same hc.controls ?_) ih
    rintro rfl
    cases hc with
    | raw hq _ _ => exact hq rfl

/-! ### The extent of a text -/

theorem body_quote {quote : CodePoint} (hq : '\\' ≠ quote) (rest : List CodePoint) :
    body quote (quote :: rest) = some ([], rest) := by
  rw [body, if_pos rfl]
  exact fun _ _ h => absurd h.symm hq

theorem body_plain {quote c : CodePoint} (hq : c ≠ quote) (hb : c ≠ '\\') (rest : List CodePoint) :
    body quote (c :: rest) = (body quote rest).map fun p =>
      (if c = .char '"' then .char '\\' :: .char '"' :: p.1 else c :: p.1, p.2) := by
  rw [body, if_neg hq]
  · rcases body quote rest with _ | p
    · rfl
    · rfl
  · exact fun _ _ h => absurd h hb

theorem body_escape (quote c : CodePoint) (rest : List CodePoint) :
    body quote ('\\' :: c :: rest) = (body quote rest).map fun p =>
      (if c = .char '\'' then .char '\'' :: p.1 else .char '\\' :: c :: p.1, p.2) := by
  rw [body]
  rcases body quote rest with _ | p
  · rfl
  · rfl

/-- A character that denotes no hexadecimal digit is not among those of a unit. -/
theorem ne_of_unit? {x₁ x₂ x₃ x₄ c : CodePoint} {n : Nat} (hx : Json.unit? x₁ x₂ x₃ x₄ = some n)
    (hc : Text.hexValue? c = none) : x₁ ≠ c ∧ x₂ ≠ c ∧ x₃ ≠ c ∧ x₄ ≠ c := by
  simp only [Json.unit?, Option.bind_eq_bind, Option.bind_eq_some_iff] at hx
  obtain ⟨d₁, h₁, d₂, h₂, d₃, h₃, d₄, h₄, -⟩ := hx
  have hne : ∀ {x : CodePoint} {d : Nat}, Text.hexValue? x = some d → x ≠ c := by
    rintro x d hx rfl
    rw [hc] at hx
    exact absurd hx (by simp)
  exact ⟨hne h₁, hne h₂, hne h₃, hne h₄⟩

/-- A written unit stays as it is. -/
theorem body_unit {quote x₁ x₂ x₃ x₄ : CodePoint} {n : Nat} (hq : isQuote quote = true)
    (hx : Json.unit? x₁ x₂ x₃ x₄ = some n) (rest : List CodePoint) :
    body quote ('\\' :: 'u' :: x₁ :: x₂ :: x₃ :: x₄ :: rest) = (body quote rest).map fun p =>
      (.char '\\' :: .char 'u' :: x₁ :: x₂ :: x₃ :: x₄ :: p.1, p.2) := by
  have hquote : Text.hexValue? quote = none := by
    simp only [isQuote, Bool.or_eq_true, beq_iff_eq] at hq
    rcases hq with rfl | rfl <;> decide
  obtain ⟨q₁, q₂, q₃, q₄⟩ := ne_of_unit? hx hquote
  obtain ⟨b₁, b₂, b₃, b₄⟩ := ne_of_unit? (c := '\\') hx (by decide)
  obtain ⟨d₁, d₂, d₃, d₄⟩ := ne_of_unit? (c := '"') hx (by decide)
  rw [body_escape, body_plain q₁ b₁, body_plain q₂ b₂, body_plain q₃ b₃, body_plain q₄ b₄]
  simp only [d₁, d₂, d₃, d₄, if_false, Option.map_map, Function.comp_def,
    if_neg (by decide : ¬ CodePoint.char 'u' = .char '\'')]

theorem CharForm.body {quote c : CodePoint} {w j : List CodePoint} (h : CharForm quote c w j)
    (hq : isQuote quote = true) (rest : List CodePoint) :
    body quote (w ++ rest) = (body quote rest).map fun p => (j ++ p.1, p.2) := by
  cases h with
  | same hw hne =>
    cases hw with
    | raw hd hb _ =>
      have hc : c ≠ quote := fun hc => hne (by rw [hc])
      show Literal.body quote (c :: rest) = _
      simp only [body_plain hc hb, if_neg hd, List.cons_append, List.nil_append]
    | @short e he =>
      have hs : e ≠ '\'' := by
        rintro rfl
        exact absurd he (by simp [Json.plainEscape?])
      show Literal.body quote ('\\' :: e :: rest) = _
      simp only [body_escape, if_neg hs, List.cons_append, List.nil_append]
    | unit hx _ => exact body_unit hq hx rest
    | @pair x₁ x₂ x₃ x₄ y₁ y₂ y₃ y₄ _ _ hx hy _ _ _ =>
      show Literal.body quote ('\\' :: 'u' :: x₁ :: x₂ :: x₃ :: x₄ ::
        ('\\' :: 'u' :: y₁ :: y₂ :: y₃ :: y₄ :: rest)) = _
      rw [body_unit hq hx, body_unit hq hy, Option.map_map]
      rfl
  | double hd =>
    show Literal.body quote ('"' :: rest) = _
    simp only [body_plain hd.symm (by decide : CodePoint.char '"' ≠ .char '\\'), if_true,
      List.cons_append,
      List.nil_append]
  | single =>
    show Literal.body quote ('\\' :: '\'' :: rest) = _
    simp only [body_escape, if_true, List.cons_append, List.nil_append]

/-- A written text is read to its closing quote. -/
theorem TextForm.body {quote : CodePoint} {s w j : List CodePoint} (h : TextForm quote s w j)
    (hq : isQuote quote = true) (rest : List CodePoint) :
    body quote (w ++ quote :: rest) = some (j, rest) := by
  induction h with
  | nil => exact body_quote (ne_backslash_of_isQuote hq) rest
  | cons hc _ ih =>
    rw [List.append_assoc, hc.body hq, ih]
    rfl

end Literal
end TraitIndex
