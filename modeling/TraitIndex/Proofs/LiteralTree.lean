import Mathlib.Data.List.TakeWhile
import TraitIndex.Json.Reader
import TraitIndex.Literal.AsJson
import TraitIndex.Literal.Extent
import TraitIndex.Proofs.Numbers
import TraitIndex.Proofs.QuotedForms

/-! Literals as trees.

    A `Tree` is a literal with every choice of how it is written: either kind of quotes, names bare
    or quoted, white space between the tokens, a comma before a closing bracket or none. From it
    come the characters of the literal, those of the JSON document that is made of it and the value
    that both denote. `closing` passes over the characters, `asJson` turns them into the document,
    and `Json.value` reads the value. -/

namespace TraitIndex.Literal

/-- White space between two tokens. -/
structure Gap where
  chars : List CodePoint
  space : ∀ c ∈ chars, Json.isSpace c = true

/-- Nothing between two tokens. -/
def Gap.none : Gap := ⟨[], fun _ h => absurd h (by simp)⟩

/-- A space between two tokens. -/
def Gap.blank : Gap := ⟨[' '], List.all_eq_true.1 rfl⟩

/-- One gap behind another, as they are left when a comma between them goes. -/
def Gap.append (gap gap' : Gap) : Gap :=
  ⟨gap.chars ++ gap'.chars, fun c hc => (List.mem_append.1 hc).elim (gap.space c) (gap'.space c)⟩

/-- A text in quotes, with the characters of JSON that are made of it. -/
structure Quotation where
  quote : CodePoint
  text : Text
  written : List CodePoint
  json : List CodePoint
  opens : isQuote quote = true
  form : TextForm quote text.toList written json

/-- A text of a JSON document, which stands in double quotes. -/
def Quotation.ofWritten (w : Json.Written) : Quotation :=
  ⟨'"', w.text, w.chars, w.chars, rfl, textForm_of_json w.form⟩

/-- A name without quotes. -/
structure Name where
  first : CodePoint
  rest : List CodePoint
  start : isNameStart first = true
  chars : ∀ c ∈ rest, isNameChar c = true

/-- The name of a member. -/
inductive Key where
  | bare (name : Name)
  | quoted (q : Quotation)

/-- The name of a member with its colon. -/
structure Label where
  key : Key
  left : Gap
  right : Gap

/-- A number in the notation of JSON with its sign; an integer keeps to the limit on digits. -/
structure Numeral where
  negative : Bool
  decimal : Json.Decimal
  limit : decimal.IsWhole → decimal.whole.chars.length ≤ Integer.digitLimit

/-- A value that is one word. -/
inductive Word where
  | null
  | bool (b : Bool)
  | number (n : Numeral)

mutual

/-- A literal as it is written. -/
inductive Tree where
  | word (w : Word)
  | text (q : Quotation)
  | list (items : Items)
  | object (members : Members)

/-- What follows the opening bracket of a list. -/
inductive Items where
  | close (gap : Gap)
  | last (before : Gap) (x : Tree) (after : Gap)
  | more (before : Gap) (x : Tree) (after : Gap) (rest : Items)

/-- What follows the opening brace of an object. -/
inductive Members where
  | close (gap : Gap)
  | last (before : Gap) (label : Label) (x : Tree) (after : Gap)
  | more (before : Gap) (label : Label) (x : Tree) (after : Gap) (rest : Members)

end

/-! ### What is written -/

/-- The characters of a text with its quotes. -/
def Quotation.chars (q : Quotation) : List CodePoint := q.quote :: (q.written ++ [q.quote])

/-- The characters of a name. -/
def Key.chars : Key → List CodePoint
  | .bare name => name.first :: name.rest
  | .quoted q => q.chars

def Label.chars (l : Label) : List CodePoint :=
  l.key.chars ++ (l.left.chars ++ .char ':' :: l.right.chars)

/-- The characters of a number behind its sign. -/
def Numeral.chars (n : Numeral) : List CodePoint :=
  (if n.negative then [.char '-'] else []) ++ n.decimal.chars

def Word.chars : Word → List CodePoint
  | .null => ['n', 'u', 'l', 'l']
  | .bool true => ['t', 'r', 'u', 'e']
  | .bool false => ['f', 'a', 'l', 's', 'e']
  | .number n => n.chars

mutual

/-- The characters of a literal. -/
def Tree.chars : Tree → List CodePoint
  | .word w => w.chars
  | .text q => q.chars
  | .list items => '[' :: items.chars
  | .object members => '{' :: members.chars

def Items.chars : Items → List CodePoint
  | .close gap => gap.chars ++ [.char ']']
  | .last before x after => before.chars ++ (x.chars ++ (after.chars ++ [.char ']']))
  | .more before x after rest =>
    before.chars ++ (x.chars ++ (after.chars ++ .char ',' :: rest.chars))

def Members.chars : Members → List CodePoint
  | .close gap => gap.chars ++ [.char '}']
  | .last before label x after =>
    before.chars ++ (label.chars ++ (x.chars ++ (after.chars ++ [.char '}'])))
  | .more before label x after rest =>
    before.chars ++ (label.chars ++ (x.chars ++ (after.chars ++ .char ',' :: rest.chars)))

end

/-! ### What is made of it -/

/-- The characters of JSON between the quotes of a name. -/
def Key.body : Key → List CodePoint
  | .bare name => (name.first :: name.rest).flatMap Json.escapedCharAscii
  | .quoted q => q.json

def Label.json (l : Label) : List CodePoint :=
  .char '"' :: (l.key.body ++ .char '"' :: (l.left.chars ++ .char ':' :: l.right.chars))

/-- The comma before what follows: none before the closing bracket. -/
def Items.comma : Items → List CodePoint
  | .close _ => []
  | _ => [',']

def Members.comma : Members → List CodePoint
  | .close _ => []
  | _ => [',']

mutual

/-- The document that is made of a literal. -/
def Tree.json : Tree → List CodePoint
  | .word w => w.chars
  | .text q => .char '"' :: (q.json ++ [.char '"'])
  | .list items => '[' :: items.json
  | .object members => '{' :: members.json

def Items.json : Items → List CodePoint
  | .close gap => gap.chars ++ [.char ']']
  | .last before x after => before.chars ++ (x.json ++ (after.chars ++ [.char ']']))
  | .more before x after rest =>
    before.chars ++ (x.json ++ (after.chars ++ (rest.comma ++ rest.json)))

def Members.json : Members → List CodePoint
  | .close gap => gap.chars ++ [.char '}']
  | .last before label x after =>
    before.chars ++ (label.json ++ (x.json ++ (after.chars ++ [.char '}'])))
  | .more before label x after rest =>
    before.chars ++ (label.json ++ (x.json ++ (after.chars ++ (rest.comma ++ rest.json))))

end

/-! ### What it denotes -/

/-- The name that is written. -/
def Key.name : Key → Text
  | .bare name => Text.ofList (name.first :: name.rest)
  | .quoted q => q.text

def Word.value : Word → Json
  | .null => .null
  | .bool b => .bool b
  | .number n => n.decimal.json n.negative

mutual

/-- The value of a literal. -/
def Tree.value : Tree → Json
  | .word w => w.value
  | .text q => .text q.text
  | .list items => .list items.values
  | .object members => .object (Fields.ofPairs members.pairs)

def Items.values : Items → List Json
  | .close _ => []
  | .last _ x _ => [x.value]
  | .more _ x _ rest => x.value :: rest.values

/-- The members of an object as they are written. -/
def Members.pairs : Members → List (Text × Json)
  | .close _ => []
  | .last _ label x _ => [(label.key.name, x.value)]
  | .more _ label x _ rest => (label.key.name, x.value) :: rest.pairs

end

variable {w s rest : List CodePoint} {c : CodePoint}

/-! ### Characters -/

/-- A character of a word that stands alone: a name or a number. -/
def isBare (c : CodePoint) : Bool := isNameChar c || c == '+' || c == '-' || c == '.'

/-- A word that stands alone ends before the text, and is not the name of a member. -/
def Apart (s : List CodePoint) : Prop :=
  (∀ c ∈ s.head?, isBare c = false) ∧ firstSolid s ≠ some (.char ':')

/-- The text starts with a character that is neither a blank nor a closing bracket. -/
def Starts (s : List CodePoint) : Prop :=
  ∃ c r, s = c :: r ∧ Text.isBlank c = false ∧ closes c = false

theorem Starts.append (h : Starts s) (t : List CodePoint) : Starts (s ++ t) := by
  obtain ⟨c, r, rfl, hb, hc⟩ := h
  exact ⟨c, r ++ t, rfl, hb, hc⟩

theorem isBlank_of_isSpace (h : Json.isSpace c = true) : Text.isBlank c = true := by
  simp only [Json.isSpace, Bool.or_eq_true, beq_iff_eq] at h
  rcases h with ((rfl | rfl) | rfl) | rfl <;> decide

theorem firstSolid_gap (gap : Gap) (hc : Text.isBlank c = false) (rest : List CodePoint) :
    firstSolid (gap.chars ++ c :: rest) = some c := by
  rw [firstSolid, List.dropWhile_append_of_pos fun d hd => isBlank_of_isSpace (gap.space d hd),
    List.dropWhile_cons_of_neg]
  · rfl
  · rw [hc]
    exact Bool.false_ne_true

theorem skipSpace_gap (gap : Gap) (hc : Json.isSpace c = false) (rest : List CodePoint) :
    Json.skipSpace (gap.chars ++ c :: rest) = c :: rest := by
  rw [Json.skipSpace, List.dropWhile_append_of_pos gap.space, List.dropWhile_cons_of_neg]
  rw [hc]
  exact Bool.false_ne_true

theorem skipSpace_cons (hc : Json.isSpace c = false) (rest : List CodePoint) :
    Json.skipSpace (c :: rest) = c :: rest := skipSpace_gap .none hc rest

theorem isSpace_of_isBlank (h : Text.isBlank c = false) : Json.isSpace c = false :=
  Bool.eq_false_iff.2 fun hs => by
    rw [isBlank_of_isSpace hs] at h
    exact absurd h (by simp)

theorem skipSpace_starts (gap : Gap) (h : Starts s) (rest : List CodePoint) :
    Json.skipSpace (gap.chars ++ (s ++ rest)) = s ++ rest := by
  obtain ⟨c, r, rfl, hb, -⟩ := h
  exact skipSpace_gap gap (isSpace_of_isBlank hb) (r ++ rest)

/-- A word stands alone before a comma or a closing bracket, with white space between or not. -/
theorem apart_gap (gap : Gap) (hc : c = ',' ∨ closes c = true) (rest : List CodePoint) :
    Apart (gap.chars ++ c :: rest) := by
  have hsolid : isBare c = false ∧ Text.isBlank c = false ∧ c ≠ ':' := by
    simp only [closes, Bool.or_eq_true, beq_iff_eq] at hc
    rcases hc with rfl | rfl | rfl <;> decide
  obtain ⟨hbare, hblank, hcolon⟩ := hsolid
  constructor
  · rcases hg : gap.chars with _ | ⟨d, g⟩
    · rintro d ⟨⟩
      exact hbare
    · rintro e ⟨⟩
      have hd := gap.space d (by rw [hg]; exact List.mem_cons_self ..)
      simp only [Json.isSpace, Bool.or_eq_true, beq_iff_eq] at hd
      rcases hd with ((rfl | rfl) | rfl) | rfl <;> decide
  · rw [firstSolid_gap gap hblank]
    exact fun h => hcolon (Option.some.inj h)

/-- So does one before white space that nothing follows. -/
theorem apart_space (gap : Gap) : Apart gap.chars := by
  constructor
  · intro d hd
    have hspace := gap.space d (List.mem_of_mem_head? hd)
    simp only [Json.isSpace, Bool.or_eq_true, beq_iff_eq] at hspace
    rcases hspace with ((rfl | rfl) | rfl) | rfl <;> decide
  · have hnil : gap.chars.dropWhile Text.isBlank = [] :=
      List.dropWhile_eq_nil_iff.2 fun d hd => isBlank_of_isSpace (gap.space d hd)
    rw [firstSolid, hnil]
    exact fun h => absurd h (by simp)

/-- A bare character is printed ASCII. -/
theorem bounds_of_isBare (h : isBare c = true) : 0x20 < c.toNat ∧ c.toNat < 0x7f := by
  simp only [isBare, isNameChar, isNameStart, Bool.or_eq_true, Bool.and_eq_true,
    decide_eq_true_eq, beq_iff_eq] at h
  have hle : ∀ d e : CodePoint, d ≤ e → d.toNat ≤ e.toNat := fun d e hde => hde
  rcases h with ((((((⟨h₁, h₂⟩ | ⟨h₁, h₂⟩) | rfl) | rfl) | ⟨h₁, h₂⟩) | rfl) | rfl) | rfl
  case inl.inl.inl.inl.inl.inl.inl | inl.inl.inl.inl.inl.inl.inr | inl.inl.inl.inr =>
    have h₁ := hle _ _ h₁
    have h₂ := hle _ _ h₂
    simp only [CodePoint.toNat_char, Char.reduceToNat] at h₁ h₂
    omega
  all_goals decide

theorem not_isBare (h : isBare c = true) :
    isQuote c = false ∧ opens c = false ∧ closes c = false ∧ c ≠ ',' ∧ c ≠ ':' ∧
      Text.isBlank c = false := by
  have hne : ∀ d : CodePoint, isBare d = false → c ≠ d := by
    rintro d hd rfl
    rw [h] at hd
    exact absurd hd (by simp)
  refine ⟨?_, ?_, ?_, hne _ (by decide), hne _ (by decide), ?_⟩
  · simp only [isQuote, Bool.or_eq_false_iff, beq_eq_false_iff_ne]
    exact ⟨hne _ (by decide), hne _ (by decide)⟩
  · simp only [opens, Bool.or_eq_false_iff, beq_eq_false_iff_ne]
    exact ⟨hne _ (by decide), hne _ (by decide)⟩
  · simp only [closes, Bool.or_eq_false_iff, beq_eq_false_iff_ne]
    exact ⟨hne _ (by decide), hne _ (by decide)⟩
  · obtain ⟨h₁, h₂⟩ := bounds_of_isBare h
    simp only [Text.isBlank, Bool.or_eq_false_iff, Bool.and_eq_false_imp, decide_eq_true_eq,
      decide_eq_false_iff_not, beq_eq_false_iff_ne]
    omega

/-! ### What a word and the white space hold -/

theorem isBare_of_isNameChar (h : isNameChar c = true) : isBare c = true := by
  simp only [isBare, h, Bool.true_or]

theorem isBare_of_isDigit (h : c.isDigit = true) : isBare c = true := by
  refine isBare_of_isNameChar ?_
  simp only [CodePoint.isDigit, Bool.and_eq_true, decide_eq_true_eq] at h
  simp only [isNameChar, Bool.or_eq_true, Bool.and_eq_true, decide_eq_true_eq]
  exact .inr h

theorem isBare_exponent (e : Json.Exponent) : ∀ c ∈ e.chars, isBare c = true := by
  intro c hc
  rcases List.mem_cons.1 hc with rfl | hc
  · rcases e.marked with h | h <;> rw [h] <;> decide
  · rcases List.mem_append.1 hc with hsign | hdigit
    · obtain ⟨negative, -, rfl⟩ := Option.map_eq_some_iff.1 (Option.mem_toList.1 hsign)
      cases negative <;> decide
    · exact isBare_of_isDigit (e.digits.digit c hdigit)

/-- A number is bare, its point and the letter and sign of its exponent included. -/
theorem isBare_decimal (d : Json.Decimal) : ∀ c ∈ d.chars, isBare c = true := by
  intro c hc
  rcases List.mem_append.1 hc with hwhole | hc
  · exact isBare_of_isDigit (d.whole.digit c hwhole)
  rcases List.mem_append.1 hc with hplaces | hpower
  · rcases hp : d.places with _ | ds
    · simp [Json.Decimal.placesChars, hp] at hplaces
    · rw [Json.Decimal.placesChars, hp] at hplaces
      rcases List.mem_cons.1 hplaces with rfl | hplaces
      · decide
      · exact isBare_of_isDigit (ds.digit c hplaces)
  · rcases hp : d.power with _ | e
    · simp [Json.Decimal.powerChars, hp] at hpower
    · rw [Json.Decimal.powerChars, hp] at hpower
      exact isBare_exponent e c hpower

theorem Numeral.isBare_chars (n : Numeral) : ∀ c ∈ n.chars, isBare c = true := by
  intro c hc
  rcases List.mem_append.1 hc with hsign | hc
  · split at hsign
    · obtain rfl := List.mem_singleton.1 hsign
      decide
    · exact absurd hsign List.not_mem_nil
  · exact isBare_decimal n.decimal c hc

theorem Word.isBare_chars : ∀ x : Word, ∀ c ∈ x.chars, isBare c = true
  | .null => List.all_eq_true.1 rfl
  | .bool true => List.all_eq_true.1 rfl
  | .bool false => List.all_eq_true.1 rfl
  | .number n => n.isBare_chars

theorem isNameChar_of_isNameStart (h : isNameStart c = true) : isNameChar c = true := by
  simp only [isNameChar, h, Bool.true_or]

theorem Name.isBare_chars (name : Name) : ∀ c ∈ name.first :: name.rest, isBare c = true := by
  intro c hc
  rcases List.mem_cons.1 hc with rfl | hc
  · exact isBare_of_isNameChar (isNameChar_of_isNameStart name.start)
  · exact isBare_of_isNameChar (name.chars c hc)

theorem not_isSpace (h : Json.isSpace c = true) :
    isQuote c = false ∧ opens c = false ∧ closes c = false ∧ isNameStart c = false ∧ c ≠ ',' := by
  simp only [Json.isSpace, Bool.or_eq_true, beq_iff_eq] at h
  rcases h with ((rfl | rfl) | rfl) | rfl <;> decide

/-! ### How a literal starts -/

theorem not_closes_of_isQuote (h : isQuote c = true) : closes c = false := by
  simp only [isQuote, Bool.or_eq_true, beq_iff_eq] at h
  rcases h with rfl | rfl <;> decide

theorem Quotation.starts (q : Quotation) : Starts q.chars :=
  ⟨q.quote, _, rfl, not_isBlank_of_isQuote q.opens, not_closes_of_isQuote q.opens⟩

theorem starts_bare (h : isBare c = true) (s : List CodePoint) : Starts (c :: s) := by
  obtain ⟨-, -, hcloses, -, -, hblank⟩ := not_isBare h
  exact ⟨c, s, rfl, hblank, hcloses⟩

theorem starts_decimal (negative : Bool) (d : Json.Decimal) :
    Starts ((if negative then [.char '-'] else []) ++ d.chars) := by
  obtain ⟨c, cs, hcs⟩ := List.exists_cons_of_ne_nil d.whole.nonempty
  have hc := d.whole.digit c (by rw [hcs]; exact List.mem_cons_self ..)
  cases negative with
  | false =>
    rw [Json.Decimal.chars, hcs]
    exact starts_bare (isBare_of_isDigit hc) _
  | true => exact starts_bare (by decide) d.chars

theorem Word.starts : ∀ x : Word, Starts x.chars
  | .null => starts_bare (by decide) _
  | .bool true => starts_bare (by decide) _
  | .bool false => starts_bare (by decide) _
  | .number n => starts_decimal n.negative n.decimal

theorem Tree.starts (t : Tree) : Starts t.chars := by
  cases t with
  | word w => exact w.starts
  | text q => exact q.starts
  | list items => exact ⟨'[', _, rfl, by decide, by decide⟩
  | object members => exact ⟨'{', _, rfl, by decide, by decide⟩

theorem Label.starts (label : Label) : Starts label.chars := by
  rcases label with ⟨name | q, left, right⟩
  · obtain ⟨-, -, hc, -, -, hb⟩ :=
      not_isBare (isBare_of_isNameChar (isNameChar_of_isNameStart name.start))
    exact ⟨name.first, _, rfl, hb, hc⟩
  · exact q.starts.append _

theorem firstSolid_starts (gap : Gap) (h : Starts s) (rest : List CodePoint) :
    (firstSolid (gap.chars ++ (s ++ rest))).any closes = false := by
  obtain ⟨c, r, rfl, hb, hc⟩ := h
  rw [List.cons_append, firstSolid_gap gap hb]
  exact hc

end TraitIndex.Literal
