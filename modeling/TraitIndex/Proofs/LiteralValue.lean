import TraitIndex.Json.Document
import TraitIndex.Proofs.LiteralTree

/-! The value of a literal.

    `Json.value` reads the value of a tree from its document, whatever follows it that is no part of
    a number. Control characters stand for themselves in a text only where the reader lets them, and
    `Legible` says that a tree keeps to this. The reader counts down a bound on its steps, and the
    length of the document is enough, as each step takes a character at least. -/

namespace TraitIndex.Literal

variable {s rest : List CodePoint} {c : CodePoint} {dialect : Json.Dialect} {bound : Nat}

theorem Tree.json_starts (t : Tree) : Starts t.json := by
  cases t with
  | word w => exact w.starts
  | text q => exact ⟨'"', _, rfl, by decide, by decide⟩
  | list items => exact ⟨'[', _, rfl, by decide, by decide⟩
  | object members => exact ⟨'{', _, rfl, by decide, by decide⟩

/-! ### Texts that can be read -/

theorem Key.body_form (key : Key) : Json.TextForm true key.name.toList key.body := by
  cases key with
  | bare name =>
    rw [Key.name, Text.toList_ofList]
    refine Json.textForm_flatMap fun c hc => Json.charForm_escapedCharAscii true ?_
    have hbounds := bounds_of_isBare (name.isBare_chars c hc)
    exact CodePoint.isChar_of_toNat_lt (by omega)
  | quoted q => exact q.form.json

/-- The name of a member can be read where control characters may or may not stand for
    themselves. -/
def Label.Legible (controls : Bool) (label : Label) : Prop :=
  Json.TextForm controls label.key.name.toList label.key.body

mutual

/-- Every text of a literal can be read where control characters may or may not stand for
    themselves. -/
def Tree.Legible (controls : Bool) : Tree → Prop
  | .word _ => True
  | .text q => Json.TextForm controls q.text.toList q.json
  | .list items => items.Legible controls
  | .object members => members.Legible controls

def Items.Legible (controls : Bool) : Items → Prop
  | .close _ => True
  | .last _ x _ => x.Legible controls
  | .more _ x _ rest => x.Legible controls ∧ rest.Legible controls

def Members.Legible (controls : Bool) : Members → Prop
  | .close _ => True
  | .last _ label x _ => label.Legible controls ∧ x.Legible controls
  | .more _ label x _ rest => label.Legible controls ∧ x.Legible controls ∧ rest.Legible controls

end

mutual

/-- Where control characters may stand for themselves, every literal can be read. -/
theorem Tree.legible : ∀ t : Tree, t.Legible true
  | .word _ => trivial
  | .text q => q.form.json
  | .list items => items.legible
  | .object members => members.legible

theorem Items.legible : ∀ items : Items, items.Legible true
  | .close _ => trivial
  | .last _ x _ => x.legible
  | .more _ x _ rest => ⟨x.legible, rest.legible⟩

theorem Members.legible : ∀ members : Members, members.Legible true
  | .close _ => trivial
  | .last _ label x _ => ⟨label.key.body_form, x.legible⟩
  | .more _ label x _ rest => ⟨label.key.body_form, x.legible, rest.legible⟩

end

/-! ### Words -/

theorem value_text {s w : List CodePoint} (hform : Json.TextForm dialect.rawControls s w)
    (rest : List CodePoint) :
    Json.value dialect (bound + 1) (.char '"' :: (w ++ .char '"' :: rest)) =
      .ok (.text (Text.ofList s), rest) := by
  rw [Json.value, hform.string]
  rfl

/-- A value that starts with a digit is a number. -/
theorem value_digit (hc : c.isDigit = true) (s : List CodePoint) :
    Json.value dialect (bound + 1) (c :: s) = Json.number dialect false (c :: s) := by
  rw [Json.value]
  all_goals
    intro r h
    obtain ⟨rfl, -⟩ := List.cons.inj h
    exact absurd hc (by decide)

/-- So is one that starts with a minus sign before a digit. -/
theorem value_minus (hc : c.isDigit = true) (s : List CodePoint) :
    Json.value dialect (bound + 1) ('-' :: c :: s) = Json.number dialect true (c :: s) := by
  rw [Json.value]
  intro r h
  rw [(List.cons.inj h).1] at hc
  exact absurd hc (by decide)

/-- A number under its sign is read. -/
theorem value_decimal (bound : Nat) (negative : Bool) (d : Json.Decimal)
    (hrest : Json.NumberEnds rest)
    (hlimit : d.IsWhole → dialect.digitLimit.all (d.whole.chars.length ≤ ·) = true) :
    Json.value dialect (bound + 1) ((if negative then [.char '-'] else []) ++ (d.chars ++ rest)) =
      .ok (d.json negative, rest) := by
  obtain ⟨c, cs, hcs⟩ := List.exists_cons_of_ne_nil d.whole.nonempty
  have hc := d.whole.digit c (by rw [hcs]; exact List.mem_cons_self ..)
  have hchars : d.chars ++ rest = c :: (cs ++ (d.placesChars ++ d.powerChars) ++ rest) := by
    rw [Json.Decimal.chars, hcs]
    rfl
  rw [← Json.number_decimal negative d hrest hlimit, hchars]
  cases negative with
  | false => exact value_digit hc _
  | true => exact value_minus hc _

theorem value_word (hl : dialect.digitLimit = some Integer.digitLimit)
    (hrest : Json.NumberEnds rest) :
    ∀ x : Word, Json.value dialect (bound + 1) (x.chars ++ rest) = .ok (x.value, rest)
  | .null => by
    show Json.value dialect (bound + 1) ('n' :: 'u' :: 'l' :: 'l' :: rest) = _
    rw [Json.value]
    rfl
  | .bool false => by
    show Json.value dialect (bound + 1) ('f' :: 'a' :: 'l' :: 's' :: 'e' :: rest) = _
    rw [Json.value]
    rfl
  | .bool true => by
    show Json.value dialect (bound + 1) ('t' :: 'r' :: 'u' :: 'e' :: rest) = _
    rw [Json.value]
    rfl
  | .number n => by
    rw [Word.chars, Numeral.chars, List.append_assoc]
    refine value_decimal bound n.negative n.decimal hrest fun hwhole => ?_
    rw [hl]
    exact decide_eq_true (n.limit hwhole)

/-- What ends a word ends a number. -/
theorem Apart.numberEnds (h : Apart s) : Json.NumberEnds s := by
  intro d hd
  have hbare := h.1 d hd
  refine ⟨Bool.eq_false_iff.2 fun hdigit => ?_, ?_, ?_, ?_⟩
  · rw [isBare_of_isDigit hdigit] at hbare
    exact absurd hbare (by simp)
  all_goals
    rintro rfl
    exact absurd hbare (by decide)

theorem numberEnds_gap (gap : Gap) (hc : c = ',' ∨ closes c = true) (rest : List CodePoint) :
    Json.NumberEnds (gap.chars ++ c :: rest) := (apart_gap gap hc rest).numberEnds

/-! ### Lists and objects -/

theorem value_list_nil (h : Json.skipSpace s = .char ']' :: rest) :
    Json.value dialect (bound + 1) ('[' :: s) = .ok (.list [], rest) := by
  rw [Json.value, h]
  rfl

/-- A list that is not empty has the elements from its first one on. -/
theorem value_list_cons (h : Starts (Json.skipSpace s)) {xs : List Json}
    (hxs : Json.elements dialect bound (Json.skipSpace s) = .ok (xs, rest)) :
    Json.value dialect (bound + 1) ('[' :: s) = .ok (.list xs, rest) := by
  obtain ⟨c, r, hs, -, hc⟩ := h
  rw [Json.value]
  split
  · rename_i h
    rw [hs] at h
    obtain rfl : c = ']' := (List.cons.inj h).1
    exact absurd hc (by decide)
  · rw [hxs]
    rfl

theorem value_object_nil (h : Json.skipSpace s = .char '}' :: rest) :
    Json.value dialect (bound + 1) ('{' :: s) = .ok (.object [], rest) := by
  rw [Json.value, h]
  rfl

/-- An object that is not empty has the members from its first one on. -/
theorem value_object_cons (h : Starts (Json.skipSpace s)) {ps : List (Text × Json)}
    (hps : Json.members dialect bound (Json.skipSpace s) = .ok (ps, rest)) :
    Json.value dialect (bound + 1) ('{' :: s) = .ok (.object (Fields.ofPairs ps), rest) := by
  obtain ⟨c, r, hs, -, hc⟩ := h
  rw [Json.value]
  split
  · rename_i h
    rw [hs] at h
    obtain rfl : c = '}' := (List.cons.inj h).1
    exact absurd hc (by decide)
  · rw [hps]
    rfl

theorem elements_last {x : Json} {after : List CodePoint}
    (hx : Json.value dialect bound s = .ok (x, after))
    (hafter : Json.skipSpace after = .char ']' :: rest) :
    Json.elements dialect (bound + 1) s = .ok ([x], rest) := by
  rw [Json.elements, hx]
  simp only [bind, Except.bind, hafter]
  rfl

theorem elements_more {x : Json} {xs : List Json} {after more : List CodePoint}
    (hx : Json.value dialect bound s = .ok (x, after))
    (hafter : Json.skipSpace after = .char ',' :: more)
    (hxs : Json.elements dialect bound (Json.skipSpace more) = .ok (xs, rest)) :
    Json.elements dialect (bound + 1) s = .ok (x :: xs, rest) := by
  rw [Json.elements, hx]
  simp only [bind, Except.bind, hafter, hxs]
  rfl

theorem Gap.append_chars (gap gap' : Gap) (s : List CodePoint) :
    (gap.append gap').chars ++ s = gap.chars ++ (gap'.chars ++ s) := List.append_assoc ..

theorem skipSpace_gaps (gap gap' : Gap) (hc : Json.isSpace c = false) (rest : List CodePoint) :
    Json.skipSpace (gap.chars ++ (gap'.chars ++ c :: rest)) = c :: rest := by
  rw [← Gap.append_chars]
  exact skipSpace_gap (gap.append gap') hc rest

theorem numberEnds_gaps (gap gap' : Gap) (hc : c = ',' ∨ closes c = true) (rest : List CodePoint) :
    Json.NumberEnds (gap.chars ++ (gap'.chars ++ c :: rest)) := by
  rw [← Gap.append_chars]
  exact numberEnds_gap (gap.append gap') hc rest

theorem Label.json_append (label : Label) (s : List CodePoint) :
    label.json ++ s =
      .char '"' :: (label.key.body ++ .char '"' ::
        (label.left.chars ++ .char ':' :: (label.right.chars ++ s))) := by
  simp only [Label.json, List.cons_append, List.append_assoc]

theorem Label.string {label : Label} (hlabel : label.Legible dialect.rawControls)
    (rest : List CodePoint) :
    Json.string dialect (label.key.body ++ .char '"' :: rest) = .ok (label.key.name, rest) := by
  rw [Json.TextForm.string hlabel, Text.ofList_toList]

theorem Label.skipSpace_right (label : Label) (hs : Starts s) :
    Json.skipSpace (label.right.chars ++ s) = s := by
  have h := skipSpace_starts label.right hs []
  rwa [List.append_nil] at h

theorem members_last {label : Label} (hlabel : label.Legible dialect.rawControls) {x : Json}
    {after : List CodePoint} (hs : Starts s) (hx : Json.value dialect bound s = .ok (x, after))
    (hafter : Json.skipSpace after = .char '}' :: rest) :
    Json.members dialect (bound + 1) (label.json ++ s) = .ok ([(label.key.name, x)], rest) := by
  rw [label.json_append, Json.members, Label.string hlabel]
  simp only [bind, Except.bind, skipSpace_gap label.left (by decide : Json.isSpace ':' = false),
    label.skipSpace_right hs, hx, hafter]
  rfl

theorem members_more {label : Label} (hlabel : label.Legible dialect.rawControls) {x : Json}
    {ps : List (Text × Json)} {after more : List CodePoint} (hs : Starts s)
    (hx : Json.value dialect bound s = .ok (x, after))
    (hafter : Json.skipSpace after = .char ',' :: more)
    (hps : Json.members dialect bound (Json.skipSpace more) = .ok (ps, rest)) :
    Json.members dialect (bound + 1) (label.json ++ s) =
      .ok ((label.key.name, x) :: ps, rest) := by
  rw [label.json_append, Json.members, Label.string hlabel]
  simp only [bind, Except.bind, skipSpace_gap label.left (by decide : Json.isSpace ':' = false),
    label.skipSpace_right hs, hx, hafter, hps]
  rfl

theorem Label.json_starts (label : Label) : Starts label.json :=
  ⟨'"', _, rfl, by decide, by decide⟩

theorem Items.eq_close_or_comma (items : Items) :
    (∃ gap, items = .close gap) ∨ items.comma = [.char ','] := by
  cases items with
  | close gap => exact .inl ⟨gap, rfl⟩
  | last before x after => exact .inr rfl
  | more before x after more => exact .inr rfl

theorem Members.eq_close_or_comma (members : Members) :
    (∃ gap, members = .close gap) ∨ members.comma = [.char ','] := by
  cases members with
  | close gap => exact .inl ⟨gap, rfl⟩
  | last before label x after => exact .inr rfl
  | more before label x after more => exact .inr rfl

theorem Items.tail_pos (items : Items) : 0 < items.comma.length + items.json.length := by
  cases items with
  | close gap => simp [Items.comma, Items.json]
  | last before x after => exact Nat.add_pos_left Nat.one_pos _
  | more before x after more => exact Nat.add_pos_left Nat.one_pos _

theorem Members.tail_pos (members : Members) : 0 < members.comma.length + members.json.length := by
  cases members with
  | close gap => simp [Members.comma, Members.json]
  | last before label x after => exact Nat.add_pos_left Nat.one_pos _
  | more before label x after more => exact Nat.add_pos_left Nat.one_pos _

/-- Items that are not closed at once start with one of them. -/
theorem Items.skipSpace_starts {items : Items} (h : items.comma = [.char ','])
    (rest : List CodePoint) :
    Starts (Json.skipSpace (items.json ++ rest)) := by
  cases items with
  | close gap => exact absurd h (by simp [Items.comma])
  | last before x after =>
    rw [Items.json, List.append_assoc, List.append_assoc, Literal.skipSpace_starts before
      x.json_starts]
    exact x.json_starts.append _
  | more before x after more =>
    rw [Items.json, List.append_assoc, List.append_assoc, Literal.skipSpace_starts before
      x.json_starts]
    exact x.json_starts.append _

theorem Members.skipSpace_starts {members : Members} (h : members.comma = [.char ','])
    (rest : List CodePoint) : Starts (Json.skipSpace (members.json ++ rest)) := by
  cases members with
  | close gap => exact absurd h (by simp [Members.comma])
  | last before label x after =>
    rw [Members.json, List.append_assoc, List.append_assoc, Literal.skipSpace_starts before
      label.json_starts]
    exact label.json_starts.append _
  | more before label x after more =>
    rw [Members.json, List.append_assoc, List.append_assoc, Literal.skipSpace_starts before
      label.json_starts]
    exact label.json_starts.append _

theorem bound_pos (h : Starts s) (hb : s.length ≤ bound) : ∃ b, bound = b + 1 := by
  obtain ⟨c, r, rfl, -⟩ := h
  rw [List.length_cons] at hb
  exact ⟨bound - 1, by omega⟩

mutual

/-- The value of a literal is read from its document, within a bound on the steps that its length
    gives. -/
theorem value_tree (hl : dialect.digitLimit = some Integer.digitLimit) (bound : Nat)
    (rest : List CodePoint) (hrest : Json.NumberEnds rest) :
    ∀ t : Tree, t.Legible dialect.rawControls → t.json.length ≤ bound →
      Json.value dialect bound (t.json ++ rest) = .ok (t.value, rest)
  | .word w, _, hb => by
    obtain ⟨b, rfl⟩ := bound_pos (Tree.word w).json_starts hb
    exact value_word hl hrest w
  | .text q, ht, hb => by
    obtain ⟨b, rfl⟩ := bound_pos (Tree.text q).json_starts hb
    rw [Tree.json, List.cons_append, List.append_assoc, List.singleton_append, value_text ht,
      Text.ofList_toList]
    rfl
  | .list items, ht, hb => by
    obtain ⟨b, rfl⟩ := bound_pos (Tree.list items).json_starts hb
    rw [Tree.json, List.cons_append]
    rcases items.eq_close_or_comma with ⟨gap, rfl⟩ | hitems
    · refine value_list_nil ?_
      rw [Items.json, List.append_assoc]
      exact skipSpace_gap gap rfl rest
    · refine value_list_cons (Items.skipSpace_starts hitems rest) ?_
      rw [Tree.json, List.length_cons] at hb
      exact elements_items hl b rest items ht hitems (by omega)
  | .object members, ht, hb => by
    obtain ⟨b, rfl⟩ := bound_pos (Tree.object members).json_starts hb
    rw [Tree.json, List.cons_append]
    rcases members.eq_close_or_comma with ⟨gap, rfl⟩ | hmembers
    · refine value_object_nil ?_
      rw [Members.json, List.append_assoc]
      exact skipSpace_gap gap rfl rest
    · refine value_object_cons (Members.skipSpace_starts hmembers rest) ?_
      rw [Tree.json, List.length_cons] at hb
      exact members_members hl b rest members ht hmembers (by omega)

theorem elements_items (hl : dialect.digitLimit = some Integer.digitLimit) (bound : Nat)
    (rest : List CodePoint) :
    ∀ items : Items, items.Legible dialect.rawControls → items.comma = [.char ','] →
      items.json.length ≤ bound →
      Json.elements dialect bound (Json.skipSpace (items.json ++ rest)) = .ok (items.values, rest)
  | .close gap, _, h, _ => absurd h (by simp [Items.comma])
  | .last before x after, ht, _, hb => by
    simp only [Items.json, List.length_append, List.length_singleton] at hb
    obtain ⟨b, rfl⟩ : ∃ b, bound = b + 1 := ⟨bound - 1, by omega⟩
    rw [Items.json, List.append_assoc, List.append_assoc, skipSpace_starts before x.json_starts,
      List.append_assoc]
    exact elements_last (value_tree hl b _ (numberEnds_gap after (.inr rfl) rest) x ht (by omega))
      (skipSpace_gap after rfl rest)
  | .more before x after more, ht, _, hb => by
    simp only [Items.json, List.length_append] at hb
    have hmore := more.tail_pos
    obtain ⟨b, rfl⟩ : ∃ b, bound = b + 1 := ⟨bound - 1, by omega⟩
    rw [Items.json, List.append_assoc, List.append_assoc, skipSpace_starts before x.json_starts,
      List.append_assoc]
    rcases more.eq_close_or_comma with ⟨gap, rfl⟩ | hcomma
    · rw [Items.comma, List.nil_append, Items.json, List.append_assoc]
      exact elements_last
        (value_tree hl b _ (numberEnds_gaps after gap (.inr rfl) rest) x ht.1 (by omega))
        (skipSpace_gaps after gap rfl rest)
    · rw [hcomma, List.length_singleton] at hb
      rw [hcomma]
      refine elements_more
        (value_tree hl b _ (numberEnds_gap after (.inl rfl) _) x ht.1 (by omega))
        (skipSpace_gap after rfl _) ?_
      exact elements_items hl b rest more ht.2 hcomma (by omega)

theorem members_members (hl : dialect.digitLimit = some Integer.digitLimit) (bound : Nat)
    (rest : List CodePoint) :
    ∀ members : Members, members.Legible dialect.rawControls → members.comma = [.char ','] →
      members.json.length ≤ bound →
      Json.members dialect bound (Json.skipSpace (members.json ++ rest)) =
        .ok (members.pairs, rest)
  | .close gap, _, h, _ => absurd h (by simp [Members.comma])
  | .last before label x after, ht, _, hb => by
    simp only [Members.json, List.length_append, List.length_singleton] at hb
    obtain ⟨b, rfl⟩ : ∃ b, bound = b + 1 := ⟨bound - 1, by omega⟩
    rw [Members.json, List.append_assoc, List.append_assoc,
      skipSpace_starts before label.json_starts, List.append_assoc, List.append_assoc]
    exact members_last ht.1 (x.json_starts.append _)
      (value_tree hl b _ (numberEnds_gap after (.inr rfl) rest) x ht.2 (by omega))
      (skipSpace_gap after rfl rest)
  | .more before label x after more, ht, _, hb => by
    simp only [Members.json, List.length_append] at hb
    have hmore := more.tail_pos
    obtain ⟨b, rfl⟩ : ∃ b, bound = b + 1 := ⟨bound - 1, by omega⟩
    rw [Members.json, List.append_assoc, List.append_assoc,
      skipSpace_starts before label.json_starts, List.append_assoc, List.append_assoc]
    rcases more.eq_close_or_comma with ⟨gap, rfl⟩ | hcomma
    · rw [Members.comma, List.nil_append, Members.json, List.append_assoc]
      exact members_last ht.1 (x.json_starts.append _)
        (value_tree hl b _ (numberEnds_gaps after gap (.inr rfl) rest) x ht.2.1 (by omega))
        (skipSpace_gaps after gap rfl rest)
    · rw [hcomma, List.length_singleton] at hb
      rw [hcomma]
      refine members_more ht.1 (x.json_starts.append _)
        (value_tree hl b _ (numberEnds_gap after (.inl rfl) _) x ht.2.1 (by omega))
        (skipSpace_gap after rfl _) ?_
      exact members_members hl b rest more ht.2.2 hcomma (by omega)

end

/-! ### Whole documents -/

theorem skipSpace_all (gap : Gap) : Json.skipSpace gap.chars = [] :=
  List.dropWhile_eq_nil_iff.2 gap.space

/-- White space before and after a document does not count. -/
theorem parse_gaps {x : Json} {t : List CodePoint} (before after : Gap) (hs : Starts t)
    (h : ∀ bound, t.length ≤ bound →
      Json.value dialect bound (t ++ after.chars) = .ok (x, after.chars)) :
    Json.parse dialect (before.chars ++ (t ++ after.chars)) = .ok x := by
  rw [Json.parse, Json.read, skipSpace_starts before hs,
    h _ (by simp only [List.length_append]; omega)]
  simp only [bind, Except.bind, skipSpace_all after]
  rfl

theorem parse_of_value {x : Json} {t : List CodePoint} (hs : Starts t)
    (h : ∀ bound, t.length ≤ bound → Json.value dialect bound t = .ok (x, [])) :
    Json.parse dialect t = .ok x := by
  have hgaps := parse_gaps Gap.none Gap.none hs fun bound hb => by
    rw [Gap.none, List.append_nil]
    exact h bound hb
  rwa [Gap.none, List.append_nil] at hgaps

/-- The document of a tree is read as its value, with white space around it or not. -/
theorem parse_tree_gaps (hl : dialect.digitLimit = some Integer.digitLimit) {t : Tree}
    (ht : t.Legible dialect.rawControls) (before after : Gap) :
    Json.parse dialect (before.chars ++ (t.json ++ after.chars)) = .ok t.value :=
  parse_gaps before after t.json_starts fun bound hb =>
    value_tree hl bound after.chars (apart_space after).numberEnds t ht hb

theorem parse_tree (t : Tree) : Json.parse { rawControls := true } t.json = .ok t.value := by
  have h : Json.parse { rawControls := true } (Gap.none.chars ++ (t.json ++ Gap.none.chars)) =
      .ok t.value := parse_tree_gaps rfl t.legible .none .none
  rwa [Gap.none, List.append_nil] at h

/-- A text in quotes is read as that text. -/
theorem parse_text {s : Text} {w : List CodePoint}
    (hform : Json.TextForm dialect.rawControls s.toList w) :
    Json.parse dialect (.char '"' :: (w ++ [.char '"'])) = .ok (.text s) := by
  have hs : Starts (.char '"' :: (w ++ [.char '"'])) := ⟨.char '"', _, rfl, by decide, by decide⟩
  refine parse_of_value hs fun bound hb => ?_
  obtain ⟨b, rfl⟩ := bound_pos hs hb
  rw [value_text hform, Text.ofList_toList]

end TraitIndex.Literal
