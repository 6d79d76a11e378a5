import TraitIndex.Proofs.Fields
import TraitIndex.Proofs.LiteralValue
import TraitIndex.Proofs.Wholeness

/-! Documents that are written.

    A document is written on one line or on several, and what is read of the text is the document
    again, up to two things: a number with a point or an exponent is some such number, and of
    members with one name the last counts. Where there are neither such numbers nor such members,
    it is the document itself. Either way to write it lays a literal out, so that it is read as
    literals are. Halves of pairs must not stand in what is written in ASCII: two halves side by
    side would be read as the pair. -/

namespace TraitIndex.Json

open Literal (Gap Items Members Quotation Starts)

/-! ### What is read of a document -/

mutual

/-- Every number of the document can be written and read. -/
def Sendable : Json → Prop
  | .int n => Integer.isWritable n = true
  | .float x => ∃ negative m q, x = .finite negative m q
  | .list items => AllSendable items
  | .object fields => FieldsSendable fields
  | _ => True

def AllSendable : List Json → Prop
  | [] => True
  | x :: rest => Sendable x ∧ AllSendable rest

def FieldsSendable : List (Text × Json) → Prop
  | [] => True
  | (_, x) :: rest => Sendable x ∧ FieldsSendable rest

end

mutual

/-- The second document may be read where the first was sent. -/
def ReadAs : Json → Json → Prop
  | .float _, y => ∃ x, y = .float x
  | .list items, y => ∃ read, y = .list read ∧ AllReadAs items read
  | .object fields, y => ∃ read, y = .object (Fields.ofPairs read) ∧ FieldsReadAs fields read
  | x, y => y = x

def AllReadAs : List Json → List Json → Prop
  | [], ys => ys = []
  | x :: xs, ys => ∃ y rest, ys = y :: rest ∧ ReadAs x y ∧ AllReadAs xs rest

def FieldsReadAs : List (Text × Json) → List (Text × Json) → Prop
  | [], ys => ys = []
  | (name, x) :: xs, ys => ∃ y rest, ys = (name, y) :: rest ∧ ReadAs x y ∧ FieldsReadAs xs rest

end

mutual

/-- A document without numbers other than integers, and without two members of one name. -/
def Plain : Json → Prop
  | .float _ => False
  | .list items => AllPlain items
  | .object fields => (fields.map Prod.fst).Nodup ∧ FieldsPlain fields
  | _ => True

def AllPlain : List Json → Prop
  | [] => True
  | x :: rest => Plain x ∧ AllPlain rest

def FieldsPlain : List (Text × Json) → Prop
  | [] => True
  | (_, x) :: rest => Plain x ∧ FieldsPlain rest

end

mutual

/-- A plain document is read as it is. -/
theorem eq_of_readAs : ∀ {x y : Json}, Plain x → ReadAs x y → y = x
  | .null, _, _, h => h
  | .bool _, _, _, h => h
  | .int _, _, _, h => h
  | .text _, _, _, h => h
  | .float _, _, hplain, _ => hplain.elim
  | .list items, y, hplain, h => by
    obtain ⟨read, rfl, hread⟩ := h
    rw [eq_of_allReadAs hplain hread]
  | .object fields, y, hplain, h => by
    obtain ⟨read, rfl, hread⟩ := h
    rw [eq_of_fieldsReadAs hplain.2 hread, Fields.ofPairs_of_nodup hplain.1]

theorem eq_of_allReadAs : ∀ {xs ys : List Json}, AllPlain xs → AllReadAs xs ys → ys = xs
  | [], _, _, h => h
  | x :: xs, ys, hplain, h => by
    obtain ⟨y, rest, rfl, hy, hrest⟩ := h
    rw [eq_of_readAs hplain.1 hy, eq_of_allReadAs hplain.2 hrest]

theorem eq_of_fieldsReadAs : ∀ {xs ys : List (Text × Json)}, FieldsPlain xs →
    FieldsReadAs xs ys → ys = xs
  | [], _, _, h => h
  | (name, x) :: xs, ys, hplain, h => by
    obtain ⟨y, rest, rfl, hy, hrest⟩ := h
    rw [eq_of_readAs hplain.1 hy, eq_of_fieldsReadAs hplain.2 hrest]

end

theorem allSendable_iff {xs : List Json} : AllSendable xs ↔ ∀ x ∈ xs, Sendable x := by
  induction xs with
  | nil => simp [AllSendable]
  | cons x rest ih => simp [AllSendable, ih]

theorem fieldsSendable_iff {fields : List (Text × Json)} :
    FieldsSendable fields ↔ ∀ p ∈ fields, Sendable p.2 := by
  induction fields with
  | nil => simp [FieldsSendable]
  | cons p rest ih => simp [FieldsSendable, ih]

theorem allPlain_iff {xs : List Json} : AllPlain xs ↔ ∀ x ∈ xs, Plain x := by
  induction xs with
  | nil => simp [AllPlain]
  | cons x rest ih => simp [AllPlain, ih]

theorem fieldsPlain_iff {fields : List (Text × Json)} :
    FieldsPlain fields ↔ ∀ p ∈ fields, Plain p.2 := by
  induction fields with
  | nil => simp [FieldsPlain]
  | cons p rest ih => simp [FieldsPlain, ih]

/-! ### Parts of a document -/

variable {x : Json} {w : List CodePoint} {before after : Gap}

/-- The text is that of a literal of which the document may be read. -/
def Spelled (x : Json) (w : List CodePoint) : Prop :=
  ∃ t : Literal.Tree, t.json = w ∧ ReadAs x t.value ∧ t.Legible false

/-- The text of a member: its name, a colon and its value. -/
def SpelledMember (gap : Gap) (p : Text × Json) (line : List CodePoint) : Prop :=
  ∃ (name : Written) (w : List CodePoint), name.text = p.1 ∧ Spelled p.2 w ∧
    line = name.quoted ++ .char ':' :: (gap.chars ++ w)

/-- What is written is read, with white space around it or not. -/
theorem Spelled.parse (h : Spelled x w) (before after : Gap) :
    ∃ y, parse {} (before.chars ++ (w ++ after.chars)) = .ok y ∧ ReadAs x y := by
  obtain ⟨t, rfl, hread, hlegible⟩ := h
  exact ⟨t.value, Literal.parse_tree_gaps rfl hlegible before after, hread⟩

theorem spelled_null : Spelled .null ['n', 'u', 'l', 'l'] := ⟨.word .null, rfl, rfl, trivial⟩

theorem spelled_true : Spelled (.bool true) ['t', 'r', 'u', 'e'] :=
  ⟨.word (.bool true), rfl, rfl, trivial⟩

theorem spelled_false : Spelled (.bool false) ['f', 'a', 'l', 's', 'e'] :=
  ⟨.word (.bool false), rfl, rfl, trivial⟩

/-- The text of an integer, by its sign. -/
theorem toString_int (n : Int) :
    (toString n : Text).toList =
      (if n < 0 then [.char '-'] else []) ++ (Decimal.ofNat n.natAbs).chars := by
  rw [Decimal.chars_ofNat]
  cases n with
  | ofNat k => rfl
  | negSucc k =>
    show (Text.ofString ("-" ++ (k + 1).repr)).toList = _
    rw [Text.ofString_append, Text.toList_append, if_pos (Int.negSucc_lt_zero k)]
    rfl

theorem spelled_int {n : Int} (hn : Integer.isWritable n = true) :
    Spelled (.int n) (toString n : Text).toList := by
  have hlimit : n.natAbs < Nat.pow 10 Integer.digitLimit := Integer.isWritable_iff.1 hn
  refine ⟨.word (.number ⟨decide (n < 0), .ofNat n.natAbs, fun _ => Digits.length_ofNat hlimit⟩),
    ?_, ?_, trivial⟩
  · simp only [Literal.Tree.json, Literal.Word.chars, Literal.Numeral.chars, toString_int,
      decide_eq_true_eq]
  · rw [Literal.Tree.value, Literal.Word.value, Decimal.json_ofNat]
    by_cases hneg : n < 0
    · simp only [hneg, decide_true, if_true, Int.ofNat_natAbs_of_nonpos (Int.le_of_lt hneg),
        Int.neg_neg]
      rfl
    · simp only [hneg, decide_false, Bool.false_eq_true, if_false,
        Int.natAbs_of_nonneg (Int.not_lt.1 hneg)]
      rfl

theorem spelled_float (negative : Bool) (m : Nat) (q : Int) :
    Spelled (.float (.finite negative m q)) (floatText (.finite negative m q)) := by
  obtain ⟨d, hd, hwhole⟩ := Binary64.toText_finite negative m q
  obtain ⟨y, hy⟩ := d.json_of_not_isWhole hwhole negative
  exact ⟨.word (.number ⟨negative, d, fun h => absurd h hwhole⟩), hd.symm, ⟨y, hy⟩, trivial⟩

theorem spelled_text (s : Written) : Spelled (.text s.text) s.quoted :=
  ⟨.text (.ofWritten s), rfl, rfl, s.form⟩

/-- The texts of items one after another, each behind a gap. -/
theorem exists_items {xs : List Json} {ws : List (List CodePoint)} (h : List.Forall₂ Spelled xs ws)
    (hne : ws ≠ []) (before after : Gap) :
    ∃ items : Items, items.comma = [.char ','] ∧
      items.json =
        before.chars ++ (separated (.char ',' :: before.chars) ws ++ (after.chars ++ [.char ']'])) ∧
      AllReadAs xs items.values ∧ items.Legible false := by
  induction h with
  | nil => exact absurd rfl hne
  | @cons x w xs ws hx hxs ih =>
    obtain ⟨t, rfl, hread, hlegible⟩ := hx
    cases hxs with
    | nil => exact ⟨.last before t after, rfl, rfl, ⟨_, _, rfl, hread, rfl⟩, hlegible⟩
    | cons =>
      obtain ⟨rest, hcomma, hjson, hreads, hlegibles⟩ := ih (by simp)
      refine ⟨.more before t .none rest, rfl, ?_, ⟨_, _, rfl, hread, hreads⟩, hlegible,
        hlegibles⟩
      rw [Items.json, hcomma, hjson, separated]
      simp [Gap.none]

theorem exists_members {gap : Gap} {ps : List (Text × Json)} {ws : List (List CodePoint)}
    (h : List.Forall₂ (SpelledMember gap) ps ws) (hne : ws ≠ []) (before after : Gap) :
    ∃ members : Members, members.comma = [.char ','] ∧
      members.json =
        before.chars ++ (separated (.char ',' :: before.chars) ws ++ (after.chars ++ [.char '}'])) ∧
      FieldsReadAs ps members.pairs ∧ members.Legible false := by
  induction h with
  | nil => exact absurd rfl hne
  | @cons p w ps ws hp hps ih =>
    obtain ⟨k, x⟩ := p
    obtain ⟨name, _, rfl, ⟨t, rfl, hread, hlegible⟩, rfl⟩ := hp
    obtain ⟨label, hlabel⟩ : ∃ label : Literal.Label,
        label = ⟨.quoted (.ofWritten name), .none, gap⟩ := ⟨_, rfl⟩
    have hline : label.json ++ t.json = name.quoted ++ .char ':' :: (gap.chars ++ t.json) := by
      simp [hlabel, Literal.Label.json, Literal.Key.body, Quotation.ofWritten, Written.quoted,
        Gap.none]
    have hname : label.key.name = name.text := by rw [hlabel]; rfl
    have hform : label.Legible false := by rw [hlabel]; exact name.form
    cases hps with
    | nil =>
      refine ⟨.last before label t after, rfl, ?_, ⟨_, [], ?_, hread, rfl⟩, hform, hlegible⟩
      · rw [Members.json, separated, ← hline, List.append_assoc]
      · rw [Members.pairs, hname]
    | cons =>
      obtain ⟨rest, hcomma, hjson, hreads, hlegibles⟩ := ih (by simp)
      refine ⟨.more before label t .none rest, rfl, ?_, ⟨_, rest.pairs, ?_, hread, hreads⟩, hform,
        hlegible, hlegibles⟩
      · rw [Members.json, hcomma, hjson, separated, ← hline]
        simp [Gap.none]
      · rw [Members.pairs, hname]

theorem spelled_list_nil : Spelled (.list []) ['[', ']'] :=
  ⟨.list (.close .none), rfl, ⟨[], rfl, rfl⟩, trivial⟩

theorem spelled_object_nil : Spelled (.object []) ['{', '}'] :=
  ⟨.object (.close .none), rfl, ⟨[], rfl, rfl⟩, trivial⟩

theorem spelled_list {xs : List Json} {ws : List (List CodePoint)} (h : List.Forall₂ Spelled xs ws)
    (hne : ws ≠ []) (before after : Gap) :
    Spelled (.list xs)
      ('[' :: (before.chars ++
        (separated (.char ',' :: before.chars) ws ++ (after.chars ++ [.char ']'])))) := by
  obtain ⟨items, -, hjson, hread, hlegible⟩ := exists_items h hne before after
  exact ⟨.list items, congrArg (CodePoint.char '[' :: ·) hjson, ⟨_, rfl, hread⟩, hlegible⟩

theorem spelled_object {gap : Gap} {ps : List (Text × Json)} {ws : List (List CodePoint)}
    (h : List.Forall₂ (SpelledMember gap) ps ws) (hne : ws ≠ []) (before after : Gap) :
    Spelled (.object ps)
      ('{' :: (before.chars ++
        (separated (.char ',' :: before.chars) ws ++ (after.chars ++ [.char '}'])))) := by
  obtain ⟨members, -, hjson, hread, hlegible⟩ := exists_members h hne before after
  exact ⟨.object members, congrArg (CodePoint.char '{' :: ·) hjson, ⟨_, rfl, hread⟩, hlegible⟩

/-! ### On one line -/

mutual

/-- The compact text of a document. -/
theorem spelled_compact : ∀ x : Json, Sendable x → Spelled x (compactWith escaped x)
  | .null, _ => spelled_null
  | .bool true, _ => spelled_true
  | .bool false, _ => spelled_false
  | .int _, hx => spelled_int hx
  | .float _, ⟨negative, m, q, h⟩ => h ▸ spelled_float negative m q
  | .text s, _ => spelled_text (.escaped s)
  | .list [], _ => spelled_list_nil
  | .list (x :: xs), hx =>
    spelled_list (spelled_compactItems (x :: xs) hx) (by simp [compactItems]) .none .none
  | .object [], _ => spelled_object_nil
  | .object (p :: ps), hx =>
    spelled_object (spelled_compactFields (p :: ps) hx) (by simp [compactFields]) .none .none

theorem spelled_compactItems : ∀ xs : List Json, AllSendable xs →
    List.Forall₂ Spelled xs (compactItems escaped xs)
  | [], _ => .nil
  | x :: xs, hx => .cons (spelled_compact x hx.1) (spelled_compactItems xs hx.2)

theorem spelled_compactFields : ∀ ps : List (Text × Json), FieldsSendable ps →
    List.Forall₂ (SpelledMember .none) ps (compactFields escaped ps)
  | [], _ => .nil
  | (name, x) :: ps, hx =>
    .cons ⟨.escaped name, _, rfl, spelled_compact x hx.1, rfl⟩ (spelled_compactFields ps hx.2)

end

/-- The compact text of a document is read. -/
theorem parse_compact {x : Json} (hx : Sendable x) :
    ∃ y, parse {} (compactWith escaped x) = .ok y ∧ ReadAs x y := by
  obtain ⟨y, hy, hread⟩ := (spelled_compact x hx).parse .none .none
  rw [Gap.none, List.append_nil] at hy
  exact ⟨y, hy, hread⟩

/-! ### On several lines -/

/-- The start of a line is white space. -/
def lineGap (depth : Nat) : Gap where
  chars := newLine depth
  space := by
    intro c hc
    rcases List.mem_cons.1 hc with rfl | hc
    · rfl
    · rw [List.eq_of_mem_replicate hc]
      rfl

mutual

/-- The text of a document on lines of its own. -/
theorem spelled_indented (depth : Nat) :
    ∀ x : Json, Sendable x → isWhole x = true → Spelled x (indentedAt depth x)
  | .null, _, _ => spelled_null
  | .bool true, _, _ => spelled_true
  | .bool false, _, _ => spelled_false
  | .int _, hx, _ => spelled_int hx
  | .float _, ⟨negative, m, q, h⟩, _ => h ▸ spelled_float negative m q
  | .text s, _, hs => spelled_text (.escapedAscii s hs)
  | .list [], _, _ => spelled_list_nil
  | .list (x :: xs), hx, hwhole => by
    have h := spelled_list (spelled_indentedItems (depth + 1) (x :: xs) hx hwhole)
      (by simp [indentedItems]) (lineGap (depth + 1)) (lineGap depth)
    simpa [indentedAt, indentedItems, block, lineGap] using h
  | .object [], _, _ => spelled_object_nil
  | .object (p :: ps), hx, hwhole => by
    have h := spelled_object (spelled_indentedFields (depth + 1) (p :: ps) hx hwhole)
      (by simp [indentedFields]) (lineGap (depth + 1)) (lineGap depth)
    simpa [indentedAt, indentedFields, block, lineGap] using h

theorem spelled_indentedItems (depth : Nat) :
    ∀ xs : List Json, AllSendable xs → allWhole xs = true →
      List.Forall₂ Spelled xs (indentedItems depth xs)
  | [], _, _ => .nil
  | x :: xs, hx, hwhole =>
    have hwhole := Bool.and_eq_true_iff.1 hwhole
    .cons (spelled_indented depth x hx.1 hwhole.1)
      (spelled_indentedItems depth xs hx.2 hwhole.2)

theorem spelled_indentedFields (depth : Nat) :
    ∀ ps : List (Text × Json), FieldsSendable ps → fieldsWhole ps = true →
      List.Forall₂ (SpelledMember .blank) ps (indentedFields depth ps)
  | [], _, _ => .nil
  | (name, x) :: ps, hx, hwhole =>
    have hrest := Bool.and_eq_true_iff.1 hwhole
    have hfirst := Bool.and_eq_true_iff.1 hrest.1
    .cons ⟨.escapedAscii name hfirst.1, _, rfl, spelled_indented depth x hx.1 hfirst.2, rfl⟩
      (spelled_indentedFields depth ps hx.2 hrest.2)

end

end TraitIndex.Json
