import TraitIndex.Proofs.Fields
import TraitIndex.Proofs.LiteralDocument
import TraitIndex.Proofs.LiteralValue

/-! What a literal means.

    A literal is a way to write a value. `Tree.Writes` says of which, word by word, without a look
    at any reader: a number stands for the integer or for the nearest number of the binary format,
    a list for its items in order, and an object for its members in order, no two of which have one
    name. Whatever way is chosen, the document that is made of the literal is read as the value. -/

namespace TraitIndex.Literal

mutual

/-- The literal is a way to write the value. -/
def Tree.Writes : Tree → Json → Prop
  | .word w, v => v = w.value
  | .text q, v => v = .text q.text
  | .list items, v => ∃ vs, v = .list vs ∧ items.Write vs
  | .object members, v =>
    ∃ fields, v = .object fields ∧ (fields.map Prod.fst).Nodup ∧ members.Write fields

/-- The items are a way to write the values. -/
def Items.Write : Items → List Json → Prop
  | .close _, vs => vs = []
  | .last _ x _, vs => ∃ v, vs = [v] ∧ x.Writes v
  | .more _ x _ rest, vs => ∃ v more, vs = v :: more ∧ x.Writes v ∧ rest.Write more

/-- The members are a way to write the fields. -/
def Members.Write : Members → List (Text × Json) → Prop
  | .close _, fields => fields = []
  | .last _ label x _, fields => ∃ v, fields = [(label.key.name, v)] ∧ x.Writes v
  | .more _ label x _ rest, fields =>
    ∃ v more, fields = (label.key.name, v) :: more ∧ x.Writes v ∧ rest.Write more

end

mutual

theorem Tree.value_of_writes : ∀ {t : Tree} {v : Json}, t.Writes v → t.value = v
  | .word _, _, h => h.symm
  | .text _, _, h => h.symm
  | .list items, _, h => by
    obtain ⟨vs, rfl, hvs⟩ := h
    rw [Tree.value, Items.values_of_write hvs]
  | .object members, _, h => by
    obtain ⟨fields, rfl, hnames, hfields⟩ := h
    rw [Tree.value, Members.pairs_of_write hfields, Fields.ofPairs_of_nodup hnames]

theorem Items.values_of_write : ∀ {items : Items} {vs : List Json}, items.Write vs →
    items.values = vs
  | .close _, _, h => h.symm
  | .last _ x _, _, h => by
    obtain ⟨v, rfl, hv⟩ := h
    rw [Items.values, Tree.value_of_writes hv]
  | .more _ x _ rest, _, h => by
    obtain ⟨v, more, rfl, hv, hmore⟩ := h
    rw [Items.values, Tree.value_of_writes hv, Items.values_of_write hmore]

theorem Members.pairs_of_write : ∀ {members : Members} {fields : List (Text × Json)},
    members.Write fields → members.pairs = fields
  | .close _, _, h => h.symm
  | .last _ label x _, _, h => by
    obtain ⟨v, rfl, hv⟩ := h
    rw [Members.pairs, Tree.value_of_writes hv]
  | .more _ label x _ rest, _, h => by
    obtain ⟨v, more, rfl, hv, hmore⟩ := h
    rw [Members.pairs, Tree.value_of_writes hv, Members.pairs_of_write hmore]

end

/-- Whatever way a value is written in, and whatever white space stands around it, a document is
    made of the literal, and it is read as the value. -/
theorem document_means_value (before after : Gap) (t : Tree) {v : Json} (h : t.Writes v) :
    ∃ document, asJson (before.chars ++ (t.chars ++ after.chars)) = .ok document ∧
      Json.parse { rawControls := true } document = .ok v := by
  refine ⟨before.chars ++ (t.json ++ after.chars), asJson_gaps before after t, ?_⟩
  rw [← Tree.value_of_writes h]
  exact parse_tree_gaps rfl t.legible before after

/-- A number with a sign, places and an exponent. -/
def minusFifteenHundred : Numeral where
  negative := true
  decimal := {
    whole := ⟨['1'], by simp, List.all_eq_true.1 rfl⟩
    lead := by decide
    places := some ⟨['5'], by simp, List.all_eq_true.1 rfl⟩
    power := some ⟨'e', .inl rfl, some false, ⟨['3'], by simp, List.all_eq_true.1 rfl⟩⟩ }
  limit := fun h => nomatch h.1

theorem isQuote_single : isQuote '\'' = true := rfl

/-- A text in single quotes that holds quotes of both kinds. -/
def quotesInQuotes : Quotation where
  quote := '\''
  text := "'\""
  written := [.char '\\', .char '\'', .char '"']
  json := [.char '\'', .char '\\', .char '"']
  opens := isQuote_single
  form := .cons .single (.cons (.double (by decide)) .nil)

/-- A list in an object, with a comma before either closing bracket. -/
def mixed : Tree :=
  .object (.more .blank ⟨.quoted quotesInQuotes, .none, .blank⟩
    (.list (.more .none (.word (.number minusFifteenHundred)) .none (.close .none))) .none
    (.more .none ⟨.bare ⟨'$', [], rfl, by simp⟩, .blank, .none⟩ (.word (.bool true)) .blank
      (.close .blank)))

/-- What it stands for. -/
def mixedValue : Json :=
  .object [("'\"", .list [.float (.finite true 6597069766656000 (-42))]), ("$", .bool true)]

theorem mixed_writes : mixed.Writes mixedValue := by
  have hnumber : minusFifteenHundred.decimal.json true =
      .float (.finite true 6597069766656000 (-42)) := rfl
  exact ⟨_, rfl, by decide, _, _, rfl, ⟨_, rfl, _, _, rfl, hnumber.symm, rfl⟩, _, _, rfl, rfl, rfl⟩

theorem document_means_value_mixed :
    mixed.chars = ("\x7b '\\'\"': [-1.5e+3,],$ :true , \x7d" : Text).toList ∧
      mixed.Writes mixedValue ∧
      ∃ document, asJson (Gap.blank.chars ++ (mixed.chars ++ Gap.blank.chars)) = .ok document ∧
        Json.parse { rawControls := true } document = .ok mixedValue :=
  ⟨by decide, mixed_writes, document_means_value .blank .blank mixed mixed_writes⟩

end TraitIndex.Literal
