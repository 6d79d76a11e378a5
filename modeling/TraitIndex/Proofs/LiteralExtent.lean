import TraitIndex.Proofs.LiteralTree

/-! The extent of a literal.

    A literal that is written as some tree ends for `closing` exactly where its tree does, whatever
    follows it: inside a bracket all of it is passed over, and behind its opening bracket what is
    left is what follows it. -/

namespace TraitIndex.Literal

variable {w rest : List CodePoint} {c : CodePoint} {depth : Nat}

/-- What is left of a text when the last but `depth` open brackets closes before it. -/
def leave : (depth : Nat) → List CodePoint → Except Fault (List CodePoint)
  | 0, rest => .ok rest
  | depth + 1, rest => closing (depth + 1) rest

theorem closing_plain (hq : isQuote c = false) (ho : opens c = false) (hc : closes c = false)
    (rest : List CodePoint) : closing depth (c :: rest) = closing depth rest := by
  rw [closing]
  simp only [hq, ho, hc, Bool.false_eq_true, if_false]

theorem closing_opens (hq : isQuote c = false) (ho : opens c = true) (rest : List CodePoint) :
    closing depth (c :: rest) = closing (depth + 1) rest := by
  rw [closing]
  simp only [hq, ho, Bool.false_eq_true, if_false, if_true]

theorem closing_closes (hq : isQuote c = false) (ho : opens c = false) (hc : closes c = true)
    (rest : List CodePoint) : closing (depth + 1) (c :: rest) = leave depth rest := by
  rw [closing]
  simp only [hq, ho, hc, Bool.false_eq_true, if_false, if_true]
  cases depth with
  | zero => rfl
  | succ d =>
    rw [if_neg (by omega)]
    rfl

/-- A text without quotes and brackets is passed over. -/
theorem closing_append
    (hw : ∀ c ∈ w, isQuote c = false ∧ opens c = false ∧ closes c = false) (rest : List CodePoint) :
    closing depth (w ++ rest) = closing depth rest := by
  induction w with
  | nil => rfl
  | cons c w ih =>
    obtain ⟨hq, ho, hc⟩ := hw c (List.mem_cons_self ..)
    rw [List.cons_append, closing_plain hq ho hc, ih fun d hd => hw d (List.mem_cons_of_mem c hd)]

theorem closing_bare (hw : ∀ c ∈ w, isBare c = true) (rest : List CodePoint) :
    closing depth (w ++ rest) = closing depth rest :=
  closing_append (fun c hc =>
    ⟨(not_isBare (hw c hc)).1, (not_isBare (hw c hc)).2.1, (not_isBare (hw c hc)).2.2.1⟩) rest

theorem closing_gap (gap : Gap) (rest : List CodePoint) :
    closing depth (gap.chars ++ rest) = closing depth rest :=
  closing_append (fun c hc => ⟨(not_isSpace (gap.space c hc)).1,
    (not_isSpace (gap.space c hc)).2.1, (not_isSpace (gap.space c hc)).2.2.1⟩) rest

/-- A quoted text is passed over. -/
theorem closing_of_body {quote : CodePoint} {s written after : List CodePoint}
    (hq : isQuote quote = true)
    (hbody : body quote s = some (written, after)) :
    closing depth (quote :: s) = closing depth after := by
  rw [closing, if_pos hq]
  split
  · rename_i h
    obtain ⟨-, rfl⟩ := Prod.mk.inj (Option.some.inj (h.symm.trans hbody))
    rfl
  · rename_i h
    exact absurd (h.symm.trans hbody) (by simp)

theorem closing_quotation (q : Quotation) (rest : List CodePoint) :
    closing depth (q.chars ++ rest) = closing depth rest := by
  rw [Quotation.chars, List.cons_append, List.append_assoc, List.singleton_append]
  exact closing_of_body q.opens (q.form.body q.opens rest)

theorem closing_key (key : Key) (rest : List CodePoint) :
    closing depth (key.chars ++ rest) = closing depth rest := by
  cases key with
  | bare name => exact closing_bare name.isBare_chars rest
  | quoted q => exact closing_quotation q rest

theorem closing_label (label : Label) (rest : List CodePoint) :
    closing depth (label.chars ++ rest) = closing depth rest := by
  rw [Label.chars, List.append_assoc, closing_key, List.append_assoc, closing_gap,
    List.cons_append, closing_plain rfl rfl rfl, closing_gap]

mutual

/-- A literal inside a bracket is passed over. -/
theorem closing_tree (depth : Nat) (rest : List CodePoint) : ∀ t : Tree,
    closing (depth + 1) (t.chars ++ rest) = closing (depth + 1) rest
  | .word w => closing_bare w.isBare_chars rest
  | .text q => closing_quotation q rest
  | .list items => by
    rw [Tree.chars, List.cons_append, closing_opens rfl rfl]
    exact closing_items (depth + 1) rest items
  | .object members => by
    rw [Tree.chars, List.cons_append, closing_opens rfl rfl]
    exact closing_members (depth + 1) rest members

/-- A list ends with its bracket. -/
theorem closing_items (depth : Nat) (rest : List CodePoint) : ∀ items : Items,
    closing (depth + 1) (items.chars ++ rest) = leave depth rest
  | .close gap => by
    rw [Items.chars, List.append_assoc, closing_gap, List.singleton_append,
      closing_closes rfl rfl rfl]
  | .last before x after => by
    simp only [Items.chars, List.append_assoc, closing_gap, closing_tree depth _ x,
      List.singleton_append]
    rw [closing_closes rfl rfl rfl]
  | .more before x after more => by
    simp only [Items.chars, List.append_assoc, closing_gap, closing_tree depth _ x,
      List.cons_append]
    rw [closing_plain rfl rfl rfl]
    exact closing_items depth rest more

/-- An object ends with its brace. -/
theorem closing_members (depth : Nat) (rest : List CodePoint) : ∀ members : Members,
    closing (depth + 1) (members.chars ++ rest) = leave depth rest
  | .close gap => by
    rw [Members.chars, List.append_assoc, closing_gap, List.singleton_append,
      closing_closes rfl rfl rfl]
  | .last before label x after => by
    simp only [Members.chars, List.append_assoc, closing_gap, closing_label,
      closing_tree depth _ x, List.singleton_append]
    rw [closing_closes rfl rfl rfl]
  | .more before label x after more => by
    simp only [Members.chars, List.append_assoc, closing_gap, closing_label,
      closing_tree depth _ x, List.cons_append]
    rw [closing_plain rfl rfl rfl]
    exact closing_members depth rest more

end

end TraitIndex.Literal
