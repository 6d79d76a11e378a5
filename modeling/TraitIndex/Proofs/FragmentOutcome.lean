import Mathlib.Data.List.Forall2
import TraitIndex.Proofs.LiteralDocument
import TraitIndex.Proofs.LiteralExtent
import TraitIndex.Proofs.LiteralValue
import TraitIndex.Proofs.Outcomes
import TraitIndex.Proofs.Pattern

/-! What a fragment comes to.

    Reading the key of an assignment and reading its literal fail only by faults in what is
    written, except in one place: where the text ends behind the equals sign there is no character
    to look at, and that is a fault of another kind, which ends the whole reading. So either every
    assignment costs at most itself, with one notice each, or the text ends like that. -/

namespace TraitIndex

/-! ### Faults in what is written -/

namespace Literal

/-- Behind the first bracket of a literal it can only be wrong that brackets or quoted texts do not
    end. -/
theorem isValueFault_of_closing {depth : Nat} {s : List CodePoint} {why : Fault}
    (h : closing depth s = .error why) : why.isValueFault = true := by
  fun_induction closing depth s with
  | case1 =>
    rw [← Except.error.inj h]
    rfl
  | case2 _ _ _ _ _ _ _ ih => exact ih h
  | case3 =>
    rw [← Except.error.inj h]
    rfl
  | case4 _ _ _ _ _ ih => exact ih h
  | case5 => exact absurd h (by simp)
  | case6 _ _ _ _ _ _ _ ih => exact ih h
  | case7 _ _ _ _ _ _ ih => exact ih h

theorem isValueFault_of_asJson {s : List CodePoint} {why : Fault} (h : asJson s = .error why) :
    why.isValueFault = true := by
  fun_induction asJson s with
  | case1 => exact absurd h (by simp)
  | case2 _ _ _ _ _ _ ih => exact ih (error_of_map_error h)
  | case3 =>
    rw [← Except.error.inj h]
    rfl
  | case4 _ _ _ _ _ ih => exact ih (error_of_map_error h)
  | case5 _ _ _ _ _ ih => exact ih h
  | case6 _ _ _ _ _ ih => exact ih (error_of_map_error h)

end Literal

theorem Json.isValueFault_of_parse {dialect : Dialect} {s : List CodePoint} {why : Fault}
    (h : parse dialect s = .error why) : why.isValueFault = true := by
  unfold parse at h
  rcases hr : read dialect s with e | x
  · rw [hr] at h
    rw [← Except.error.inj h]
    cases e <;> rfl
  · rw [hr] at h
    exact absurd h (by simp [Except.mapError])

namespace Fragment
namespace Assignment

/-- Nothing follows the equals sign, though the key denotes a crate. -/
def Bare (a : Assignment) : Prop := a.rest = [] ∧ ∃ crate, a.crate = .ok crate

/-- Where a literal stands at all, it is read or something is wrong in what is written. -/
theorem isValueFault_of_entries {a : Assignment} {offset : Nat} {why : Fault}
    (h : a.entries offset = .error why) (hrest : a.rest ≠ []) : why.isValueFault = true := by
  rcases error_of_bind_error h with hafter | ⟨after, -, h⟩
  · rcases hr : a.rest with _ | ⟨c, rest⟩
    · exact absurd hr hrest
    · rw [hr, Literal.afterLiteral] at hafter
      split at hafter
      · exact Literal.isValueFault_of_closing hafter
      · rw [← Except.error.inj hafter]
        rfl
  · rcases error_of_bind_error h with hjson | ⟨json, -, h⟩
    · exact Literal.isValueFault_of_asJson hjson
    · exact Json.isValueFault_of_parse h

theorem entries_of_rest_nil {a : Assignment} (h : a.rest = []) (offset : Nat) :
    a.entries offset = .error .pastEnd := by
  rw [entries, h]
  rfl

/-- What a literal denotes does not depend on where it stands. -/
theorem entries_offset {a : Assignment} {offset offset' : Nat} {x : Json}
    (h : a.entries offset = .ok x) : a.entries offset' = .ok x := by
  have hafter : ∀ o, Literal.afterLiteral offset a.rest = Literal.afterLiteral o a.rest ∨
      ∃ why, Literal.afterLiteral offset a.rest = .error why := by
    intro o
    rcases a.rest with _ | ⟨c, rest⟩
    · exact .inl rfl
    · by_cases hc : Literal.opens c = true
      · exact .inl (by simp only [Literal.afterLiteral, hc, if_true])
      · exact .inr ⟨_, by rw [Literal.afterLiteral, if_neg hc]⟩
  rcases hafter offset' with he | ⟨why, he⟩
  · rw [entries, he] at h
    exact h
  · rw [entries, he] at h
    exact absurd h (by simp [bind, Except.bind])

open Literal in
/-- A list in front of any text is read as its values, wherever it stands. -/
theorem entries_of_items {a : Assignment} {items : Items} {after : List CodePoint}
    (h : a.rest = .char '[' :: (items.chars ++ after)) (offset : Nat) :
    a.entries offset = .ok (.list items.values) := by
  have hafter : afterLiteral offset a.rest = .ok after := by
    rw [h, afterLiteral, if_pos (by decide), closing_items 0 after items]
    rfl
  have htake : a.rest.take (a.rest.length - after.length) = (Literal.Tree.list items).chars := by
    rw [h, ← List.cons_append, List.length_append, Nat.add_sub_cancel, List.take_left']
    · rfl
    · rfl
  rw [entries, hafter]
  simp only [bind, Except.bind, htake, asJson_tree, parse_tree]
  rfl

/-- The crate of an assignment and the elements of its list, if its key denotes a crate and what
    follows it is a literal that is balanced and denotes a list. -/
def read? (a : Assignment) : Option (Text × List Json) :=
  match a.crate, a.entries 0 with
  | .ok crate, .ok (.list items) => some (crate, items)
  | _, _ => none

/-- The records that an assignment adds: those of its list, if it can be read. -/
def kept (a : Assignment) : List Implementor :=
  match a.read? with
  | some (crate, items) => (Value.ofItems items).map (Intake.entry crate)
  | none => []

/-- The notice says that the list of a crate is skipped, as a warning. -/
def Skips (trait : Text) (n : Notice) : Prop :=
  n.severity = .warning ∧
    ((∃ crate why, n = .crateSkipped crate trait why) ∨ ∃ crate, n = .crateNotList crate trait)

/-- What is told about an assignment: what was repaired in the entries of its list, or in one
    notice that it is skipped. -/
def Told (trait : Text) (a : Assignment) (log : List Notice) : Prop :=
  match a.read? with
  | some (_, items) => log = (Value.ofItems items).flatMap Intake.entryNotices
  | none => ∃ n, log = [n] ∧ Skips trait n

theorem read?_eq_some_iff {a : Assignment} {crate : Text} {items : List Json} :
    a.read? = some (crate, items) ↔ a.crate = .ok crate ∧ a.entries 0 = .ok (.list items) := by
  constructor
  · intro h
    unfold read? at h
    split at h
    · rename_i crate' items' hc hx
      obtain ⟨rfl, rfl⟩ := Prod.mk.inj (Option.some.inj h)
      exact ⟨hc, hx⟩
    · exact absurd h (by simp)
  · rintro ⟨hc, hx⟩
    simp only [read?, hc, hx]

theorem read?_eq_none {a : Assignment}
    (h : ∀ crate items, a.crate = .ok crate → a.entries 0 ≠ .ok (.list items)) :
    a.read? = none := by
  refine Option.eq_none_iff_forall_ne_some.2 ?_
  rintro ⟨crate, items⟩ hr
  obtain ⟨hc, hx⟩ := read?_eq_some_iff.1 hr
  exact h crate items hc hx

theorem told_iff_of_read? {trait : Text} {a : Assignment} {log : List Notice} {crate : Text}
    {items : List Json} (h : a.read? = some (crate, items)) :
    Told trait a log ↔ log = (Value.ofItems items).flatMap Intake.entryNotices := by
  unfold Told
  rw [h]

theorem told_iff_of_not_read? {trait : Text} {a : Assignment} {log : List Notice}
    (h : a.read? = none) : Told trait a log ↔ ∃ n, log = [n] ∧ Skips trait n := by
  unfold Told
  rw [h]

/-- An assignment that is not bare costs at most itself. -/
theorem records_of_not_bare {a : Assignment} (h : ¬ a.Bare) (trait : Text) (offset : Nat) :
    ∃ log, a.records trait offset = ⟨.ok a.kept, log⟩ ∧ Told trait a log := by
  unfold records kept Told
  rcases hc : a.crate with why | crate
  · have hnone : a.read? = none := by
      refine read?_eq_none fun crate items hc' => ?_
      rw [hc] at hc'
      exact absurd hc' (by simp)
    rw [hnone]
    exact ⟨_, rfl, _, rfl, rfl, .inl ⟨_, _, rfl⟩⟩
  · have hrest : a.rest ≠ [] := fun hr => h ⟨hr, crate, hc⟩
    rcases hx : a.entries offset with why | x
    · have hnone : a.read? = none := by
        refine read?_eq_none fun crate' items _ h0 => ?_
        rw [entries_offset h0] at hx
        exact absurd hx (by simp)
      rw [hnone]
      simp only [isValueFault_of_entries hx hrest, if_true]
      exact ⟨_, rfl, _, rfl, rfl, .inl ⟨_, _, rfl⟩⟩
    · have h0 : a.entries 0 = .ok x := entries_offset hx
      cases x with
      | list items =>
        rw [read?_eq_some_iff.2 ⟨hc, h0⟩]
        exact ⟨_, Outcome.note_bind _ _, List.append_nil _⟩
      | _ =>
        have hnone : a.read? = none := by
          refine read?_eq_none fun crate' items _ h0' => ?_
          rw [h0] at h0'
          exact absurd h0' (by simp)
        rw [hnone]
        exact ⟨_, rfl, _, rfl, rfl, .inr ⟨_, rfl⟩⟩

/-- A bare assignment ends the reading. -/
theorem records_of_bare {a : Assignment} (h : a.Bare) (trait : Text) (offset : Nat) :
    a.records trait offset = ⟨.error .pastEnd, []⟩ := by
  obtain ⟨hrest, crate, hc⟩ := h
  unfold records
  rw [hc]
  simp only [entries_of_rest_nil hrest]
  rfl

end Assignment

/-! ### The whole fragment -/

/-- Where no assignment is bare, each adds what it has and tells what it has to. -/
theorem collect_of_not_bare (trait : Text) (length : Nat) {as : List Assignment}
    (h : ∀ a ∈ as, ¬ a.Bare) :
    ∃ logs, collect trait length as = ⟨.ok (as.flatMap Assignment.kept), logs.flatten⟩ ∧
      List.Forall₂ (Assignment.Told trait) as logs := by
  induction as with
  | nil => exact ⟨[], rfl, .nil⟩
  | cons a as ih =>
    obtain ⟨log, ha, htold⟩ :=
      Assignment.records_of_not_bare (h a (List.mem_cons_self ..)) trait (length - a.rest.length)
    obtain ⟨logs, has, hall⟩ := ih fun b hb => h b (List.mem_cons_of_mem a hb)
    refine ⟨log :: logs, ?_, .cons htold hall⟩
    simp only [collect, ha, has, Outcome.ok_bind, Outcome.pure_eq, List.flatMap_cons,
      List.flatten_cons, List.append_nil]

/-- A bare assignment among them ends the reading. -/
theorem collect_of_bare (trait : Text) (length : Nat) {as : List Assignment}
    (h : ∃ a ∈ as, a.Bare) :
    (collect trait length as).result = .error .pastEnd := by
  induction as with
  | nil =>
    obtain ⟨a, ha, -⟩ := h
    exact absurd ha (by simp)
  | cons a as ih =>
    rw [collect]
    by_cases hbare : a.Bare
    · rw [Assignment.records_of_bare hbare]
      rfl
    · obtain ⟨log, ha, -⟩ :=
        Assignment.records_of_not_bare hbare trait (length - a.rest.length)
      have hrest : ∃ b ∈ as, b.Bare := by
        obtain ⟨b, hb, hbb⟩ := h
        rcases List.mem_cons.1 hb with rfl | hb
        · exact absurd hbb hbare
        · exact ⟨b, hb, hbb⟩
      rw [ha, Outcome.ok_bind]
      exact Outcome.bind_of_error (ih hrest) _

open Assignment in
/-- Where no match is bare, the batch holds the records of the matches that can be read, and every
    match tells what it has to. -/
theorem parse_of_not_bare {source trait : Text} (ht : Text.trim trait ≠ "")
    (h : ∀ a ∈ all source.toList, ¬ a.Bare) :
    ∃ logs, parse source trait =
        ⟨.ok (.single (Text.trim trait) ((all source.toList).flatMap kept)), logs.flatten⟩ ∧
      List.Forall₂ (Told (Text.trim trait)) (all source.toList) logs := by
  obtain ⟨logs, hc, hall⟩ := collect_of_not_bare (Text.trim trait) source.toList.length h
  refine ⟨logs, ?_, hall⟩
  simp only [parse, if_neg ht, hc, Outcome.ok_bind, Outcome.pure_eq, List.append_nil]

open Assignment in
/-- A bare match ends the reading of the whole text. -/
theorem parse_of_bare {source trait : Text} (ht : Text.trim trait ≠ "")
    (h : ∃ a ∈ all source.toList, a.Bare) : (parse source trait).result = .error .pastEnd := by
  simp only [parse, if_neg ht]
  exact Outcome.bind_of_error (collect_of_bare (Text.trim trait) source.toList.length h) _

/-- What reading comes to: no trait to read for, a bare match that ends it, or a batch of the trait
    alone. -/
theorem parse_cases (source trait : Text) :
    (Text.trim trait = "" ∧ parse source trait = .fail (.empty "trait_id")) ∨
      (Text.trim trait ≠ "" ∧ (parse source trait).result = .error .pastEnd) ∨
        Text.trim trait ≠ "" ∧
          ∃ records, (parse source trait).result = .ok (.single (Text.trim trait) records) := by
  by_cases ht : Text.trim trait = ""
  · exact .inl ⟨ht, by simp only [parse, if_pos ht]⟩
  · by_cases h : ∃ a ∈ Assignment.all source.toList, a.Bare
    · exact .inr (.inl ⟨ht, parse_of_bare ht h⟩)
    · obtain ⟨logs, hp, -⟩ := parse_of_not_bare ht fun a ha hbare => h ⟨a, ha, hbare⟩
      exact .inr (.inr ⟨ht, _, by rw [hp]⟩)

/-! ### Names of members -/

section Labels

open Literal

/-- A name with its colon. -/
def label (first : CodePoint) (rest : List CodePoint) (hfirst : isNameStart first = true)
    (hrest : rest.all isNameChar = true) : Label :=
  ⟨.bare ⟨first, rest, hfirst, List.all_eq_true.1 hrest⟩, .none, .none⟩

def textLabel : Label := label 't' ['e', 'x', 't'] rfl rfl

def syntheticLabel : Label := label 's' ['y', 'n', 't', 'h', 'e', 't', 'i', 'c'] rfl rfl

def typesLabel : Label := label 't' ['y', 'p', 'e', 's'] rfl rfl

end Labels

/-! ### The outcome -/

open Assignment in
/-- Every match of the pattern costs at most itself: the records are those of the matches that can
    be read, in order, and every other match tells that it is skipped, once. The exception is a
    text that ends behind the equals sign of a match whose key denotes a crate, where nothing is
    returned at all. -/
theorem malformed_list_costs_itself (source trait : Text) (ht : Text.trim trait ≠ "") :
    Leftmost source.toList (all source.toList) ∧
      ((∀ a ∈ all source.toList, ¬ a.Bare) → ∃ logs,
        parse source trait =
            ⟨.ok (.single (Text.trim trait) ((all source.toList).flatMap kept)), logs.flatten⟩ ∧
          List.Forall₂ (Told (Text.trim trait)) (all source.toList) logs) ∧
      ((∃ a ∈ all source.toList, a.Bare) → (parse source trait).result = .error .pastEnd) :=
  ⟨leftmost_all _, parse_of_not_bare ht, parse_of_bare ht⟩

/-- The items of the list `[{text:'x'}]`. -/
def shortItems : Literal.Items :=
  .last .none (.object (.last .none textLabel (.text ⟨'\'', "x", ['x'], ['x'], rfl,
    .cons (.same (.raw (by decide) (by decide) (by decide)) (by decide)) .nil⟩) .none)) .none

/-- A list that no bracket closes at the end of the text, and a good one before it: the records of
    the good one are kept. -/
theorem malformed_list_costs_itself_open_bracket :
    Text.trim " m::T " ≠ "" ∧
      (parse "implementors['b'] = [\x7btext:'x'\x7d];\nimplementors['a'] = [" " m::T ").result =
        .ok (.single "m::T" [⟨"x", false, "", "b"⟩]) := by
  let source : Text := "implementors['b'] = [\x7btext:'x'\x7d];\nimplementors['a'] = ["
  let good : Assignment :=
    ⟨("'b'" : Text).toList, ("[\x7btext:'x'\x7d];\nimplementors['a'] = [" : Text).toList⟩
  let bad : Assignment := ⟨("'a'" : Text).toList, [.char '[']⟩
  have hall : Assignment.all source.toList = [good, bad] := by
    have hopening : .char 'i' ∈ Assignment.opening := by decide
    have hskip : Assignment.all good.rest =
        Assignment.all ("implementors['a'] = [" : Text).toList := by
      have hrest : good.rest = ("[\x7btext:'x'\x7d];\n" : Text).toList ++
          ("implementors['a'] = [" : Text).toList := rfl
      have hlast : .char '\n' ∉ Assignment.opening := by decide
      rw [hrest, Assignment.all_append_of_last hlast (by rfl)
        fun hin => absurd (hin.subset hopening) (by decide)]
    rw [Assignment.all_of_some (a := good) (by decide), hskip,
      Assignment.all_of_some (a := bad) (by decide), Assignment.all_of_none (by decide),
      Assignment.all]
  have hbare : ∀ a ∈ Assignment.all source.toList, ¬ a.Bare := by
    rw [hall]
    intro a ha hbare
    rcases List.mem_pair.1 ha with rfl | rfl
    · exact absurd hbare.1 (by decide)
    · exact absurd hbare.1 (by decide)
  obtain ⟨logs, hp, -⟩ := (malformed_list_costs_itself source " m::T " (by decide)).2.1 hbare
  have hgood : good.read? = some (("b" : Text), [.object [(("text" : Text), .text "x")]]) := by
    have hrest : good.rest = .char '[' ::
        (shortItems.chars ++ (";\nimplementors['a'] = [" : Text).toList) := rfl
    exact Assignment.read?_eq_some_iff.2 ⟨rfl, Assignment.entries_of_items hrest 0⟩
  have hbad : bad.read? = none := by
    have hentries : bad.entries 0 = .error .unbalanced := by
      rw [Assignment.entries, Literal.afterLiteral, if_pos (by decide), Literal.closing]
      rfl
    refine Assignment.read?_eq_none fun crate items _ hx => ?_
    rw [hentries] at hx
    exact absurd hx (by simp)
  refine ⟨by decide, ?_⟩
  rw [hp, hall, List.flatMap_cons, List.flatMap_singleton, Assignment.kept, Assignment.kept,
    hgood, hbad]
  rfl

/-- A text that ends behind an equals sign: nothing is skipped, and nothing is returned. -/
theorem bare_assignment_not_skipped :
    (parse "implementors[\"a\"] = " "m::T").result = .error .pastEnd := by
  have hall : Assignment.all ("implementors[\"a\"] = " : Text).toList =
      [⟨("\"a\"" : Text).toList, []⟩] := by
    rw [Assignment.all_of_some (a := ⟨("\"a\"" : Text).toList, []⟩) (by decide), Assignment.all]
  have hbare : ∃ a ∈ Assignment.all ("implementors[\"a\"] = " : Text).toList, a.Bare := by
    rw [hall]
    exact ⟨_, List.mem_singleton_self _, rfl, "a", rfl⟩
  exact parse_of_bare (by decide) hbare

end Fragment
end TraitIndex
