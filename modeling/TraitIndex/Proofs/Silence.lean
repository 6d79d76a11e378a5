import TraitIndex.Proofs.LoadingOrder

/-! What is repaired in silence.

    A batch is well-formed if it is a mapping of lists, and every field that an entry has is of its
    kind. Notices tell whether there is a mapping, whether there are lists, and of an entry whether
    it has a text to display. Of the other fields they tell nothing: a synthetic mark, a type path
    or a crate of the wrong kind gets its default in silence. So a batch that is taken in without a
    notice is well-formed exactly if these three are of their kinds wherever they stand. -/

namespace TraitIndex

namespace Value

def isText : Value → Bool
  | .text _ => true
  | _ => false

def isBool : Value → Bool
  | .bool _ => true
  | _ => false

end Value

namespace Intake

/-! ### Fields of their kinds -/

/-- There is a text to display. -/
def hasText (fields : List (Value × Value)) : Bool :=
  (firstPresent? fields displayTextNames).any (·.2.isText)

/-- The synthetic mark, if there is one, is a truth value. -/
def markFits (fields : List (Value × Value)) : Bool :=
  (firstPresent? fields syntheticNames).all (·.2.isBool)

/-- The type path, if there is one, is a text, or a list under the name that stands for a list,
    which is empty or begins with a text. -/
def pathFits (fields : List (Value × Value)) : Bool :=
  (firstPresent? fields typePathNames).all fun (name, v) =>
    v.isText || (name = "types" && v.items?.any (·.head?.all Value.isText))

/-- The crate, if there is one, is a text. -/
def crateFits (fields : List (Value × Value)) : Bool :=
  (Value.lookup fields "crate").all Value.isText

/-- The entry is a record, or a mapping with a text to display. -/
def isLegible : Value → Bool
  | .record _ => true
  | .map fields => hasText fields
  | _ => false

/-- What the entry has besides its text is of its kind. -/
def restFits : Value → Bool
  | .map fields => markFits fields && (pathFits fields && crateFits fields)
  | _ => true

/-- The value is a mapping of lists or tuples, every entry of which is as it is asked to be. -/
def everyEntry (asked : Value → Bool) : Value → Bool
  | .map pairs => pairs.all fun p => p.2.items?.any (·.all asked)
  | _ => false

/-- The value is a well-formed batch. -/
def isWellFormed : Value → Bool := everyEntry fun e => isLegible e && restFits e

theorem everyEntry_iff {asked : Value → Bool} {x : Value} :
    everyEntry asked x = true ↔ ∃ pairs, x = .map pairs ∧
      ∀ p ∈ pairs, ∃ items, p.2.items? = some items ∧ ∀ e ∈ items, asked e = true := by
  cases x with
  | map pairs => simp [everyEntry, Option.any_eq_true]
  | _ => simp [everyEntry]

theorem everyEntry_and {asked asked' : Value → Bool} {x : Value} :
    everyEntry (fun e => asked e && asked' e) x = true ↔
      everyEntry asked x = true ∧ everyEntry asked' x = true := by
  simp only [everyEntry_iff, Bool.and_eq_true]
  constructor
  · rintro ⟨pairs, rfl, h⟩
    refine ⟨⟨pairs, rfl, fun p hp => ?_⟩, ⟨pairs, rfl, fun p hp => ?_⟩⟩
    · obtain ⟨items, hitems, hall⟩ := h p hp
      exact ⟨items, hitems, fun e he => (hall e he).1⟩
    · obtain ⟨items, hitems, hall⟩ := h p hp
      exact ⟨items, hitems, fun e he => (hall e he).2⟩
  · rintro ⟨⟨pairs, rfl, h⟩, ⟨_, hpairs, h'⟩⟩
    cases hpairs
    refine ⟨pairs, rfl, fun p hp => ?_⟩
    obtain ⟨items, hitems, hall⟩ := h p hp
    obtain ⟨items', hitems', hall'⟩ := h' p hp
    rw [hitems] at hitems'
    cases hitems'
    exact ⟨items, hitems, fun e he => ⟨hall e he, hall' e he⟩⟩

/-! ### Notices -/

/-- Of an entry notices tell nothing but whether there is a text to display. -/
theorem entryNotices_eq_nil_iff (e : Value) : entryNotices e = [] ↔ isLegible e = true := by
  cases e with
  | map fields =>
    rw [entryNotices, isLegible, hasText]
    rcases firstPresent? fields displayTextNames with _ | ⟨name, v⟩
    · simp
    · cases v <;> simp [Value.isText]
  | _ => simp [entryNotices, isLegible]

theorem pairNotices_eq_nil_iff (p : Value × Value) :
    pairNotices p = [] ↔
      ∃ items, p.2.items? = some items ∧ ∀ e ∈ items, isLegible e = true := by
  rw [pairNotices]
  cases p.2.items? with
  | none => simp
  | some items => simp [List.flatMap_eq_nil_iff, entryNotices_eq_nil_iff]

/-- A value is taken in without a notice if it is a mapping of lists, every entry of which is a
    record or has a text to display. -/
theorem notices_eq_nil_iff {x : Value} (h : isAcceptable x = true) :
    (batch x).notices = [] ↔ everyEntry isLegible x = true := by
  rw [everyEntry_iff]
  cases x with
  | map pairs =>
    rw [batch_map_eq (List.all_eq_true.1 h)]
    simp [List.flatMap_eq_nil_iff, pairNotices_eq_nil_iff]
  | _ => simp [batch, Outcome.note_bind]

theorem isAcceptable_of_batch {x : Value} {b : Batch} (h : (batch x).result = .ok b) :
    isAcceptable x = true := by
  by_contra hx
  rw [batch_result, if_neg hx] at h
  cases h

/-! ### Defaults -/

theorem isSynthetic_of_not_fits {fields : List (Value × Value)} (h : markFits fields = false) :
    isSynthetic fields = false := by
  rw [isSynthetic]
  split
  · rename_i hfound
    simp [markFits, hfound, Value.isBool] at h
  · rfl

theorem firstPath_of_not_text {items? : Option (List Value)}
    (h : items?.any (·.head?.all Value.isText) = false) : firstPath items? = "" := by
  rw [firstPath.eq_def]
  split
  · simp [Value.isText] at h
  · rfl

theorem typePath_of_not_fits {fields : List (Value × Value)} (h : pathFits fields = false) :
    typePath fields = "" := by
  rw [typePath]
  split
  · rename_i hfound
    simp [pathFits, hfound, Value.isText] at h
  · rename_i name v _ hfound
    split
    · rename_i hname
      simp only [pathFits, hfound, Option.all_some, hname, decide_true, Bool.true_and,
        Bool.or_eq_false_iff] at h
      exact firstPath_of_not_text h.2
    · rfl
  · rfl

theorem crateOr_of_not_fits {fields : List (Value × Value)} (h : crateFits fields = false)
    (crate : Text) : crateOr crate fields = crate := by
  rw [crateOr]
  split
  · rename_i hfound
    simp [crateFits, hfound, Value.isText] at h
  · rfl

/-! ### What is told and what is not -/

/-- No notice is written about a value that is taken in exactly if it is a mapping of lists, every
    entry of which is a record or has a text to display. So nothing is told of a well-formed batch,
    and that nothing is told means a well-formed batch exactly if in such a mapping the synthetic
    marks, type paths and crates are of their kinds as well. Those that are not get their
    defaults. -/
theorem silent_iff_legible {x : Value} {b : Batch} (h : (batch x).result = .ok b) :
    ((batch x).notices = [] ↔ everyEntry isLegible x = true) ∧
    (isWellFormed x = true → (batch x).notices = []) ∧
    (((batch x).notices = [] → isWellFormed x = true) ↔
      (everyEntry isLegible x = true → everyEntry restFits x = true)) ∧
    ∀ fields,
      (markFits fields = false → (entry "" (.map fields)).isSynthetic = false) ∧
      (pathFits fields = false → (entry "" (.map fields)).typePath = "") ∧
      (crateFits fields = false → (entry "" (.map fields)).crate = "") := by
  have hsilent := notices_eq_nil_iff (isAcceptable_of_batch h)
  have hformed : isWellFormed x = true ↔
      everyEntry isLegible x = true ∧ everyEntry restFits x = true := everyEntry_and
  refine ⟨hsilent, fun hx => hsilent.2 (hformed.1 hx).1, ?_, fun fields => ?_⟩
  · rw [hsilent, hformed]
    exact ⟨fun hall hx => (hall hx).2, fun hall hx => ⟨hx, hall hx⟩⟩
  · exact ⟨isSynthetic_of_not_fits, typePath_of_not_fits, fun hf => crateOr_of_not_fits hf ""⟩

/-- An entry that names no crate where it should, and has no type path, which it need not have. -/
def crateless : Value :=
  .map [(.text "t", .tuple [.record {}, .map [(.text "text", .text "a"), (.text "types", .list []),
    (.text "crate", .null)]])]

theorem silent_iff_legible_crateless :
    (batch crateless).result = .ok (.single "t" [{}, { displayText := "a" }]) ∧
      (batch crateless).notices = [] ∧ isWellFormed crateless = false := by
  have hbatch : (batch crateless).result = .ok (.single "t" [{}, { displayText := "a" }]) := rfl
  exact ⟨hbatch, (silent_iff_legible hbatch).1.2 rfl, rfl⟩

/-- An entry with a text as its synthetic mark. -/
def mismarked : Value :=
  .map [(.text "t", .list [.map [(.text "displayText", .text "a"),
    (.text "isSynthetic", .text "yes")]])]

/-- The mark is replaced in silence. -/
theorem mark_replaced_in_silence :
    batch mismarked = ⟨.ok (.single "t" [{ displayText := "a" }]), []⟩ ∧
      isWellFormed mismarked = false := ⟨rfl, rfl⟩

end Intake
end TraitIndex
