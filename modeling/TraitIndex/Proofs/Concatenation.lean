import TraitIndex.Proofs.Bystanders
import TraitIndex.Proofs.ClientContribution
import TraitIndex.Proofs.FreshStart
import TraitIndex.Proofs.LoadingOrder

/-! The table as a concatenation.

    Values of any kind are contributed to a table, past the page that it belongs to. Since the last
    reset of the table, a trait has the lists that stood under its text, one after another, in the
    order in which they came, and the traits are listed by their first list. A pair whose value is
    no list leaves no trace, not even the place of its trait. What the consumers of the page do has
    no part in this as long as they are bystanders. -/

namespace TraitIndex

namespace Table

/-- Listing traits one by one lists each of them once, by its first place. -/
theorem foldl_listed (traits : List Text) : traits.foldl listed [] = traits.eraseDups := by
  induction traits using List.reverseRecOn with
  | nil => rfl
  | append_singleton traits trait ih =>
    rw [List.foldl_append, ih, List.eraseDups_append]
    simp only [List.foldl_cons, List.foldl_nil, listed, List.mem_eraseDups]
    by_cases h : trait ∈ traits
    · simp [h, List.removeAll]
    · simp [h, List.removeAll, List.eraseDups_cons]

/-- The traits of lists that are gathered, by their first lists. -/
theorem traits_gathered (rows : List (Text × List Implementor)) :
    (empty.appendAll rows).traits = (rows.map Prod.fst).eraseDups := by
  rw [traits_appendAll]
  exact foldl_listed _

end Table

/-- The table of the lists of some values finds the records that they send for a trait. -/
theorem Intake.get_gathered (vs : List Value) (x : Text) :
    (Table.empty.appendAll (vs.flatMap lists)).get x = vs.flatMap (recordsFor x) :=
  get_appendAll_lists .empty vs x

namespace Scenario

/-! ### What is done with a table -/

/-- What is done with a table: a value is contributed, the table starts over, or something happens
    that leaves it as it is. -/
inductive Handling where
  | contribute (v : Value)
  | reset
  | aside (s : Step) (h : s.LeavesTable)

/-- The step by which it is done. -/
def Handling.step : Handling → Step
  | .contribute v => .act (.contributePast v)
  | .reset => .act .resetTable
  | .aside s _ => s

/-- The values contributed since the last reset, after one thing more. -/
def Handling.since (vs : List Value) : Handling → List Value
  | .contribute v => vs ++ [v]
  | .reset => []
  | .aside _ _ => vs

/-- The values contributed since the last reset. -/
def sinceReset (hs : List Handling) : List Value := hs.foldl Handling.since []

/-- The stage after all that was done with the table. -/
def Stage.handle (stage : Stage) (hs : List Handling) : Stage :=
  (stage.performAll (hs.map Handling.step)).1

theorem Stage.handle_cons (stage : Stage) (a : Handling) (hs : List Handling) :
    stage.handle (a :: hs) = (stage.perform a.step).1.handle hs := rfl

/-! ### One thing -/

section Site

variable {site : Site} (htarget : site.target ≠ .relay)

include htarget

/-- What can be taken in as a batch is merged into the table, and the batch is the reply. -/
theorem begins_contributePast {v : Value} {b : Batch} (hbatch : (Intake.batch v).result = .ok b) :
    ∃ moved : Page Listener × Option (Call Listener),
      moved.1.table = site.page.table.merge b ∧
      site.Begins (.contributePast v) ({ site with page := moved.1 }, moved.2)
        fun _ => .ok (.table b) := by
  obtain ⟨moved, hmoved⟩ : ∃ moved : Page Listener × Option (Call Listener), moved =
      if site.target = .page then site.page.accept b else (site.page.merge b, none) := ⟨_, rfl⟩
  have hact : site.act (.contributePast v) =
      ((site.after moved (.reply (.table b)) (.ok (.table b))).1,
        (site.after moved (.reply (.table b)) (.ok (.table b))).2, (Intake.batch v).notices) := by
    rw [Site.act, if_neg htarget, hmoved]
    simp only [Site.contribute, Bool.true_eq_false, false_and, and_false, if_false, hbatch]
  refine ⟨moved, ?_, begins_after (quiet_reply _) hact⟩
  rw [hmoved]
  split
  · rfl
  · rfl

/-- What cannot be taken in is refused. -/
theorem begins_refused {v : Value} {why : Fault} (hbatch : (Intake.batch v).result = .error why) :
    site.Begins (.contributePast v) (site, none) fun _ => .error why := by
  refine ⟨_, (Intake.batch v).notices, ?_, rfl⟩
  rw [Site.act, if_neg htarget]
  simp only [Site.contribute, Bool.true_eq_false, false_and, and_false, if_false, hbatch]

theorem begins_resetTable :
    site.Begins .resetTable ({ site with page := site.page.clearTable }, none)
      fun _ => .ok .nothing := by
  refine ⟨_, [], ?_, rfl⟩
  rw [Site.act, if_neg htarget]
  rfl

theorem begins_lookAtTable {a : Action} {r : Except Fault Reply}
    (h : site.act a = site.lookAtTable r) : site.Begins a (site, none) fun _ => r := by
  refine ⟨_, [], ?_, rfl⟩
  rw [h, Site.lookAtTable, if_neg htarget]
  rfl

end Site

/-! ### All that is done -/

/-- There is a table, its consumers are bystanders, and it has the lists of the values that were
    contributed since it was empty. -/
structure Stage.Holds (stage : Stage) (vs : List Value) : Prop where
  target : stage.site.target ≠ .relay
  bystanders : stage.HasBystanders
  table : stage.site.page.table = Table.empty.appendAll (vs.flatMap Intake.lists)

variable {stage : Stage} {vs : List Value}

/-- What a site had when a step began to leave its table as it is, its stage has at the end. -/
theorem Stage.Holds.of_sameTable {vs' : List Value} {site : Site} {stage' : Stage}
    (h : site.SameTable stage'.site ∧ stage'.HasBystanders) (htarget : site.target ≠ .relay)
    (htable : site.page.table = Table.empty.appendAll (vs'.flatMap Intake.lists)) :
    stage'.Holds vs' where
  target := h.1.target ▸ htarget
  bystanders := h.2
  table := h.1.table.trans htable

theorem holds_contribute (h : stage.Holds vs) (v : Value) :
    (stage.perform (.act (.contributePast v))).1.Holds (vs ++ [v]) := by
  have hbatch := Intake.batch_result v
  by_cases hv : Intake.isAcceptable v = true
  · rw [if_pos hv] at hbatch
    obtain ⟨moved, hmoved, hbegins⟩ := begins_contributePast h.target hbatch
    refine .of_sameTable (perform_begun h.bystanders hbegins) h.target ?_
    rw [hmoved, Table.merge_appendAll, h.table, ← Table.appendAll_append]
    simp
  · rw [if_neg hv] at hbatch
    have hbegins := begins_refused h.target hbatch
    refine .of_sameTable (perform_begun h.bystanders hbegins) h.target ?_
    simp [h.table, Intake.lists_of_not_acceptable hv]

/-- One thing that is done with the table. -/
theorem holds_step (h : stage.Holds vs) (a : Handling) :
    (stage.perform a.step).1.Holds (a.since vs) := by
  cases a with
  | contribute v => exact holds_contribute h v
  | reset =>
    have hbegins := begins_resetTable h.target
    exact .of_sameTable (perform_begun h.bystanders hbegins) h.target rfl
  | aside s hs => exact .of_sameTable (perform_leavesTable h.bystanders hs) h.target h.table

/-- All that is done with the table. -/
theorem holds_handle (h : stage.Holds vs) (hs : List Handling) :
    (stage.handle hs).Holds (hs.foldl Handling.since vs) := by
  induction hs generalizing stage vs with
  | nil => exact h
  | cons a hs ih =>
    rw [Stage.handle_cons]
    exact ih (holds_step h a)

/-- Any values are contributed to an empty table whose consumers are bystanders, with resets and
    whatever leaves the table as it is in between. What was contributed since the last reset is all
    that the table depends on: a trait has the records of the lists under its text, contribution
    after contribution and pair after pair, and is listed once if there was such a list, by the
    first of them. A value whose keys can be written is never refused, and the reply is the batch
    that has been appended, which has the same form. -/
theorem table_is_concatenation (stage : Stage) (htarget : stage.site.target ≠ .relay)
    (hbystanders : stage.HasBystanders) (hempty : stage.site.page.table = .empty)
    (hs : List Handling) :
    (∀ x, ((stage.handle hs).perform (.act (.get (.text x)))).2.reply =
      .ok (.records ((sinceReset hs).flatMap (Intake.recordsFor x)))) ∧
    ((stage.handle hs).perform (.act .traits)).2.reply =
      .ok (.texts (((sinceReset hs).flatMap Intake.lists).map Prod.fst).eraseDups) ∧
    ∀ v, Intake.isAcceptable v = true → ∃ b : Batch, (Intake.batch v).result = .ok b ∧
      (∀ x, b.get x = Intake.recordsFor x v) ∧
      b.traits = ((Intake.lists v).map Prod.fst).eraseDups ∧
      ((stage.handle hs).perform (.act (.contributePast v))).2.reply = .ok (.table b) ∧
      ((stage.handle hs).perform (.act (.contributePast v))).1.site.page.table =
        (stage.handle hs).site.page.table.merge b := by
  have hstart : stage.Holds [] := ⟨htarget, hbystanders, hempty⟩
  have h : (stage.handle hs).Holds (sinceReset hs) := holds_handle hstart hs
  refine ⟨fun x => ?_, ?_, fun v hv => ?_⟩
  · obtain ⟨notices, hget⟩ :=
      perform_ended _ (begins_lookAtTable (a := .get (.text x)) h.target rfl)
    rw [hget, h.table]
    exact congrArg (fun rs => Except.ok (Reply.records rs)) (Intake.get_gathered _ x)
  · obtain ⟨notices, htraits⟩ :=
      perform_ended _ (begins_lookAtTable (a := .traits) h.target rfl)
    rw [htraits, h.table, Table.traits_gathered]
  · have hbatch := Intake.batch_result v
    rw [if_pos hv] at hbatch
    obtain ⟨moved, hmoved, hbegins⟩ := begins_contributePast h.target hbatch
    obtain ⟨stage', events, hperform⟩ := perform_begins (stage.handle hs) _
    obtain ⟨notices, hreply⟩ := hperform _ _ hbegins
    have hsame := (perform_begun h.bystanders hbegins).1
    refine ⟨_, hbatch, fun x => ?_, Table.traits_gathered _, ?_, hsame.table.trans hmoved⟩
    · simpa using Intake.get_gathered [v] x
    · rw [hreply]

/-- A consumer that looks at the table when it is called, and fails. -/
def onlooker : Script := .mk "renderer" [.mk none 1 [.act .traits] true]

theorem leavesTable_onlooker : onlooker.LeavesTable := by
  have htraits : Step.LeavesTable (.act .traits) := .act (Action.leavesTable_of_isAside trivial)
  have hrule : Rule.LeavesTable (.mk none 1 [.act .traits] true) :=
    .mk none 1 true (by simpa using htraits)
  exact .mk "renderer" (by simpa using hrule)

/-- Two keys are one trait, and a pair without a list stands before the list of its trait. -/
def mixedPairs : List (Value × Value) :=
  [(.text "e", .null), (.int 1, .list [.null]), (.text "1", .tuple [.record { crate := "c" }]),
    (.text "e", .list [])]

/-- After a reset a consumer attaches, which is called with every batch, and two values are
    contributed, one of which is no mapping. -/
def mixedHandlings : List Handling :=
  [.contribute (.map [(.text "old", .list [.null])]), .reset,
    .aside (.attach onlooker) (.attach leavesTable_onlooker), .contribute (.map mixedPairs),
    .contribute (.text "1")]

theorem table_is_concatenation_mixed :
    ∃ after : Stage, after = ({ site := {} } : Stage).handle mixedHandlings ∧
      (after.perform (.act (.get (.text "1")))).2.reply = .ok (.records [{}, { crate := "c" }]) ∧
      (after.perform (.act .traits)).2.reply = .ok (.texts ["1", "e"]) ∧
      (after.perform (.act (.contributePast .null))).2.reply = .ok (.table .empty) := by
  have hsince : sinceReset mixedHandlings = [.map mixedPairs, .text "1"] := rfl
  have hone : Integer.isWritable 1 = true := Integer.isWritable_digit (by decide)
  have hlists : [Value.map mixedPairs, .text "1"].flatMap Intake.lists =
      [(("1" : Text), [{}]), ("1", [{ crate := "c" }]), ("e", [])] := by
    have hmixed : Intake.isAcceptable (.map mixedPairs) = true := by
      simp [Intake.isAcceptable, mixedPairs, Value.isWritable, hone]
    rw [List.flatMap_cons, Intake.lists_map hmixed]
    rfl
  obtain ⟨hget, htraits, hreply⟩ := table_is_concatenation { site := {} } (by simp)
    (by simp [Stage.HasBystanders]) rfl mixedHandlings
  refine ⟨_, rfl, ?_, ?_, ?_⟩
  · rw [hget, hsince, ← Intake.get_gathered, hlists]
    rfl
  · rw [htraits, hsince, hlists]
    rfl
  · obtain ⟨b, hb, -, -, h, -⟩ := hreply .null rfl
    obtain rfl : Table.empty = b := Except.ok.inj hb
    exact h

end Scenario
end TraitIndex
