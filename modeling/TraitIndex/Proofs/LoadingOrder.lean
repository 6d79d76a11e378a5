import TraitIndex.Proofs.PageRun
import TraitIndex.Proofs.Shuffles
import TraitIndex.Proofs.TakingIn

/-! The order of loading.

    Several contributors send batches of any shape to one open page. Each batch is a number of
    lists, one for a pair of the mapping, and the page appends every list to its trait. So the table
    depends on nothing but the lists in the order they came, and for one trait on nothing but the
    lists for that trait: what one contributor sends is never lost to another, and contributors who
    have no trait in common do not depend on each other at all. -/

namespace TraitIndex

namespace Intake

/-! ### What a batch sends -/

/-- The list that a pair sends, with its trait, unless its entries are no list. -/
def list? (pair : Value × Value) : Option (Text × List Implementor) :=
  pair.2.items?.map fun items => (pair.1.asText, items.map (entry ""))

/-- The value can be taken in as a batch: all its keys can be written. -/
def isAcceptable : Value → Bool
  | .map pairs => pairs.all (·.1.isWritable)
  | _ => true

/-- The lists that a value sends, in their order; none if it cannot be taken in. -/
def lists (v : Value) : List (Text × List Implementor) :=
  match v with
  | .map pairs => if isAcceptable v then pairs.filterMap list? else []
  | _ => []

/-- The lists that a value sends for a trait. -/
def listsFor (trait : Text) (v : Value) : List (Text × List Implementor) :=
  (lists v).filter (·.1 = trait)

/-- The records that a value sends for a trait. -/
def recordsFor (trait : Text) (v : Value) : List Implementor := (listsFor trait v).flatMap (·.2)

theorem lists_map {pairs : List (Value × Value)} (h : isAcceptable (.map pairs) = true) :
    lists (.map pairs) = pairs.filterMap list? :=
  if_pos h

theorem lists_of_not_acceptable {v : Value} (h : ¬ isAcceptable v = true) : lists v = [] := by
  cases v with
  | map pairs => exact if_neg h
  | _ => rfl

/-- A table that the lists of some values are appended to finds the records that these send. -/
theorem get_appendAll_lists (t : Table) (vs : List Value) (x : Text) :
    (t.appendAll (vs.flatMap lists)).get x = t.get x ++ vs.flatMap (recordsFor x) := by
  rw [Table.get_appendAll, Table.flatMap_eq_filter, List.filter_flatMap, List.flatMap_assoc]
  rfl

theorem foldl_addRow (pairs : List (Value × Value)) (t : Table) :
    (pairs.map row).foldl addRow t = t.appendAll (pairs.filterMap list?) := by
  induction pairs generalizing t with
  | nil => rfl
  | cons p rest ih =>
    rw [List.map_cons, List.foldl_cons, ih]
    cases hitems : p.2.items? <;> simp [addRow, row, list?, hitems, Table.appendAll_cons]

theorem addPairs_of_not_writable {pairs : List (Value × Value)}
    (h : ¬ ∀ p ∈ pairs, p.1.isWritable = true) (t : Table) :
    (addPairs t pairs).result = .error .digitLimit := by
  induction pairs generalizing t with
  | nil => exact absurd (by simp) h
  | cons p rest ih =>
    rw [addPairs]
    by_cases hp : p.1.isWritable = true
    · have hrest : ¬ ∀ p ∈ rest, p.1.isWritable = true := fun hall =>
        h (List.forall_mem_cons.2 ⟨hp, hall⟩)
      rw [addPair_eq t hp, Outcome.ok_bind]
      exact ih hrest _
    · refine Outcome.bind_of_error ?_ _
      rw [addPair]
      exact Outcome.bind_of_error (if_neg hp) _

/-- A batch is its lists, gathered. -/
theorem batch_result (v : Value) :
    (batch v).result =
      if isAcceptable v then .ok (Table.empty.appendAll (lists v)) else .error .digitLimit := by
  cases v with
  | map pairs =>
    by_cases h : isAcceptable (.map pairs) = true
    · rw [if_pos h, lists_map h, ← foldl_addRow]
      exact batch_map (List.all_eq_true.1 h)
    · rw [if_neg h]
      exact addPairs_of_not_writable (fun hall => h (List.all_eq_true.2 hall)) .empty
  | _ => rfl

theorem filter_list? (pairs : List (Value × Value)) (x : Text) :
    (pairs.filterMap list?).filter (·.1 = x) =
      (pairs.filter (·.1.asText = x)).filterMap list? := by
  rw [List.filter_filterMap, List.filterMap_filter]
  congr 1
  funext p
  by_cases h : p.1.asText = x <;> cases hitems : p.2.items? <;> simp [list?, hitems, h]

/-- A mapping cut into pieces sends the lists of all its pairs. -/
theorem flatMap_lists_pieces {pieces : List (List (Value × Value))}
    (h : ∀ p ∈ pieces.flatten, p.1.isWritable = true) :
    (pieces.map Value.map).flatMap lists = pieces.flatten.filterMap list? := by
  induction pieces with
  | nil => rfl
  | cons piece rest ih =>
    rw [List.flatten_cons, List.forall_mem_append] at h
    rw [List.map_cons, List.flatMap_cons, ih h.2, lists_map (List.all_eq_true.2 h.1),
      List.flatten_cons, List.filterMap_append]

end Intake

namespace Table

/-- Two sequences of lists that have the same lists for a trait do the same to it. -/
theorem appendAll_agree {ls ls' : List (Text × List Implementor)} {x : Text}
    (h : ls.filter (·.1 = x) = ls'.filter (·.1 = x)) (t : Table) :
    (x ∈ (t.appendAll ls).traits ↔ x ∈ (t.appendAll ls').traits) ∧
      (t.appendAll ls).get x = (t.appendAll ls').get x := by
  have hmem : ∀ rows : List (Text × List Implementor),
      x ∈ rows.map Prod.fst ↔ rows.filter (·.1 = x) ≠ [] := by
    intro rows
    simp [List.filter_eq_nil_iff]
  rw [mem_traits_appendAll, mem_traits_appendAll, hmem, hmem, h, get_appendAll, get_appendAll,
    flatMap_eq_filter, flatMap_eq_filter, h]
  exact ⟨Iff.rfl, rfl⟩

end Table

namespace Page

variable {κ : Type}

/-! ### A run of contributions -/

/-- What is done with a page while it is being loaded: somebody hands in a batch of any shape, a
    consumer attaches, or the innermost call ends, perhaps by a failure. -/
inductive Act (κ : Type) where
  | contribute (v : Value)
  | attach (c : κ)
  | finish (failed : Bool)

/-- The move of the page; what cannot be taken in as a batch does not get that far. -/
def Act.move? : Act κ → Option (Move κ)
  | .contribute v => (Intake.batch v).result.toOption.map .contribute
  | .attach c => some (.attach c)
  | .finish failed => some (.finish failed)

/-- What is handed in. -/
def Act.value? : Act κ → Option Value
  | .contribute v => some v
  | _ => none

/-- What is handed in, in order. -/
def contributed (acts : List (Act κ)) : List Value := acts.filterMap Act.value?

theorem contributed_append (acts acts' : List (Act κ)) :
    contributed (acts ++ acts') = contributed acts ++ contributed acts' :=
  List.filterMap_append

/-- The world after some acts. -/
def World.run (w : World κ) (acts : List (Act κ)) : World κ :=
  (acts.filterMap Act.move?).foldl World.step w

/-- A page that has been an open page and was then handed some values: it is still open, and every
    list of them was appended. -/
structure Loaded (start : Page κ) (values : List Value) (p : Page κ) : Prop where
  closed : p.closed = false
  table : p.table = start.table.appendAll (values.flatMap Intake.lists)
  revision : p.revision = start.revision + values.countP Intake.isAcceptable

theorem Loaded.trans {start middle p : Page κ} {values values' : List Value}
    (h : Loaded start values middle) (h' : Loaded middle values' p) :
    Loaded start (values ++ values') p where
  closed := h'.closed
  table := by rw [h'.table, h.table, List.flatMap_append, Table.appendAll_append]
  revision := by rw [h'.revision, h.revision, List.countP_append, Nat.add_assoc]

theorem World.run_append (w : World κ) (acts acts' : List (Act κ)) :
    w.run (acts ++ acts') = (w.run acts).run acts' := by
  rw [World.run, List.filterMap_append, List.foldl_append]
  rfl

theorem World.run_single (w : World κ) {a : Act κ} {m : Move κ} (h : a.move? = some m) :
    w.run [a] = w.step m := by
  simp [World.run, h]

theorem loaded_contribute {w : World κ} (hopen : w.page.closed = false) (v : Value) :
    Loaded w.page [v] (w.run [.contribute v]).page := by
  by_cases hv : Intake.isAcceptable v = true
  · obtain ⟨b, hb, hgathered⟩ : ∃ b, (Intake.batch v).result = .ok b ∧
        b = Table.empty.appendAll (Intake.lists v) :=
      ⟨_, by rw [Intake.batch_result, if_pos hv], rfl⟩
    have hmove : (Act.contribute v : Act κ).move? = some (.contribute b) := by
      rw [Act.move?, hb]
      rfl
    rw [w.run_single hmove, World.page_step_contribute hopen]
    refine ⟨hopen, ?_, ?_⟩
    · simp only [List.flatMap_cons, List.flatMap_nil, List.append_nil]
      rw [← Table.merge_appendAll, ← hgathered]
      rfl
    · simp [hv, accept, merge]
  · have hnone : w.run [.contribute v] = w := by
      simp [World.run, Act.move?, Intake.batch_result, hv, Except.toOption]
    rw [hnone]
    exact ⟨hopen, by simp [Intake.lists_of_not_acceptable hv, Table.appendAll], by simp [hv]⟩

/-- An act on an open page appends what is handed in; nothing else changes the table. -/
theorem loaded_act {w : World κ} (hopen : w.page.closed = false) (a : Act κ) :
    Loaded w.page (contributed [a]) (w.run [a]).page := by
  cases a with
  | contribute v => exact loaded_contribute hopen v
  | attach c =>
    rw [w.run_single rfl, World.page_step_attach hopen]
    exact ⟨hopen, rfl, rfl⟩
  | finish failed =>
    rw [w.run_single rfl, World.step]
    split
    · exact ⟨hopen, rfl, rfl⟩
    · exact ⟨hopen, rfl, rfl⟩

/-- The page at the end of a run. -/
theorem loaded_run {w : World κ} (hopen : w.page.closed = false) (acts : List (Act κ)) :
    Loaded w.page (contributed acts) (w.run acts).page := by
  induction acts generalizing w with
  | nil => exact ⟨hopen, rfl, rfl⟩
  | cons a rest ih =>
    have hfirst := loaded_act hopen a
    rw [← List.singleton_append, w.run_append, contributed_append]
    exact hfirst.trans (ih hfirst.closed)

/-! ### The table of a run -/

section Contributors

variable {ι : Type} [DecidableEq ι] {start p p' : Page κ} {sent : ι → List Value}
  {values values' : List Value}

/-- A trait finds a shuffle of what the contributors sent for it. -/
theorem Loaded.get (h : Loaded start values p) (hs : IsShuffle sent values) (x : Text) :
    ∃ s, IsShuffle (fun i => (sent i).flatMap (Intake.recordsFor x)) s ∧
      p.table.get x = start.table.get x ++ s := by
  refine ⟨values.flatMap (Intake.recordsFor x), hs.flatMap _, ?_⟩
  rw [h.table, Intake.get_appendAll_lists]

/-- All records of all lists are counted. -/
theorem Loaded.recordCount [Fintype ι] (h : Loaded start values p) (hs : IsShuffle sent values) :
    p.table.recordCount = start.table.recordCount +
      ∑ i, (((sent i).flatMap Intake.lists).flatMap (·.2)).length := by
  rw [h.table, Table.recordCount_appendAll, ((hs.flatMap Intake.lists).flatMap (·.2)).length]

/-- Every contribution is counted. -/
theorem Loaded.revision_eq [Fintype ι] (h : Loaded start values p) (hs : IsShuffle sent values) :
    p.revision = start.revision + ∑ i, (sent i).countP Intake.isAcceptable := by
  rw [h.revision, hs.countP]

/-- Whatever the order, the same traits are listed. -/
theorem Loaded.traits_iff (h : Loaded start values p) (hs : IsShuffle sent values)
    (h' : Loaded start values' p') (hs' : IsShuffle sent values') (x : Text) :
    x ∈ p.table.traits ↔ x ∈ p'.table.traits := by
  have hmem : ∀ v, v ∈ values ↔ v ∈ values' := fun v =>
    ⟨fun hv => (hs.exists_mem hv).elim fun _ hi => hs'.mem_of_mem hi,
      fun hv => (hs'.exists_mem hv).elim fun _ hi => hs.mem_of_mem hi⟩
  simp only [h.table, h'.table, Table.mem_traits_appendAll, List.mem_map, List.mem_flatMap, hmem]

/-- Whatever the order, a trait that only one contributor has lists for finds the same. -/
theorem Loaded.get_eq (h : Loaded start values p) (hs : IsShuffle sent values)
    (h' : Loaded start values' p') (hs' : IsShuffle sent values') {x : Text}
    (halone : ∀ i j, (sent i).flatMap (Intake.listsFor x) ≠ [] →
      (sent j).flatMap (Intake.listsFor x) ≠ [] → i = j) :
    p.table.get x = p'.table.get x := by
  have hlists : (values.flatMap Intake.lists).filter (·.1 = x) =
      (values'.flatMap Intake.lists).filter (·.1 = x) := by
    rw [List.filter_flatMap, List.filter_flatMap]
    exact (hs.flatMap (Intake.listsFor x)).unique (hs'.flatMap _) halone
  rw [h.table, h'.table]
  exact (Table.appendAll_agree hlists start.table).2

end Contributors

/-! ### A batch in pieces -/

/-- The pairs of a batch are handed in one piece after another; the pairs of each trait stay in
    their order. -/
structure IsSplit (pairs : List (Value × Value)) (pieces : List (List (Value × Value))) : Prop where
  acceptable : Intake.isAcceptable (.map pairs) = true
  order : ∀ x, pieces.flatten.filter (·.1.asText = x) = pairs.filter (·.1.asText = x)

/-- The acts by which some pieces of a batch are handed in. -/
def contributions (pieces : List (List (Value × Value))) : List (Act κ) :=
  pieces.map fun piece => .contribute (.map piece)

theorem contributed_contributions (pieces : List (List (Value × Value))) :
    contributed (contributions pieces : List (Act κ)) = pieces.map Value.map := by
  induction pieces with
  | nil => rfl
  | cons piece rest ih => exact congrArg (.map piece :: ·) ih

/-- The lists of a batch in pieces. -/
theorem IsSplit.lists {pairs : List (Value × Value)} {pieces : List (List (Value × Value))}
    (h : IsSplit pairs pieces) :
    (pieces.map Value.map).flatMap Intake.lists = pieces.flatten.filterMap Intake.list? ∧
      Intake.lists (.map pairs) = pairs.filterMap Intake.list? := by
  refine ⟨Intake.flatMap_lists_pieces fun p hp => ?_, Intake.lists_map h.acceptable⟩
  have hmem : p ∈ pairs.filter (·.1.asText = p.1.asText) := by
    rw [← h.order]
    exact List.mem_filter.2 ⟨hp, by simp⟩
  exact List.all_eq_true.1 h.acceptable p (List.mem_of_mem_filter hmem)

section Split

variable {w : World κ} {pairs : List (Value × Value)} {pieces : List (List (Value × Value))}

/-- The table after a batch in pieces in the course of a run. -/
theorem table_pieces (hopen : w.page.closed = false) (h : IsSplit pairs pieces)
    (before after : List (Act κ)) :
    (w.run (before ++ (contributions pieces ++ after))).page.table =
      w.page.table.appendAll ((contributed before).flatMap Intake.lists ++
        (pieces.flatten.filterMap Intake.list? ++ (contributed after).flatMap Intake.lists)) := by
  rw [(loaded_run hopen _).table, contributed_append, contributed_append,
    contributed_contributions, List.flatMap_append, List.flatMap_append, h.lists.1]

theorem table_whole (hopen : w.page.closed = false) (h : IsSplit pairs pieces)
    (before after : List (Act κ)) :
    (w.run (before ++ .contribute (.map pairs) :: after)).page.table =
      w.page.table.appendAll ((contributed before).flatMap Intake.lists ++
        (pairs.filterMap Intake.list? ++ (contributed after).flatMap Intake.lists)) := by
  have hcontributed : contributed (Act.contribute (.map pairs) :: after) =
      .map pairs :: contributed after := rfl
  rw [(loaded_run hopen _).table, contributed_append, hcontributed, List.flatMap_append,
    List.flatMap_cons, h.lists.2]

/-- In pieces a batch does to each trait what it does as a whole. -/
theorem split_agrees (hopen : w.page.closed = false) (h : IsSplit pairs pieces)
    (before after : List (Act κ)) (x : Text) :
    (x ∈ (w.run (before ++ (contributions pieces ++ after))).page.table.traits ↔
        x ∈ (w.run (before ++ .contribute (.map pairs) :: after)).page.table.traits) ∧
      (w.run (before ++ (contributions pieces ++ after))).page.table.get x =
        (w.run (before ++ .contribute (.map pairs) :: after)).page.table.get x := by
  rw [table_pieces hopen h, table_whole hopen h]
  refine Table.appendAll_agree ?_ _
  simp only [List.filter_append, Intake.filter_list?, h.order]

/-- In pieces that are in order, the table is the same. -/
theorem split_in_order (hopen : w.page.closed = false) (h : IsSplit pairs pieces)
    (horder : pieces.flatten = pairs) (before after : List (Act κ)) :
    (w.run (before ++ (contributions pieces ++ after))).page.table =
      (w.run (before ++ .contribute (.map pairs) :: after)).page.table := by
  rw [table_pieces hopen h, table_whole hopen h, horder]

end Split

/-! ### Nothing is lost -/

/-- Contributors load an open page in some order. Each trait finds a shuffle of what they sent for
    it behind what was there, all records and all contributions are counted, and on what only one
    contributor sends the order has no influence. Nor does it matter whether a batch comes whole or
    in pieces. -/
theorem nothing_lost_in_any_order {ι : Type} [Fintype ι] [DecidableEq ι] {w : World κ}
    (hopen : w.page.closed = false) (sent : ι → List Value) :
    (∀ acts : List (Act κ), IsShuffle sent (contributed acts) →
      (∀ x, ∃ s, IsShuffle (fun i => (sent i).flatMap (Intake.recordsFor x)) s ∧
        (w.run acts).page.table.get x = w.page.table.get x ++ s) ∧
      (w.run acts).page.table.recordCount = w.page.table.recordCount +
        ∑ i, (((sent i).flatMap Intake.lists).flatMap (·.2)).length ∧
      (w.run acts).page.revision =
        w.page.revision + ∑ i, (sent i).countP Intake.isAcceptable) ∧
    (∀ acts acts' : List (Act κ), IsShuffle sent (contributed acts) →
      IsShuffle sent (contributed acts') → ∀ x,
        (x ∈ (w.run acts).page.table.traits ↔ x ∈ (w.run acts').page.table.traits) ∧
        ((∀ i j, (sent i).flatMap (Intake.listsFor x) ≠ [] →
            (sent j).flatMap (Intake.listsFor x) ≠ [] → i = j) →
          (w.run acts).page.table.get x = (w.run acts').page.table.get x)) ∧
    ∀ pairs pieces, IsSplit pairs pieces → ∀ before after : List (Act κ),
      (∀ x,
        (x ∈ (w.run (before ++ (contributions pieces ++ after))).page.table.traits ↔
          x ∈ (w.run (before ++ .contribute (.map pairs) :: after)).page.table.traits) ∧
        (w.run (before ++ (contributions pieces ++ after))).page.table.get x =
          (w.run (before ++ .contribute (.map pairs) :: after)).page.table.get x) ∧
      (pieces.flatten = pairs →
        (w.run (before ++ (contributions pieces ++ after))).page.table =
          (w.run (before ++ .contribute (.map pairs) :: after)).page.table) := by
  refine ⟨fun acts hs => ?_, fun acts acts' hs hs' x => ?_, fun pairs pieces h before after => ?_⟩
  · have h := loaded_run hopen acts
    exact ⟨h.get hs, h.recordCount hs, h.revision_eq hs⟩
  · have h := loaded_run hopen acts
    have h' := loaded_run hopen acts'
    exact ⟨h.traits_iff hs h' hs' x, h.get_eq hs h' hs'⟩
  · exact ⟨split_agrees hopen h before after,
      fun horder => split_in_order hopen h horder before after⟩

/-- A batch whose two keys are one trait. -/
def collidingPairs : List (Value × Value) :=
  [(.bool true, .list [.record { crate := "c" }]), (.text "True", .tuple [.null])]

/-- Two contributors; one of them sends for one trait twice. -/
def twoContributors : Bool → List Value
  | true => [.map [(.text "a", .list [.record {}])], .map [(.text "a", .list []), (.null, .null)]]
  | false => [.map collidingPairs]

/-- One contributor comes between the two batches of the other, and a consumer after it. -/
def takingTurns : List (Act Unit) :=
  [.contribute (.map [(.text "a", .list [.record {}])]), .contribute (.map collidingPairs),
    .attach (), .finish false, .contribute (.map [(.text "a", .list []), (.null, .null)])]

theorem nothing_lost_in_any_order_two :
    ({} : World Unit).page.closed = false ∧
    IsShuffle twoContributors (contributed takingTurns) ∧
    (({} : World Unit).run takingTurns).page.table.recordCount = 3 ∧
    (({} : World Unit).run takingTurns).page.revision = 3 ∧
    IsSplit collidingPairs (collidingPairs.map fun p => [p]) ∧
    (({} : World Unit).run (contributions (collidingPairs.map fun p => [p]))).page.table =
      (({} : World Unit).run [.contribute (.map collidingPairs)]).page.table := by
  have hshuffle : IsShuffle twoContributors (contributed takingTurns) := by
    refine ⟨[(true, .map [(.text "a", .list [.record {}])]), (false, .map collidingPairs),
      (true, .map [(.text "a", .list []), (.null, .null)])], rfl, fun i => ?_⟩
    cases i <;> rfl
  have hsplit : IsSplit collidingPairs (collidingPairs.map fun p => [p]) := ⟨rfl, fun _ => rfl⟩
  obtain ⟨hrun, -, hpieces⟩ :=
    nothing_lost_in_any_order (w := ({} : World Unit)) rfl twoContributors
  obtain ⟨-, hcount, hrevision⟩ := hrun takingTurns hshuffle
  refine ⟨rfl, hshuffle, hcount.trans ?_, hrevision.trans ?_, hsplit, ?_⟩
  · rfl
  · rfl
  · have h := (hpieces _ _ hsplit [] []).2 rfl
    rwa [List.append_nil] at h

end Page
end TraitIndex
