import Mathlib.Algebra.BigOperators.Group.Finset.Piecewise
import Mathlib.Data.Fintype.Basic

/-! Shuffles.

    Several parties have a sequence each. A shuffle takes one item at a time from any of them until
    nothing is left, so that each party's items stay in their own order. Whatever is made of the
    items one by one is shuffled in the same way. -/

namespace TraitIndex

variable {ι α β : Type} [DecidableEq ι]

/-- The sequence is made of the parties' own, each item marked with the party it comes from. -/
def IsShuffle (own : ι → List α) (s : List α) : Prop :=
  ∃ marked : List (ι × α), marked.map Prod.snd = s ∧
    ∀ i, (marked.filter (·.1 = i)).map Prod.snd = own i

namespace IsShuffle

variable {own : ι → List α} {s s' : List α}

/-- Replacing every item by some others replaces them in the parties' own sequences. -/
theorem flatMap (h : IsShuffle own s) (f : α → List β) :
    IsShuffle (fun i => (own i).flatMap f) (s.flatMap f) := by
  obtain ⟨marked, rfl, hown⟩ := h
  refine ⟨marked.flatMap fun m => (f m.2).map (m.1, ·), ?_, fun i => ?_⟩
  · simp [List.map_flatMap, List.flatMap_map]
  · simp only [← hown i]
    clear hown
    induction marked with
    | nil => rfl
    | cons m rest ih =>
      have hmarks : ((f m.2).map (m.1, ·)).filter (·.1 = i) =
          if m.1 = i then (f m.2).map (m.1, ·) else [] := by
        by_cases hi : m.1 = i <;> simp [List.filter_map, Function.comp_def, hi]
      rw [List.flatMap_cons, List.filter_append, List.map_append, ih, hmarks]
      by_cases hi : m.1 = i <;> simp [hi]

theorem exists_mem (h : IsShuffle own s) {a : α} (ha : a ∈ s) : ∃ i, a ∈ own i := by
  obtain ⟨marked, rfl, hown⟩ := h
  obtain ⟨m, hm, rfl⟩ := List.mem_map.1 ha
  refine ⟨m.1, ?_⟩
  rw [← hown m.1]
  exact List.mem_map_of_mem (List.mem_filter.2 ⟨hm, by simp⟩)

theorem mem_of_mem (h : IsShuffle own s) {i : ι} {a : α} (ha : a ∈ own i) : a ∈ s := by
  obtain ⟨marked, rfl, hown⟩ := h
  rw [← hown i] at ha
  exact List.map_subset _ (List.filter_subset_self _) ha

/-- What only one party has something for comes in that party's order. -/
theorem eq_own (h : IsShuffle own s) {i : ι} (halone : ∀ j, own j ≠ [] → j = i) : s = own i := by
  obtain ⟨marked, rfl, hown⟩ := h
  rw [← hown i, List.filter_eq_self.2]
  intro m hm
  have hne : own m.1 ≠ [] := by
    rw [← hown m.1]
    exact List.ne_nil_of_mem (List.mem_map_of_mem (List.mem_filter.2 ⟨hm, by simp⟩))
  simpa using halone m.1 hne

/-- If at most one party has something, there is one order only. -/
theorem unique (h : IsShuffle own s) (h' : IsShuffle own s')
    (halone : ∀ i j, own i ≠ [] → own j ≠ [] → i = j) : s = s' := by
  by_cases hnobody : ∀ i, own i = []
  · have hnone : ∀ {r : List α}, IsShuffle own r → r = [] := by
      intro r hr
      refine List.eq_nil_iff_forall_not_mem.2 fun a ha => ?_
      obtain ⟨i, hi⟩ := hr.exists_mem ha
      simp [hnobody i] at hi
    rw [hnone h, hnone h']
  · obtain ⟨i, hi⟩ := not_forall.1 hnobody
    rw [h.eq_own fun j hj => halone j i hj hi, h'.eq_own fun j hj => halone j i hj hi]

/-- What is counted in a shuffle is counted with each party. -/
theorem countP [Fintype ι] (h : IsShuffle own s) (p : α → Bool) :
    s.countP p = ∑ i, (own i).countP p := by
  obtain ⟨marked, rfl, hown⟩ := h
  simp only [← hown]
  clear hown
  induction marked with
  | nil => simp
  | cons m rest ih =>
    have hparty : ∀ i, (((m :: rest).filter (·.1 = i)).map Prod.snd).countP p =
        ((rest.filter (·.1 = i)).map Prod.snd).countP p +
          if m.1 = i then (if p m.2 then 1 else 0) else 0 := by
      intro i
      by_cases hi : m.1 = i <;> simp [hi, List.countP_cons]
    simp only [hparty, Finset.sum_add_distrib, Finset.sum_ite_eq, Finset.mem_univ, if_true]
    rw [List.map_cons, List.countP_cons, ih]

theorem length [Fintype ι] (h : IsShuffle own s) : s.length = ∑ i, (own i).length := by
  simpa using h.countP fun _ => true

end IsShuffle
end TraitIndex
