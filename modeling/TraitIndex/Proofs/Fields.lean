import Mathlib.Data.List.DropRight
import Mathlib.Data.List.Nodup
import TraitIndex.Json.Basic

/-! Laws of members.

    Written members come to the members that count: every name once, at its first place, with its
    last value. Where no name stands twice that is what is written. -/

namespace TraitIndex.Fields

variable {α β : Type} {fs : Fields α} {name k : Text} {a : α}

/-! ### One member -/

theorem get?_put_self : get? (put name a fs) name = some a := by
  induction fs with
  | nil => simp [put, get?]
  | cons f rest ih =>
    by_cases h : f.1 = name
    · simp [put, get?, h]
    · simpa [put, get?, h] using ih

theorem get?_put_of_ne (h : k ≠ name) : get? (put k a fs) name = get? fs name := by
  induction fs with
  | nil => simp [put, get?, h]
  | cons f rest ih =>
    by_cases hk : f.1 = k
    · have hne : f.1 ≠ name := hk ▸ h
      simp [put, get?, hk, h]
    · by_cases hname : f.1 = name
      · simp [put, get?, hname, Ne.symm h]
      · simpa [put, get?, hk, hname] using ih

/-- Where no name stands twice, a member is found under its name. -/
theorem get?_of_mem (hd : (fs.map Prod.fst).Nodup) (h : (name, a) ∈ fs) :
    get? fs name = some a := by
  induction fs with
  | nil => exact absurd h List.not_mem_nil
  | cons f rest ih =>
    rw [List.map_cons, List.nodup_cons] at hd
    rcases List.mem_cons.1 h with rfl | hrest
    · simp [get?]
    · have hne : f.1 ≠ name := fun e => hd.1 (e ▸ List.mem_map_of_mem hrest)
      simpa [get?, hne] using ih hd.2 hrest

/-- A name that is there keeps its place, one that is not goes to the end. -/
theorem names_put : (put name a fs).map Prod.fst =
    if name ∈ fs.map Prod.fst then fs.map Prod.fst else fs.map Prod.fst ++ [name] := by
  induction fs with
  | nil => rfl
  | cons f rest ih =>
    by_cases h : f.1 = name
    · simp [put, h]
    · simp only [put, h, if_false, List.map_cons, ih, List.mem_cons, Ne.symm h, false_or]
      split <;> rfl

theorem put_of_not_mem (a : α) (h : name ∉ fs.map Prod.fst) :
    put name a fs = fs ++ [(name, a)] := by
  induction fs with
  | nil => rfl
  | cons f rest ih =>
    obtain ⟨k, b⟩ := f
    rw [List.map_cons, List.mem_cons, not_or] at h
    rw [put, if_neg (Ne.symm h.1), ih h.2]
    rfl

theorem mem_put {p : Text × α} (h : p ∈ put name a fs) : p = (name, a) ∨ p ∈ fs := by
  induction fs with
  | nil => exact .inl (List.mem_singleton.1 h)
  | cons f rest ih =>
    rw [put] at h
    split at h
    · rename_i heq
      rcases List.mem_cons.1 h with rfl | hrest
      · exact .inl (by rw [heq])
      · exact .inr (List.mem_cons_of_mem _ hrest)
    · rcases List.mem_cons.1 h with rfl | hrest
      · exact .inr (List.mem_cons_self ..)
      · exact (ih hrest).imp_right (List.mem_cons_of_mem _)

theorem map_put (f : α → β) :
    (put name a fs).map (fun p => (p.1, f p.2)) =
      put name (f a) (fs.map fun p => (p.1, f p.2)) := by
  induction fs with
  | nil => rfl
  | cons g rest ih =>
    by_cases h : g.1 = name
    · simp [put, h]
    · simp [put, h, ih]

/-! ### Written members -/

variable {pairs : List (Text × α)}

theorem ofPairs_concat (pairs : List (Text × α)) (p : Text × α) :
    ofPairs (pairs ++ [p]) = put p.1 p.2 (ofPairs pairs) := List.foldl_concat _ _ _ _

/-- No name stands twice among the members that count. -/
theorem nodup_ofPairs (pairs : List (Text × α)) : ((ofPairs pairs).map Prod.fst).Nodup := by
  induction pairs using List.reverseRecOn with
  | nil => exact List.nodup_nil
  | append_singleton pairs p ih =>
    rw [ofPairs_concat, names_put]
    split
    · exact ih
    · rename_i hnot
      refine List.nodup_append.2 ⟨ih, List.nodup_singleton _, fun x hx y hy => ?_⟩
      rw [List.mem_singleton.1 hy]
      exact fun e => hnot (e ▸ hx)

/-- A member that counts was written. -/
theorem mem_of_mem_ofPairs {p : Text × α} (h : p ∈ ofPairs pairs) : p ∈ pairs := by
  induction pairs using List.reverseRecOn with
  | nil => exact h
  | append_singleton pairs q ih =>
    rw [ofPairs_concat] at h
    rcases mem_put h with rfl | h
    · exact List.mem_append_right _ (List.mem_singleton_self _)
    · exact List.mem_append_left _ (ih h)

/-- What is done to every value can be done before or after. -/
theorem ofPairs_map (f : α → β) (pairs : List (Text × α)) :
    ofPairs (pairs.map fun p => (p.1, f p.2)) = (ofPairs pairs).map fun p => (p.1, f p.2) := by
  induction pairs using List.reverseRecOn with
  | nil => rfl
  | append_singleton pairs p ih =>
    rw [List.map_append, List.map_singleton, ofPairs_concat, ofPairs_concat, map_put, ih]

/-- Members that have different names all count. -/
theorem ofPairs_of_nodup (h : (pairs.map Prod.fst).Nodup) : ofPairs pairs = pairs := by
  induction pairs using List.reverseRecOn with
  | nil => rfl
  | append_singleton pairs p ih =>
    rw [List.map_append, List.nodup_append] at h
    have hnot : p.1 ∉ pairs.map Prod.fst := fun hp =>
      h.2.2 p.1 hp p.1 (List.mem_singleton_self _) rfl
    rw [ofPairs_concat, ih h.1, put_of_not_mem p.2 hnot]

end TraitIndex.Fields
