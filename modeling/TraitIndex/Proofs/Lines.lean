import Mathlib.Data.List.Chain
import TraitIndex.Proofs.Generated
import TraitIndex.Proofs.Keys

/-! The lines of a generated fragment.

    The assignment of each line is found, unless a match that starts in a line before it goes over
    the end of that line. Such a match has a line break in its key, and denotes no crate. -/

namespace TraitIndex.Fragment

namespace Assignment

/-! ### Matches over the end of a line -/

/-- No line that starts with the given letter starts between two neighbours. -/
def Within (c d : CodePoint) : Prop := c = '\n' → d ≠ 'i'

theorem isChain_of_not_newline {s : List CodePoint} (h : .char '\n' ∉ s) : s.IsChain Within := by
  refine (List.pairwise_of_forall_mem_list fun c hc d _ => ?_).isChain
  rintro rfl
  exact absurd hc h

theorem isChain_of_not_letter {s : List CodePoint} (h : .char 'i' ∉ s) : s.IsChain Within := by
  refine (List.pairwise_of_forall_mem_list fun c _ d hd => ?_).isChain
  rintro - rfl
  exact h hd

theorem Blanks.not_mem {s : List CodePoint} (h : Blanks s) {c : CodePoint}
    (hc : Text.isBlank c = false) :
    c ∉ s := by
  intro hmem
  rw [h c hmem] at hc
  exact absurd hc (by simp)

/-- A match that goes over the start of a line has a line break in its key. -/
theorem newline_mem_key {key before after : List CodePoint} (h : Matches key (before ++ after))
    (hbefore : .char '\n' ∈ before.getLast?) (hafter : .char 'i' ∈ after.head?) :
    .char '\n' ∈ key := by
  by_contra hkey
  obtain ⟨b₁, b₂, b₃, b₄, ⟨quote, t, hquote, -, hk⟩, hb₁, hb₂, hb₃, hb₄, he⟩ := h
  have hblank : Text.isBlank 'i' = false := by decide
  have hend : .char 'i' ∉ b₂ ++ .char ']' :: (b₃ ++ .char '=' :: b₄) := by
    simp only [List.mem_append, List.mem_cons, hb₂.not_mem hblank, hb₃.not_mem hblank,
      hb₄.not_mem hblank, or_false, false_or]
    decide
  have hhead : ∀ c ∈ key.head?, c ≠ 'i' := by
    rw [hk]
    rintro c ⟨⟩ rfl
    exact absurd hquote (by decide)
  have hrest : (key ++ (b₂ ++ .char ']' :: (b₃ ++ .char '=' :: b₄))).IsChain Within := by
    refine List.isChain_append.2 ⟨isChain_of_not_newline hkey, isChain_of_not_letter hend, ?_⟩
    intro c _ d hd _ hi
    exact hend (hi ▸ List.mem_of_mem_head? hd)
  have htail : (b₁ ++ (key ++ (b₂ ++ .char ']' :: (b₃ ++ .char '=' :: b₄)))).IsChain Within := by
    refine List.isChain_append.2 ⟨isChain_of_not_letter (hb₁.not_mem hblank), hrest, ?_⟩
    intro c _ d hd _
    rw [hk] at hd
    exact hhead d (by rw [hk]; exact hd)
  have hall : (before ++ after).IsChain Within := by
    rw [he]
    refine List.isChain_append.2 ⟨isChain_of_not_newline (by decide), htail, ?_⟩
    intro c hc d _ hn
    have hopening : '[' = c := Option.some.inj hc
    rw [← hopening] at hn
    exact absurd hn (by decide)
  exact (List.isChain_append.1 hall).2.2 '\n' hbefore 'i' hafter rfl rfl

/-- The match at the start of a line is found, unless one that starts before it goes over the start
    of the line. -/
theorem all_line {before s : List CodePoint} {a : Assignment}
    (hbefore : ∀ c ∈ before.getLast?, c = .char '\n') (hs : .char 'i' ∈ s.head?)
    (ha : start? s = some a) :
    (∃ as, all (before ++ s) = as ++ a :: all a.rest) ∨
      ∃ b ∈ all (before ++ s), .char '\n' ∈ b.key := by
  refine (all_place before ha).imp_right ?_
  rintro ⟨b, hb, front, back, head, rfl, hback, hhead, rfl, hmatch⟩
  refine ⟨b, hb, newline_mem_key hmatch ?_ ?_⟩
  · obtain ⟨x, hx⟩ : ∃ x, back.getLast? = some x :=
      Option.isSome_iff_exists.1 (List.getLast?_isSome.2 hback)
    rw [List.getLast?_append_of_ne_nil front hback, hx] at hbefore
    rw [hx, hbefore x rfl]
    rfl
  · rwa [List.head?_append_of_ne_nil head hhead] at hs

end Assignment

open Assignment

theorem start?_line (c : CrateList) (after : List CodePoint) :
    start? (c.line ++ after) = some ⟨c.name.quoted, c.listLine ++ after⟩ := by
  have hkey : IsKey c.name.quoted :=
    ⟨'"', c.name.chars, rfl, (keyText_of_textForm c.name.form).1, rfl⟩
  have hline : c.line ++ after = opening ++ ([] ++ (c.name.quoted ++ ([] ++ .char ']' ::
      ([.char ' '] ++ .char '=' :: ([.char ' '] ++ (c.listLine ++ after)))))) := by
    simp only [CrateList.line, List.append_assoc]
    rfl
  rw [hline]
  exact start?_append hkey .nil .nil (.single rfl) (.single rfl) (solid_cons (by decide) _)

theorem lines_nil : lines [] = epilogue := by
  rw [lines, List.flatMap_nil, List.nil_append]

theorem lines_cons (c : CrateList) (cs : List CrateList) :
    lines (c :: cs) = c.line ++ lines cs := by
  rw [lines, List.flatMap_cons, List.append_assoc]
  rfl

/-- The assignments of all lines are found, in their order, unless some match has a line break in
    its key. -/
theorem sublist_all (crates : List CrateList) {before : List CodePoint}
    (hbefore : ∀ c ∈ before.getLast?, c = '\n') :
    (assignments crates).Sublist (all (before ++ lines crates)) ∨
      ∃ b ∈ all (before ++ lines crates), .char '\n' ∈ b.key := by
  induction crates generalizing before with
  | nil => exact .inl (List.nil_sublist _)
  | cons c cs ih =>
    have hlast : ∀ d ∈ c.listLine.getLast?, d = '\n' := by
      intro d hd
      rw [CrateList.listLine, ← List.cons_append, List.getLast?_append] at hd
      exact (Option.some.inj hd).symm
    rw [lines_cons]
    rcases all_line hbefore (by rfl) (start?_line c (lines cs)) with ⟨as, has⟩ | hb
    · rw [has]
      rcases ih hlast with hsub | ⟨b, hb, hkey⟩
      · exact .inl ((hsub.cons_cons _).trans (List.sublist_append_right as _))
      · exact .inr ⟨b, List.mem_append_right as (List.mem_cons_of_mem _ hb), hkey⟩
    · exact .inr hb

end TraitIndex.Fragment
