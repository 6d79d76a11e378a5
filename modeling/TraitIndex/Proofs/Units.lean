import TraitIndex.Json.Quoted

/-! Texts in units.

    A text can be written in sixteen-bit units and read back from them, halves of pairs included.
    The pieces of a written text are units already, or characters that some units denote: what is
    made of the pieces has the same units. -/

namespace TraitIndex.Text

/-- The units of a code point. -/
def units (n : Nat) : List Nat :=
  if n < 0x10000 then [n] else [0xd800 + (n - 0x10000) / 0x400, 0xdc00 + (n - 0x10000) % 0x400]

/-- The units of a text. -/
def textUnits (s : List CodePoint) : List Nat := s.flatMap fun c => units c.toNat

variable {n h l : Nat}

/-- A character is no half of a pair. -/
theorem isHigh_toNat {c : CodePoint} (hc : c.isChar = true) : isHigh c.toNat = false := by
  have hn : c.toNat < 0xd800 ∨ 0xdfff < c.toNat := by
    obtain ⟨a, rfl⟩ := CodePoint.isChar_iff.1 hc
    exact (CodePoint.toNat_char_valid a).imp id And.left
  simp only [isHigh, Bool.and_eq_false_imp, decide_eq_true_eq, decide_eq_false_iff_not]
  omega

/-- A character beyond the first 65536 is a pair. -/
theorem pair_of_toNat {c : CodePoint} (hc : ¬ c.toNat < 0x10000) :
    isHigh (0xd800 + (c.toNat - 0x10000) / 0x400) = true ∧
      isLow (0xdc00 + (c.toNat - 0x10000) % 0x400) = true ∧
      pairedUnits (0xd800 + (c.toNat - 0x10000) / 0x400)
        (0xdc00 + (c.toNat - 0x10000) % 0x400) = c := by
  have hlast := c.toNat_lt
  refine ⟨?_, ?_, ?_⟩
  · simp only [isHigh, Bool.and_eq_true, decide_eq_true_eq]
    omega
  · simp only [isLow, Bool.and_eq_true, decide_eq_true_eq]
    omega
  · have hsum : 0x10000 + (0xd800 + (c.toNat - 0x10000) / 0x400 - 0xd800) * 0x400 +
        (0xdc00 + (c.toNat - 0x10000) % 0x400 - 0xdc00) = c.toNat := by omega
    rw [pairedUnits, hsum, CodePoint.ofNat_toNat]

/-- A unit on its own is the unit of the code point that is read from it. -/
theorem units_ofNat (hn : n < 0x10000) : units (CodePoint.ofNat n).toNat = [n] := by
  rw [CodePoint.toNat_ofNat (by omega), units, if_pos hn]

/-- The units of a pair are those of the character that is read from it. -/
theorem units_pairedUnits (hh : isHigh h = true) (hl : isLow l = true) :
    units (pairedUnits h l).toNat = [h, l] := by
  simp only [isHigh, isLow, Bool.and_eq_true, decide_eq_true_eq] at hh hl
  have hhigh : 0xd800 + (0x10000 + (h - 0xd800) * 0x400 + (l - 0xdc00) - 0x10000) / 0x400 = h := by
    omega
  have hlow : 0xdc00 + (0x10000 + (h - 0xd800) * 0x400 + (l - 0xdc00) - 0x10000) % 0x400 = l := by
    omega
  rw [pairedUnits, CodePoint.toNat_ofNat (by omega), units, if_neg (by omega), hhigh, hlow]

end TraitIndex.Text

namespace TraitIndex.Json

/-- The units of a piece. -/
def pieceUnits : Piece → List Nat
  | .char c => Text.units c.toNat
  | .unit n => [n]

/-- What is made of pieces has the units of the pieces. -/
theorem textUnits_join {ps : List Piece} (hps : ∀ n ∈ ps.flatMap pieceUnits, n < 0x10000) :
    Text.textUnits (join ps) = ps.flatMap pieceUnits := by
  fun_induction join ps with
  | case1 => rfl
  | case2 c ps ih =>
    rw [List.flatMap_cons] at hps ⊢
    exact congrArg (_ ++ ·) (ih (List.forall_mem_append.1 hps).2)
  | case3 h l ps hpair ih =>
    obtain ⟨hh, hl⟩ := Bool.and_eq_true_iff.1 hpair
    show Text.units (Text.pairedUnits h l).toNat ++ Text.textUnits (join ps) = _
    rw [Text.units_pairedUnits hh hl, ih fun n hn => hps n (by simp [pieceUnits, hn])]
    rfl
  | case4 h l ps _ ih =>
    show Text.units (CodePoint.ofNat h).toNat ++ Text.textUnits (join (.unit l :: ps)) = _
    rw [Text.units_ofNat (hps h (by simp [pieceUnits])),
      ih fun n hn => hps n (List.mem_cons_of_mem h hn)]
    rfl
  | case5 n ps _ ih =>
    show Text.units (CodePoint.ofNat n).toNat ++ Text.textUnits (join ps) = _
    rw [Text.units_ofNat (hps n (by simp [pieceUnits])),
      ih fun m hm => hps m (List.mem_cons_of_mem n hm)]
    rfl

end TraitIndex.Json
