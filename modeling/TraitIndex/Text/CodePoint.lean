/-! Code points.

    A text is written in characters, but half of a surrogate pair may stand in it on its own: an
    escape in a document can name one without its partner. Such a half is no character and no bytes
    stand for it, yet two different halves are different, so texts are made of code points:
    characters and halves. A character is taken for the code point that it is. -/

namespace TraitIndex

/-- A character, or half of a surrogate pair without its partner. -/
inductive CodePoint where
  | char (c : Char)
  | half (n : Fin 0x800)
  deriving DecidableEq, Repr

namespace CodePoint

instance : Coe Char CodePoint := ⟨char⟩

instance : Inhabited CodePoint := ⟨'\x00'⟩

/-- The number of a code point. -/
def toNat : CodePoint → Nat
  | char c => c.toNat
  | half n => 0xd800 + n

/-- The code point of a number; beyond the last it is the null character. -/
def ofNat (n : Nat) : CodePoint :=
  if h : 0xd800 ≤ n ∧ n < 0xe000 then half ⟨n - 0xd800, by omega⟩ else char (Char.ofNat n)

/-- The character, unless it is a half. -/
def char? : CodePoint → Option Char
  | char c => some c
  | half _ => none

/-- One of the digits `0` to `9`. -/
def isDigit (c : CodePoint) : Bool := 48 ≤ c.toNat && c.toNat ≤ 57

/-- The code point is a character. -/
def isChar (c : CodePoint) : Bool := c.char?.isSome

instance : LT CodePoint := ⟨fun a b => a.toNat < b.toNat⟩

instance : LE CodePoint := ⟨fun a b => a.toNat ≤ b.toNat⟩

instance : DecidableLT CodePoint := fun a b => inferInstanceAs (Decidable (a.toNat < b.toNat))

instance : DecidableLE CodePoint := fun a b => inferInstanceAs (Decidable (a.toNat ≤ b.toNat))

theorem lt_iff {a b : CodePoint} : a < b ↔ a.toNat < b.toNat := Iff.rfl

@[simp] theorem toNat_char (c : Char) : (char c).toNat = c.toNat := rfl

@[simp] theorem char?_char (c : Char) : (char c).char? = some c := rfl

@[simp] theorem isChar_char (c : Char) : (char c).isChar = true := rfl

@[simp] theorem isChar_half (n : Fin 0x800) : (half n).isChar = false := rfl

/-- The digits are those among the characters. -/
@[simp] theorem isDigit_char (c : Char) : (char c).isDigit = c.isDigit := by
  simp only [isDigit, Char.isDigit, toNat_char, Char.toNat, ge_iff_le, UInt32.le_iff_toNat_le]
  rfl

/-- What is no half is a character. -/
theorem isChar_iff {c : CodePoint} : c.isChar = true ↔ ∃ a : Char, c = char a := by
  cases c <;> simp

/-- The halves come late. -/
theorem isChar_of_toNat_lt {c : CodePoint} (h : c.toNat < 0xd800) : c.isChar = true := by
  cases c with
  | char c => rfl
  | half n => exact absurd h (Nat.not_lt.2 (Nat.le_add_right ..))

/-- The number of a character is none of those of the halves. -/
theorem toNat_char_valid (c : Char) : c.toNat < 0xd800 ∨ 0xdfff < c.toNat ∧ c.toNat < 0x110000 :=
  c.valid

/-- A code point is told by its number. -/
@[simp] theorem ofNat_toNat (c : CodePoint) : ofNat c.toNat = c := by
  cases c with
  | char c =>
    have hc := toNat_char_valid c
    rw [toNat_char, ofNat, dif_neg (by omega), Char.ofNat_toNat]
  | half n =>
    have hn : 0xd800 ≤ (half n).toNat ∧ (half n).toNat < 0xe000 := by
      simp only [toNat]
      omega
    rw [ofNat, dif_pos hn]
    simp [toNat]

/-- Two code points with one number are one. -/
theorem toNat_inj {a b : CodePoint} : a.toNat = b.toNat ↔ a = b :=
  ⟨fun h => by rw [← ofNat_toNat a, h, ofNat_toNat], fun h => by rw [h]⟩

instance : Trans (· < · : CodePoint → CodePoint → Prop) (· < ·) (· < ·) := ⟨Nat.lt_trans⟩

instance : Std.Irrefl (· < · : CodePoint → CodePoint → Prop) := ⟨fun c => Nat.lt_irrefl c.toNat⟩

instance : Std.Trichotomous (· < · : CodePoint → CodePoint → Prop) :=
  ⟨fun _ _ hab hba => toNat_inj.1 (Nat.le_antisymm (Nat.not_lt.1 hba) (Nat.not_lt.1 hab))⟩

theorem toNat_lt (c : CodePoint) : c.toNat < 0x110000 := by
  cases c with
  | char c =>
    have := toNat_char_valid c
    rw [toNat_char]
    omega
  | half n =>
    simp only [toNat]
    omega

/-- Every number up to the last is that of a code point. -/
theorem toNat_ofNat {n : Nat} (h : n < 0x110000) : (ofNat n).toNat = n := by
  by_cases hn : 0xd800 ≤ n ∧ n < 0xe000
  · rw [ofNat, dif_pos hn]
    simp only [toNat]
    omega
  · have hvalid : n.isValidChar := by
      simp only [Nat.isValidChar]
      omega
    rw [ofNat, dif_neg hn, toNat_char, Char.ofNat, dif_pos hvalid]
    rfl

example : ofNat 0xd83d ≠ ofNat 0xde00 ∧ (ofNat 0xd83d).char? = none := by decide

end CodePoint
end TraitIndex
