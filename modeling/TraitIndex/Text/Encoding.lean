import TraitIndex.Text.Basic
import TraitIndex.Text.Unit

/-! Text as bytes.

    `Encoding.decode` reads text in one of the encodings of Unicode and fails if bytes are left that
    are no part of a character. Half of a pair of units is let pass in any encoding. `lossy` never
    fails: it reads UTF-8 and puts one replacement character
    for every run of bytes that begins a character and does not end it, or begins none. Both read
    back what `bytesOf` writes. -/

namespace TraitIndex.Text

/-- What the first byte of a character announces: the bits it gives itself, how many bytes follow,
    and between which the next one lies. -/
structure Lead where
  bits : Nat
  following : Nat
  low : Nat := 0x80
  high : Nat := 0xbf

/-- What a byte announces if it is the first of a character. The bounds on the next byte exclude
    characters written too long, those beyond the last and, unless `halves` lets them pass, halves
    of pairs. -/
def lead? (halves : Bool) (b : Nat) : Option Lead :=
  if b < 0x80 then some { bits := b, following := 0 }
  else if b < 0xc2 then none
  else if b < 0xe0 then some { bits := b - 0xc0, following := 1 }
  else if b < 0xf0 then
    some { bits := b - 0xe0, following := 2, low := if b = 0xe0 then 0xa0 else 0x80,
           high := if b = 0xed ∧ halves = false then 0x9f else 0xbf }
  else if b < 0xf5 then
    some { bits := b - 0xf0, following := 3, low := if b = 0xf0 then 0x90 else 0x80,
           high := if b = 0xf4 then 0x8f else 0xbf }
  else none

/-- The code point after a number of following bytes, none if they are not there, and the bytes from
    the first one on that was not taken. -/
def follow : (count bits low high : Nat) → List Nat → Option Nat × List Nat
  | 0, bits, _, _, s => (some bits, s)
  | _ + 1, _, _, _, [] => (none, [])
  | count + 1, bits, low, high, b :: rest =>
    if low ≤ b ∧ b ≤ high then follow count (bits * 64 + (b - 0x80)) 0x80 0xbf rest
    else (none, b :: rest)

/-- A following byte between the bounds is taken. -/
theorem follow_taken (count bits low high b : Nat) (rest : List Nat) (h : low ≤ b ∧ b ≤ high) :
    follow (count + 1) bits low high (b :: rest) =
      follow count (bits * 64 + (b - 0x80)) 0x80 0xbf rest := if_pos h

/-- Following bytes are taken from the front. -/
theorem length_follow_le (count bits low high : Nat) (s : List Nat) :
    (follow count bits low high s).2.length ≤ s.length := by
  fun_induction follow count bits low high s with
  | case1 => exact Nat.le_refl _
  | case2 => exact Nat.le_refl _
  | case3 count bits low high b rest _ ih => exact Nat.le_succ_of_le ih
  | case4 => exact Nat.le_refl _

/-- The characters written in UTF-8, one after another; `none` stands for bytes that are part of
    no character. -/
def characters (halves : Bool) : List Nat → List (Option CodePoint)
  | [] => []
  | b :: rest =>
    match lead? halves b with
    | none => none :: characters halves rest
    | some l =>
      let taken := follow l.following l.bits l.low l.high rest
      taken.1.map CodePoint.ofNat :: characters halves taken.2
termination_by s => s.length
decreasing_by
  · exact Nat.lt_succ_self _
  · exact Nat.lt_succ_of_le (length_follow_le _ _ _ _ _)

/-- The first byte of a character and what follows it. -/
theorem characters_lead (halves : Bool) (b : Nat) (rest : List Nat) (l : Lead)
    (h : lead? halves b = some l) :
    characters halves (b :: rest) =
      (follow l.following l.bits l.low l.high rest).1.map CodePoint.ofNat ::
        characters halves (follow l.following l.bits l.low l.high rest).2 := by
  rw [characters]
  simp only [h]

/-- The text written in UTF-8, as far as the bytes are text. -/
def lossy (bytes : List Nat) : List Char :=
  (characters false bytes).map fun c => (c.bind CodePoint.char?).getD '\ufffd'

/-- Neighbours joined to one number each, the first of them counting most or least; none if one
    has no neighbour. -/
def joined (base : Nat) (bigFirst : Bool) : List Nat → Option (List Nat)
  | [] => some []
  | [_] => none
  | a :: b :: rest =>
    let n := if bigFirst then a * base + b else b * base + a
    (joined base bigFirst rest).map (n :: ·)

/-- The code point of a number, unless it lies beyond the last. -/
def codePoint? (n : Nat) : Option CodePoint := if n < 0x110000 then some (.ofNat n) else none

/-- How characters are written as bytes; of several bytes for one number the most significant comes
    first or last. -/
inductive Encoding where
  | utf8
  | utf16 (bigFirst : Bool)
  | utf32 (bigFirst : Bool)
  deriving DecidableEq, Repr

/-- The text that bytes denote. -/
def Encoding.decode (bytes : List Nat) : Encoding → Option (List CodePoint)
  | .utf8 => (characters true bytes).mapM id
  | .utf16 bigFirst => (joined 0x100 bigFirst bytes).map ofUnits
  | .utf32 bigFirst => do
    let units ← joined 0x100 bigFirst bytes
    (← joined 0x10000 bigFirst units).mapM codePoint?

/-- The bytes of a text in UTF-8. -/
def bytesOf (s : List Char) : List Nat :=
  s.flatMap fun c => (String.utf8EncodeChar c).map UInt8.toNat

example : Encoding.decode [0x41, 0, 0xb1, 3] (.utf16 false) = some ("Aα" : Text).toList := by
  decide

/-! ### What is written is read back -/

/-- A character is read from the front of its own bytes. -/
theorem characters_append (halves : Bool) (c : Char) (rest : List Nat) :
    characters halves ((String.utf8EncodeChar c).map UInt8.toNat ++ rest) =
      some (.char c) :: characters halves rest := by
  have h := c.valid
  simp only [UInt32.isValidChar, Nat.isValidChar] at h
  have hc := CodePoint.ofNat_toNat (.char c)
  simp only [CodePoint.toNat, Char.toNat] at hc
  unfold String.utf8EncodeChar
  generalize c.val.toNat = v at h hc ⊢
  have byte : ∀ n, n < 256 → (UInt8.ofNat n).toNat = n := fun n hn => by simp; omega
  simp only
  split
  · rw [List.map_cons, List.map_nil, byte v (by omega), List.singleton_append]
    rw [characters_lead halves v rest { bits := v, following := 0 } (by simp [lead?]; omega)]
    simp [follow, hc]
  · split
    · simp only [List.map_cons, List.map_nil, List.cons_append, List.nil_append]
      rw [byte _ (by omega), byte _ (by omega)]
      have hl : lead? halves (v / 64 % 32 + 192) = some { bits := v / 64, following := 1 } := by
        unfold lead?
        rw [if_neg (by omega), if_neg (by omega), if_pos (by omega)]
        simp
        omega
      rw [characters_lead halves _ _ _ hl]
      rw [follow_taken _ _ _ _ _ _ (by dsimp only; omega)]
      simp only [follow, Option.map_some]
      rw [show v / 64 * 64 + (v % 64 + 128 - 128) = v by omega, hc]
    · split
      · simp only [List.map_cons, List.map_nil, List.cons_append, List.nil_append]
        rw [byte _ (by omega), byte _ (by omega), byte _ (by omega)]
        rw [characters_lead halves _ _ _
          (by unfold lead?; rw [if_neg (by omega), if_neg (by omega), if_neg (by omega),
            if_pos (by omega)])]
        rw [follow_taken _ _ _ _ _ _ (by dsimp only; split <;> split <;> omega)]
        rw [follow_taken _ _ _ _ _ _ (by omega)]
        simp only [follow, Option.map_some]
        rw [show ((v / 4096 % 16 + 224 - 224) * 64 + (v / 64 % 64 + 128 - 128)) * 64 +
          (v % 64 + 128 - 128) = v by omega, hc]
      · simp only [List.map_cons, List.map_nil, List.cons_append, List.nil_append]
        rw [byte _ (by omega), byte _ (by omega), byte _ (by omega), byte _ (by omega)]
        rw [characters_lead halves _ _ _
          (by unfold lead?; rw [if_neg (by omega), if_neg (by omega), if_neg (by omega),
            if_neg (by omega), if_pos (by omega)])]
        rw [follow_taken _ _ _ _ _ _ (by dsimp only; split <;> split <;> omega)]
        rw [follow_taken _ _ _ _ _ _ (by omega), follow_taken _ _ _ _ _ _ (by omega)]
        simp only [follow, Option.map_some]
        rw [show (((v / 262144 % 8 + 240 - 240) * 64 + (v / 4096 % 64 + 128 - 128)) * 64 +
          (v / 64 % 64 + 128 - 128)) * 64 + (v % 64 + 128 - 128) = v by omega, hc]

/-- The characters of a text are read from its bytes. -/
theorem characters_bytesOf (halves : Bool) (s : List Char) :
    characters halves (bytesOf s) = s.map fun c => some (.char c) := by
  induction s with
  | nil => simp [bytesOf, characters]
  | cons c s ih =>
    simp only [bytesOf, List.flatMap_cons] at ih ⊢
    rw [characters_append, ih, List.map_cons]

/-- Bytes written in UTF-8 are text, and that text. -/
theorem decode_bytesOf (s : List Char) :
    Encoding.utf8.decode (bytesOf s) = some (s.map .char) := by
  simp only [Encoding.decode, characters_bytesOf]
  induction s with
  | nil => rfl
  | cons c s ih => simp [ih]

end TraitIndex.Text
