import Mathlib.Data.List.Basic
import TraitIndex.Json.Writer
import TraitIndex.Json.Reader
import TraitIndex.Number.Integer

/-! Numbers as they are written.

    A `Decimal` is an unsigned number in the notation of JSON: digits, perhaps a point with more of
    them, perhaps an exponent. `Json.number` reads all of it, whatever follows that is no part of a
    number. The text of an integer is such a number and so is the text of every finite number of
    the binary format, so both are read back as numbers. An integer is also read back by
    `Integer.read?`. -/

namespace TraitIndex

/-! ### Digits -/

/-- Decimal digits, one at least. -/
structure Digits where
  chars : List CodePoint
  nonempty : chars ≠ []
  digit : ∀ c ∈ chars, c.isDigit = true

namespace Digits

/-- The values of digits. -/
def values (chars : List CodePoint) : List Nat := chars.map fun c => c.toNat - '0'.toNat

/-- The digits of a natural number. -/
def ofNat (n : Nat) : Digits where
  chars := (Nat.toDigits 10 n).map .char
  nonempty := fun h => Nat.toDigits_ne_nil (List.map_eq_nil_iff.1 h)
  digit := by
    rw [List.forall_mem_map]
    intro c hc
    rw [CodePoint.isDigit_char]
    exact Nat.isDigit_of_mem_toDigits (by decide) (by decide) hc

theorem ofDigits_values (chars : List Char) :
    Text.ofDigits 10 (values (chars.map .char)) = Nat.ofDigitChars 10 chars 0 := by
  rw [Text.ofDigits, values, List.map_map, List.foldl_map, Nat.ofDigitChars_eq_foldl]
  simp only [Nat.mul_comm 10]
  rfl

/-- The digits of a number denote it. -/
theorem ofDigits_ofNat (n : Nat) : Text.ofDigits 10 (values (ofNat n).chars) = n :=
  (ofDigits_values _).trans Nat.ofDigitChars_ten_toDigits

/-- No number but zero starts with a zero. -/
theorem head_ofNat {n : Nat} (hn : n ≠ 0) : (ofNat n).chars.head? ≠ some (.char '0') := by
  induction n using Nat.strongRecOn with
  | _ n ih =>
    rw [ofNat]
    show ((Nat.toDigits 10 n).map CodePoint.char).head? ≠ some (.char '0')
    by_cases hlt : n < 10
    · rw [Nat.toDigits_of_lt_base hlt]
      have hall : ∀ d, d < 10 → d ≠ 0 →
          ([Nat.digitChar d].map CodePoint.char).head? ≠ some (.char '0') := by decide
      exact hall n hlt hn
    · rw [Nat.toDigits_of_base_le (by decide) (by omega), List.map_append,
        List.head?_append_of_ne_nil _ (List.map_eq_nil_iff.not.2 Nat.toDigits_ne_nil)]
      exact ih (n / 10) (by omega) (by omega)

theorem ofNat_zero : (ofNat 0).chars = [.char '0'] := rfl

theorem length_ofNat {n : Nat} (h : n < Nat.pow 10 Integer.digitLimit) :
    (ofNat n).chars.length ≤ Integer.digitLimit := by
  rw [ofNat, List.length_map]
  have hlimit : 0 < Integer.digitLimit := by decide
  -- a variable in place of the limit, whose power of ten is not to be computed
  generalize Integer.digitLimit = limit at h hlimit ⊢
  exact (Nat.length_toDigits_le_iff (by decide) hlimit).2 h

theorem toString_eq (n : Nat) : (toString n : Text).toList = (ofNat n).chars := by
  show (Text.ofString (Nat.repr n)).toList = _
  rw [Nat.repr_eq_ofList_toDigits, Text.toList_ofString, String.toList_ofList]
  rfl

end Digits

namespace Json

open Digits (values)

/-! ### Reading digits -/

/-- No digit comes next. -/
def Undigited (s : List CodePoint) : Prop := ∀ c ∈ s.head?, c.isDigit = false

theorem asciiDigit?_of_isDigit {c : CodePoint} (h : c.isDigit = true) :
    Text.asciiDigit? c = some (c.toNat - '0'.toNat) := by
  simp only [CodePoint.isDigit, Bool.and_eq_true, decide_eq_true_eq] at h
  exact if_pos h

theorem asciiDigit?_eq_none {c : CodePoint} (h : c.isDigit = false) :
    Text.asciiDigit? c = none := by
  refine if_neg fun hc => ?_
  have hd : c.isDigit = true := by
    simp only [CodePoint.isDigit, Bool.and_eq_true, decide_eq_true_eq]
    exact hc
  rw [h] at hd
  exact Bool.false_ne_true hd

theorem spanDigits_append {ds rest : List CodePoint} (hd : ∀ c ∈ ds, c.isDigit = true)
    (hrest : Undigited rest) : spanDigits (ds ++ rest) = (values ds, rest) := by
  induction ds with
  | nil =>
    rcases rest with _ | ⟨c, rest⟩
    · rfl
    · rw [List.nil_append, spanDigits, asciiDigit?_eq_none (hrest c rfl)]
      rfl
  | cons c ds ih =>
    obtain ⟨hc, hds⟩ := List.forall_mem_cons.1 hd
    rw [List.cons_append, spanDigits, asciiDigit?_of_isDigit hc, ih hds]
    rfl

theorem values_ne_nil {ds : List CodePoint} (h : ds ≠ []) : values ds ≠ [] :=
  fun hv => h (List.map_eq_nil_iff.1 hv)

/-! ### Numbers of JSON -/

/-- The power of ten that multiplies a number. -/
structure Exponent where
  marker : CodePoint
  marked : marker = 'e' ∨ marker = 'E'
  /-- The sign, if there is one, and whether it is that of negative numbers. -/
  sign : Option Bool
  digits : Digits

/-- An unsigned number in the notation of JSON. -/
structure Decimal where
  whole : Digits
  /-- A zero at the front is all there is before the point. -/
  lead : whole.chars.head? = some (.char '0') → whole.chars = [.char '0']
  places : Option Digits := none
  power : Option Exponent := none

def Exponent.signChars (e : Exponent) : List CodePoint :=
  (e.sign.map fun negative => if negative then '-' else '+').toList

def Exponent.chars (e : Exponent) : List CodePoint := e.marker :: (e.signChars ++ e.digits.chars)

/-- The number that is written. -/
def Exponent.value (e : Exponent) : Int :=
  let n : Int := Text.ofDigits 10 (values e.digits.chars)
  if e.sign = some true then -n else n

namespace Decimal

def placesChars (d : Decimal) : List CodePoint :=
  (d.places.map fun ds => .char '.' :: ds.chars).getD []

def powerChars (d : Decimal) : List CodePoint := (d.power.map Exponent.chars).getD []

def chars (d : Decimal) : List CodePoint := d.whole.chars ++ (d.placesChars ++ d.powerChars)

/-- There is neither a point nor an exponent. -/
def IsWhole (d : Decimal) : Prop := d.places = none ∧ d.power = none

/-- The number that is written, under a sign. -/
def json (negative : Bool) (d : Decimal) : Json :=
  match d.places, d.power with
  | none, none =>
    let n : Int := Text.ofDigits 10 (values d.whole.chars)
    .int (if negative then -n else n)
  | _, _ =>
    let places := (d.places.map fun ds => values ds.chars).getD []
    .float (.ofDecimal negative (Text.ofDigits 10 (values d.whole.chars ++ places))
      ((d.power.map Exponent.value).getD 0 - places.length))

end Decimal

/-- A number ends before the text. -/
def NumberEnds (s : List CodePoint) : Prop :=
  ∀ c ∈ s.head?, c.isDigit = false ∧ c ≠ '.' ∧ c ≠ 'e' ∧ c ≠ 'E'

theorem NumberEnds.undigited {s : List CodePoint} (h : NumberEnds s) : Undigited s :=
  fun c hc => (h c hc).1

theorem undigited_cons {c : CodePoint} (hc : c.isDigit = false) (s : List CodePoint) :
    Undigited (c :: s) := by
  rintro d ⟨⟩
  exact hc

theorem Decimal.undigited_power (d : Decimal) {rest : List CodePoint} (hrest : NumberEnds rest) :
    Undigited (d.powerChars ++ rest) := by
  rcases hp : d.power with _ | e
  · rw [powerChars, hp]
    exact hrest.undigited
  · rw [powerChars, hp]
    refine undigited_cons ?_ _
    rcases e.marked with h | h
    · rw [h]
      rfl
    · rw [h]
      rfl

theorem Decimal.undigited_places (d : Decimal) {rest : List CodePoint} (hrest : NumberEnds rest) :
    Undigited (d.placesChars ++ (d.powerChars ++ rest)) := by
  rcases hp : d.places with _ | ds
  · rw [placesChars, hp]
    exact d.undigited_power hrest
  · rw [placesChars, hp]
    exact undigited_cons rfl _

theorem whole?_append (d : Decimal) {s : List CodePoint} (hs : Undigited s) :
    whole? (d.whole.chars ++ s) = some (values d.whole.chars, s) := by
  have hspan := spanDigits_append d.whole.digit hs
  unfold whole?
  rw [hspan]
  rcases hv : values d.whole.chars with _ | ⟨n, ns⟩
  · exact absurd hv (values_ne_nil d.whole.nonempty)
  · rcases n with _ | n
    · -- a digit whose value is zero is the zero, which stands alone
      rcases hc : d.whole.chars with _ | ⟨c, cs⟩
      · exact absurd hc d.whole.nonempty
      · rw [hc] at hv
        have hzero : c.toNat - '0'.toNat = 0 := (List.cons.inj hv).1
        have hdigit := d.whole.digit c (by rw [hc]; exact List.mem_cons_self ..)
        have hczero : c = '0' := by
          simp only [CodePoint.isDigit, Bool.and_eq_true, decide_eq_true_eq] at hdigit
          have hlow : '0'.toNat ≤ c.toNat := hdigit.1
          exact CodePoint.toNat_inj.1 (Nat.le_antisymm (Nat.sub_eq_zero_iff_le.1 hzero) hlow)
        have hall := d.lead (by rw [hc, hczero]; rfl)
        rw [hc, hczero] at hall
        obtain ⟨-, rfl⟩ := List.cons.inj hall
        rw [hczero] at hv ⊢
        obtain ⟨-, rfl⟩ := List.cons.inj hv
        rfl
    · rfl

theorem fraction_append (d : Decimal) {rest : List CodePoint} (hrest : NumberEnds rest) :
    fraction (d.placesChars ++ (d.powerChars ++ rest)) =
      (d.places.map fun ds => values ds.chars, d.powerChars ++ rest) := by
  rcases hp : d.places with _ | ds
  · have hpoint : ∀ r, d.powerChars ++ rest ≠ .char '.' :: r := by
      intro r hr
      rcases hpow : d.power with _ | e
      · rw [Decimal.powerChars, hpow] at hr
        exact (hrest '.' (by rw [Option.map_none, Option.getD_none, List.nil_append] at hr
                             rw [hr]; rfl)).2.1 rfl
      · rw [Decimal.powerChars, hpow] at hr
        have hmark : e.marker = '.' := (List.cons.inj hr).1
        rcases e.marked with h | h
        · exact absurd (h.symm.trans hmark) (by decide)
        · exact absurd (h.symm.trans hmark) (by decide)
    rw [Decimal.placesChars, hp]
    show fraction (d.powerChars ++ rest) = _
    unfold fraction
    split
    · rename_i r hr
      exact absurd hr (hpoint r)
    · rfl
  · rw [Decimal.placesChars, hp]
    show fraction ('.' :: (ds.chars ++ (d.powerChars ++ rest))) = _
    rw [fraction, spanDigits_append ds.digit (d.undigited_power hrest)]
    rcases hv : values ds.chars with _ | ⟨n, ns⟩
    · exact absurd hv (values_ne_nil ds.nonempty)
    · simp only [Option.map_some, hv]

/-- The exponent after its marker. -/
theorem exponent_marked {e : Exponent} {rest : List CodePoint} (hrest : NumberEnds rest) :
    exponent (e.chars ++ rest) = (some e.value, rest) := by
  have hspan := spanDigits_append e.digits.digit hrest.undigited
  rcases hv : values e.digits.chars with _ | ⟨n, ns⟩
  · exact absurd hv (values_ne_nil e.digits.nonempty)
  · rw [hv] at hspan
    obtain ⟨c, cs, hc⟩ := List.exists_cons_of_ne_nil e.digits.nonempty
    have hdigit := e.digits.digit c (by rw [hc]; exact List.mem_cons_self ..)
    have hminus : c ≠ '-' := by
      rintro rfl
      exact absurd hdigit (by decide)
    have hplus : c ≠ '+' := by
      rintro rfl
      exact absurd hdigit (by decide)
    rw [Exponent.chars, Exponent.value, hv]
    rcases e.marked with hm | hm <;> rcases hs : e.sign with _ | negative
    case inl.none | inr.none =>
      rw [hm, Exponent.signChars, hs]
      rw [hc, List.cons_append] at hspan
      simp [exponent, hc, hminus, hplus, hspan]
    all_goals
      rw [hm, Exponent.signChars, hs]
      cases negative <;>
        simp [exponent, hspan]

theorem exponent_append (d : Decimal) {rest : List CodePoint} (hrest : NumberEnds rest) :
    exponent (d.powerChars ++ rest) = (d.power.map Exponent.value, rest) := by
  rcases hp : d.power with _ | e
  · rw [Decimal.powerChars, hp]
    show exponent rest = _
    unfold exponent
    split
    · rename_i r
      exact absurd rfl (hrest 'e' rfl).2.2.1
    · rename_i r
      exact absurd rfl (hrest 'E' rfl).2.2.2
    · rfl
  · rw [Decimal.powerChars, hp]
    exact exponent_marked hrest

/-- A number is read, whatever follows it that is no part of a number. Digits without a point or an
    exponent must keep to the limit. -/
theorem number_decimal {dialect : Dialect} (negative : Bool) (d : Decimal) {rest : List CodePoint}
    (hrest : NumberEnds rest)
    (hlimit : d.IsWhole → dialect.digitLimit.all (d.whole.chars.length ≤ ·) = true) :
    number dialect negative (d.chars ++ rest) = .ok (d.json negative, rest) := by
  have hwhole : whole? (d.chars ++ rest) =
      some (values d.whole.chars, d.placesChars ++ (d.powerChars ++ rest)) := by
    rw [Decimal.chars, List.append_assoc, List.append_assoc]
    exact whole?_append d (d.undigited_places hrest)
  unfold number Decimal.json
  rw [hwhole]
  simp only [fraction_append d hrest, exponent_append d hrest]
  rcases hp : d.places with _ | ds <;> rcases hw : d.power with _ | e
  case none.none =>
    have h := hlimit ⟨hp, hw⟩
    rw [← List.length_map (fun c : CodePoint => c.toNat - '0'.toNat)] at h
    exact if_pos h
  all_goals rfl

/-- An integer with more digits than there may be is refused. -/
theorem number_tooLong {dialect : Dialect} (negative : Bool) (d : Decimal) {rest : List CodePoint}
    (hrest : NumberEnds rest) (hd : d.IsWhole)
    (hlimit : dialect.digitLimit.all (d.whole.chars.length ≤ ·) = false) :
    number dialect negative (d.chars ++ rest) = .error .digitLimit := by
  obtain ⟨hp, hw⟩ := hd
  have hwhole : whole? (d.chars ++ rest) =
      some (values d.whole.chars, d.placesChars ++ (d.powerChars ++ rest)) := by
    rw [Decimal.chars, List.append_assoc, List.append_assoc]
    exact whole?_append d (d.undigited_places hrest)
  rw [← List.length_map (fun c : CodePoint => c.toNat - '0'.toNat)] at hlimit
  unfold number
  rw [hwhole]
  simp only [fraction_append d hrest, exponent_append d hrest, hp, hw]
  exact if_neg (by rw [values, hlimit]; exact Bool.false_ne_true)

/-- What is read of a number with a point or an exponent is no integer. -/
theorem Decimal.json_of_not_isWhole {d : Decimal} (h : ¬ d.IsWhole) (negative : Bool) :
    ∃ x, d.json negative = .float x := by
  unfold json
  rcases hp : d.places with _ | ds <;> rcases hw : d.power with _ | e
  case none.none => exact absurd ⟨hp, hw⟩ h
  all_goals exact ⟨_, rfl⟩

/-! ### The text of an integer -/

/-- A natural number as it is written. -/
def Decimal.ofNat (n : Nat) : Decimal where
  whole := Digits.ofNat n
  lead := fun h => by
    rcases Nat.eq_zero_or_pos n with rfl | hn
    · rfl
    · exact absurd h (Digits.head_ofNat (Nat.pos_iff_ne_zero.1 hn))

theorem Decimal.chars_ofNat (n : Nat) : (Decimal.ofNat n).chars = (toString n : Text).toList := by
  rw [Digits.toString_eq]
  exact List.append_nil _

theorem Decimal.json_ofNat (negative : Bool) (n : Nat) :
    (Decimal.ofNat n).json negative = .int (if negative then -(n : Int) else n) := by
  show Json.int (if negative then -((Text.ofDigits 10 (values (Digits.ofNat n).chars) : Nat) : Int)
    else (Text.ofDigits 10 (values (Digits.ofNat n).chars) : Nat)) = _
  rw [Digits.ofDigits_ofNat]

end Json

/-! ### The text of a finite number -/

namespace Digits

/-- More digits behind. -/
def append (ds : Digits) (more : List CodePoint) (h : ∀ c ∈ more, c.isDigit = true) : Digits where
  chars := ds.chars ++ more
  nonempty := List.append_ne_nil_of_left_ne_nil ds.nonempty more
  digit := fun c hc => (List.mem_append.1 hc).elim (ds.digit c) (h c)

/-- Zeros in front. -/
def zeros (n : Nat) (ds : Digits) : Digits where
  chars := List.replicate n (.char '0') ++ ds.chars
  nonempty := List.append_ne_nil_of_right_ne_nil _ ds.nonempty
  digit := fun c hc => (List.mem_append.1 hc).elim
    (fun h => by rw [List.eq_of_mem_replicate h]; rfl) (ds.digit c)

/-- A zero. -/
def zero : Digits := ofNat 0

end Digits

namespace Binary64

open Json (Decimal)

theorem onGrid?_ne_zero {x : Binary64} {num den : Nat} {e : Int} {r : Nat × Int}
    (h : onGrid? x num den e = some r) : r.1 ≠ 0 := by
  simp only [onGrid?] at h
  split at h
  case h_1 => exact absurd h (by simp)
  case h_2 hbelow _ =>
    simp only [Bool.and_eq_true, decide_eq_true_eq] at hbelow
    rw [← Option.some.inj h]
    exact hbelow.1
  case h_3 =>
    rw [← Option.some.inj h]
    exact Nat.succ_ne_zero _
  case h_4 hbelow _ =>
    simp only [Bool.and_eq_true, decide_eq_true_eq] at hbelow
    split at h
    · rw [← Option.some.inj h]
      exact hbelow.1
    · split at h
      · rw [← Option.some.inj h]
        exact Nat.succ_ne_zero _
      · rw [← Option.some.inj h]
        exact Nat.ne_of_gt (Nat.add_pos_left (Nat.pos_of_ne_zero hbelow.1) _)

theorem dropZeros_ne_zero (n : Nat) {d : Nat} (hd : d ≠ 0) (e : Int) : (dropZeros n d e).1 ≠ 0 := by
  induction n generalizing d e with
  | zero => exact hd
  | succ n ih =>
    rw [dropZeros]
    split
    · rename_i h
      exact ih (by omega) (e + 1)
    · exact hd

theorem shortest_ne_zero {m : Nat} (hm : m ≠ 0) (q : Int) : (shortest m q).1 ≠ 0 := by
  simp only [shortest]
  split
  · rename_i d e h
    obtain ⟨n, -, hn⟩ := List.exists_of_findSome?_eq_some h
    exact dropZeros_ne_zero 20 (onGrid?_ne_zero hn) e
  · split
    · exact Nat.mul_ne_zero hm (Nat.ne_of_gt (Nat.pow_pos (by decide)))
    · exact Nat.mul_ne_zero hm (Nat.ne_of_gt (Nat.pow_pos (by decide)))

/-- Digits with a point among them. -/
theorem point_decimal (ds : Digits) (hlead : ds.chars.head? ≠ some (.char '0'))
    {n : Nat} (hn : n ≠ 0)
    (hlong : ¬ ds.chars.length ≤ n) :
    ∃ d : Decimal, ds.chars.take n ++ .char '.' :: ds.chars.drop n = d.chars ∧ ¬ d.IsWhole := by
  have htake : (ds.chars.take n).head? = ds.chars.head? := by
    rw [List.head?_take, if_neg hn]
  have hbefore : ds.chars.take n ≠ [] :=
    fun h => ds.nonempty ((List.take_eq_nil_iff.1 h).resolve_left hn)
  have hafter : ds.chars.drop n ≠ [] := fun h => hlong (List.drop_eq_nil_iff.1 h)
  refine ⟨⟨⟨ds.chars.take n, hbefore, fun c hc => ds.digit c (List.mem_of_mem_take hc)⟩,
    fun h => absurd (htake.symm.trans h) hlead,
    some ⟨ds.chars.drop n, hafter, fun c hc => ds.digit c (List.mem_of_mem_drop hc)⟩, none⟩,
    ?_, fun h => nomatch h.1⟩
  simp [Decimal.chars, Decimal.placesChars, Decimal.powerChars]

/-- An exponent is written with two digits at least. -/
theorem exists_power (n : Nat) : ∃ power : Digits, power.chars =
    if (toString n : Text).toList.length < 2 then .char '0' :: (toString n : Text).toList
    else (toString n : Text).toList := by
  rw [Digits.toString_eq]
  split
  · exact ⟨(Digits.ofNat n).zeros 1, rfl⟩
  · exact ⟨Digits.ofNat n, rfl⟩

/-- One digit before the point, the others behind it if there are any, and an exponent. -/
theorem layOut_marked (ds : Digits) {p : Int} (hfar : ¬ (-4 < p ∧ p ≤ 16)) :
    ∃ d : Decimal, layOut ds.chars p = d.chars ∧ ¬ d.IsWhole := by
  obtain ⟨power, hpower⟩ := exists_power (p - 1).natAbs
  obtain ⟨c, cs, hds⟩ := List.exists_cons_of_ne_nil ds.nonempty
  have hdigit : ∀ d ∈ c :: cs, d.isDigit = true := by
    rw [← hds]
    exact ds.digit
  obtain ⟨hc, hcs⟩ := List.forall_mem_cons.1 hdigit
  have hfirst : ∀ d ∈ [c], d.isDigit = true := by simpa using hc
  have halone : [c].head? = some (.char '0') → [c] = [.char '0'] := fun h => by
    rw [Option.some.inj h]
  unfold layOut
  rw [if_neg hfar, hds]
  rcases hrest : cs with _ | ⟨d, cs'⟩
  · refine ⟨⟨⟨[c], by simp, hfirst⟩, halone, none,
      some ⟨'e', .inl rfl, some (decide (p - 1 < 0)), power⟩⟩, ?_, fun h => nomatch h.2⟩
    simp [Decimal.chars, Decimal.placesChars, Decimal.powerChars, Json.Exponent.chars,
      Json.Exponent.signChars, hpower]
  · refine ⟨⟨⟨[c], by simp, hfirst⟩, halone, some ⟨cs, by simp [hrest], hcs⟩,
      some ⟨'e', .inl rfl, some (decide (p - 1 < 0)), power⟩⟩, ?_, fun h => nomatch h.1⟩
    simp [Decimal.chars, Decimal.placesChars, Decimal.powerChars, Json.Exponent.chars,
      Json.Exponent.signChars, hpower, hrest]

/-- Digits are laid out as a number with a point or an exponent. -/
theorem layOut_decimal (ds : Digits) (hlead : ds.chars.head? ≠ some (.char '0')) (p : Int) :
    ∃ d : Decimal, layOut ds.chars p = d.chars ∧ ¬ d.IsWhole := by
  by_cases hnear : -4 < p ∧ p ≤ 16
  · have hzeros : ∀ n, ∀ c ∈ List.replicate n (CodePoint.char '0'), c.isDigit = true :=
      fun n c hc => by
      rw [List.eq_of_mem_replicate hc]
      rfl
    unfold layOut
    rw [if_pos hnear]
    by_cases hsmall : p ≤ 0
    · rw [if_pos hsmall]
      refine ⟨⟨.zero, fun _ => rfl, some (ds.zeros (-p).toNat), none⟩, ?_, fun h => nomatch h.1⟩
      simp [Decimal.chars, Decimal.placesChars, Decimal.powerChars, Digits.zero, Digits.zeros,
        Digits.ofNat_zero]
    · rw [if_neg hsmall]
      by_cases hlong : ds.chars.length ≤ p.toNat
      · rw [if_pos hlong]
        refine ⟨⟨ds.append _ (hzeros (p.toNat - ds.chars.length)), fun h => ?_, some .zero, none⟩,
          ?_, fun h => nomatch h.1⟩
        · exact absurd ((List.head?_append_of_ne_nil _ ds.nonempty).symm.trans h) hlead
        · simp [Decimal.chars, Decimal.placesChars, Decimal.powerChars, Digits.zero,
            Digits.append, Digits.ofNat_zero]
      · rw [if_neg hlong]
        exact point_decimal ds hlead (by omega) hlong
  · exact layOut_marked ds hnear

/-- The text of a finite number is its sign and a number with a point or an exponent. -/
theorem toText_finite (negative : Bool) (m : Nat) (q : Int) :
    ∃ d : Decimal, toText (.finite negative m q) =
      (if negative then [.char '-'] else []) ++ d.chars ∧
      ¬ d.IsWhole := by
  have hunsigned : ∃ d : Decimal, (if m = 0 then [.char '0', .char '.', .char '0'] else
      layOut (toString (shortest m q).1 : Text).toList
        ((toString (shortest m q).1 : Text).toList.length + (shortest m q).2)) = d.chars ∧
        ¬ d.IsWhole := by
    by_cases hm : m = 0
    · rw [if_pos hm]
      exact ⟨⟨.zero, fun _ => rfl, some .zero, none⟩, rfl, fun h => nomatch h.1⟩
    · rw [if_neg hm, Digits.toString_eq]
      exact layOut_decimal (.ofNat (shortest m q).1) (Digits.head_ofNat (shortest_ne_zero hm q)) _
  obtain ⟨d, hd, hwhole⟩ := hunsigned
  refine ⟨d, ?_, hwhole⟩
  rw [← hd]
  cases negative
  · rfl
  · rfl

end Binary64

/-! ### Integers read by people -/

namespace Integer

open Digits (values)

theorem digitValue?_of_isDigit {c : CodePoint} (h : c.isDigit = true) :
    Text.digitValue? c = some (c.toNat - '0'.toNat) := by
  simp only [CodePoint.isDigit, Bool.and_eq_true, decide_eq_true_eq] at h
  have hlow : '0'.toNat ≤ c.toNat := h.1
  have hhigh : c.toNat ≤ '9'.toNat := h.2
  have hzeros : Text.digitZeros = 0x30 :: Text.digitZeros.tail := rfl
  rw [Text.digitValue?, hzeros, List.find?_cons_of_pos]
  · rfl
  · simp only [Bool.and_eq_true, decide_eq_true_eq]
    exact ⟨hlow, Nat.lt_succ_of_le hhigh⟩

theorem digits?_of_isDigit {ds : List CodePoint} (hne : ds ≠ []) (h : ∀ c ∈ ds, c.isDigit = true) :
    digits? ds = some (values ds) := by
  induction ds with
  | nil => exact absurd rfl hne
  | cons c ds ih =>
    obtain ⟨hc, hds⟩ := List.forall_mem_cons.1 h
    rcases ds with _ | ⟨d, ds⟩
    · rw [digits?, digitValue?_of_isDigit hc]
      rfl
    · have hunder : d ≠ '_' := by
        rintro rfl
        exact absurd (hds '_' (List.mem_cons_self ..)) (by decide)
      rw [digits?, digitValue?_of_isDigit hc, ih (by simp) hds]
      · rfl
      · simp
      · intro rest hrest
        exact absurd (List.cons.inj hrest).1 hunder

theorem not_isPadding {c : CodePoint} (h : c.isDigit = true) : isPadding c = false := by
  simp only [CodePoint.isDigit, Bool.and_eq_true, decide_eq_true_eq] at h
  have hlow : '0'.toNat ≤ c.toNat := h.1
  have hhigh : c.toNat ≤ '9'.toNat := h.2
  have hspace : c ≠ ' ' := by
    rintro rfl
    exact absurd hlow (by decide)
  simp only [isPadding, Bool.or_eq_false_iff, Bool.and_eq_false_imp, decide_eq_true_eq,
    decide_eq_false_iff_not, beq_eq_false_iff_ne]
  simp only [Char.reduceToNat] at hlow hhigh
  exact ⟨⟨by omega, hspace⟩, by omega⟩

theorem trimBoth_of_forall {p : CodePoint → Bool} {s : List CodePoint} (h : ∀ c ∈ s, p c = false) :
    Text.trimBoth p s = s := by
  have hdrop : ∀ t : List CodePoint, (∀ c ∈ t, p c = false) → t.dropWhile p = t := by
    intro t ht
    rcases t with _ | ⟨c, t⟩
    · rfl
    · rw [List.dropWhile_cons_of_neg]
      rw [ht c (List.mem_cons_self ..)]
      exact Bool.false_ne_true
  rw [Text.trimBoth, Text.trimEnd, hdrop s h, hdrop _ fun c hc => h c (List.mem_reverse.1 hc),
    List.reverse_reverse]

theorem isWritable_iff {n : Int} : isWritable n = true ↔ n.natAbs < Nat.pow 10 digitLimit := by
  rw [isWritable, decide_eq_true_eq]

/-- A digit can be written. -/
theorem isWritable_digit {n : Nat} (h : n < 10) : isWritable n = true := by
  have hlimit : digitLimit ≠ 0 := by decide
  rw [isWritable_iff]
  generalize digitLimit = limit at hlimit ⊢
  exact Nat.lt_of_lt_of_le h (Nat.le_self_pow hlimit 10)

/-- A natural number below one that can be written can be written. -/
theorem isWritable_mono {m n : Nat} (h : m ≤ n) (hn : isWritable n = true) :
    isWritable m = true :=
  isWritable_iff.2 (Nat.lt_of_le_of_lt h (isWritable_iff.1 hn))

/-- A natural number within the limit is read back from its text. -/
theorem read?_toString {n : Nat} (h : n < Nat.pow 10 digitLimit) :
    read? (toString n : Text).toList = some (n : Int) := by
  rw [Digits.toString_eq]
  have hdigit := (Digits.ofNat n).digit
  obtain ⟨c, cs, hc⟩ := List.exists_cons_of_ne_nil (Digits.ofNat n).nonempty
  have hfirst := hdigit c (by rw [hc]; exact List.mem_cons_self ..)
  have hnat : readNat? (Digits.ofNat n).chars = some n := by
    have hlength : (values (Digits.ofNat n).chars).length ≤ digitLimit := by
      rw [values, List.length_map]
      exact Digits.length_ofNat h
    rw [readNat?, digits?_of_isDigit (Digits.ofNat n).nonempty hdigit]
    simp only [Option.bind_eq_bind, Option.bind_some, if_pos hlength, Digits.ofDigits_ofNat]
  rw [read?, trimBoth_of_forall fun c hc => not_isPadding (hdigit c hc)]
  split
  · rename_i rest hrest
    rw [hc] at hrest
    rw [(List.cons.inj hrest).1] at hfirst
    exact absurd hfirst (by decide)
  · rename_i rest hrest
    rw [hc] at hrest
    rw [(List.cons.inj hrest).1] at hfirst
    exact absurd hfirst (by decide)
  · rw [hnat]
    rfl

end Integer
end TraitIndex
