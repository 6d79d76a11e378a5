import Mathlib.Data.List.Forall2
import TraitIndex.Proofs.Outcomes
import TraitIndex.Proofs.TakingIn
import TraitIndex.Proofs.Transport
import TraitIndex.Value.Document

/-! Values that are sent.

    A value that JSON can express is sent as a document, and another value arrives: tuples have
    become lists and keys have become texts, and of the names that two keys have in common only the
    last counts. Whoever makes a record of what arrives does not see this, because a record is made
    of members under certain names, none of which stands for a key that is no text. -/

namespace TraitIndex.Value

/-! ### What can be sent -/

/-- The text that a value is. -/
def text? : Value → Option Text
  | .text s => some s
  | _ => none

/-- The truth value that a value is. -/
def bool? : Value → Option Bool
  | .bool b => some b
  | _ => none

/-- A key that JSON can express. -/
def Nameable : Value → Prop
  | .null | .bool _ => True
  | .text s => s.isWhole = true
  | .int n => Integer.isWritable n = true
  | .float x => ∃ negative m q, x = .finite negative m q
  | _ => False

mutual

/-- A value that JSON can express; no key of a mapping stands there twice. -/
def Expressible : Value → Prop
  | .text s => s.isWhole = true
  | .int n => Integer.isWritable n = true
  | .float x => ∃ negative m q, x = .finite negative m q
  | .list items => AllExpressible items
  | .tuple items => AllExpressible items
  | .map entries =>
    (entries.filterMap fun entry => text? entry.1).Nodup ∧ EntriesExpressible entries
  | .record _ | .other _ => False
  | _ => True

def AllExpressible : List Value → Prop
  | [] => True
  | v :: rest => Expressible v ∧ AllExpressible rest

def EntriesExpressible : List (Value × Value) → Prop
  | [] => True
  | (k, v) :: rest => Nameable k ∧ Expressible v ∧ EntriesExpressible rest

end

theorem memberName_of_nameable {k : Value} (h : Nameable k) :
    ∃ name, memberName k = .ok name ∧ name.isWhole = true := by
  cases k with
  | null => exact ⟨_, rfl, rfl⟩
  | bool b => exact ⟨_, rfl, by cases b <;> rfl⟩
  | text s => exact ⟨s, rfl, h⟩
  | int n =>
    have hwritable : writable n = .ok n := if_pos h
    exact ⟨toString n, by rw [memberName, hwritable]; rfl, Text.isWhole_ofString _⟩
  | float x =>
    obtain ⟨negative, m, q, rfl⟩ := h
    exact ⟨_, rfl, Json.all_isChar_floatText (.finite negative m q)⟩
  | list | tuple | map | record | other => exact h.elim

mutual

/-- What JSON can express has a document, which can be sent. -/
theorem document_of_expressible : ∀ {v : Value}, Expressible v →
    ∃ j, document v = .ok j ∧ Json.Sendable j ∧ Json.isWhole j = true
  | .null, _ => ⟨.null, rfl, trivial, rfl⟩
  | .bool b, _ => ⟨.bool b, rfl, trivial, rfl⟩
  | .text s, h => ⟨.text s, rfl, trivial, h⟩
  | .int n, h => by
    have hwritable : writable n = .ok n := if_pos h
    exact ⟨.int n, by rw [document, hwritable]; rfl, h, rfl⟩
  | .float x, h => by
    obtain ⟨negative, m, q, rfl⟩ := h
    exact ⟨.float (.finite negative m q), rfl, ⟨negative, m, q, rfl⟩, rfl⟩
  | .list items, h => by
    obtain ⟨js, hjs, hsendable, hwhole⟩ := documents_of_expressible h
    exact ⟨.list js, by rw [document, hjs]; rfl, hsendable, hwhole⟩
  | .tuple items, h => by
    obtain ⟨js, hjs, hsendable, hwhole⟩ := documents_of_expressible h
    exact ⟨.list js, by rw [document, hjs]; rfl, hsendable, hwhole⟩
  | .map entries, h => by
    obtain ⟨js, hjs, hsendable, hwhole⟩ := members_of_expressible h.2
    exact ⟨.object js, by rw [document, hjs]; rfl, hsendable, hwhole⟩
  | .record _, h => h.elim
  | .other _, h => h.elim

theorem documents_of_expressible : ∀ {items : List Value}, AllExpressible items →
    ∃ js, documents items = .ok js ∧ Json.AllSendable js ∧ Json.allWhole js = true
  | [], _ => ⟨[], rfl, trivial, rfl⟩
  | v :: rest, h => by
    obtain ⟨j, hj, hv, hwhole⟩ := document_of_expressible h.1
    obtain ⟨js, hjs, hrest, hwholes⟩ := documents_of_expressible h.2
    exact ⟨j :: js, by rw [documents, hj, hjs]; rfl, ⟨hv, hrest⟩,
      by rw [Json.allWhole, hwhole, hwholes]; rfl⟩

theorem members_of_expressible : ∀ {entries : List (Value × Value)}, EntriesExpressible entries →
    ∃ js, members entries = .ok js ∧ Json.FieldsSendable js ∧ Json.fieldsWhole js = true
  | [], _ => ⟨[], rfl, trivial, rfl⟩
  | (k, v) :: rest, h => by
    obtain ⟨name, hname, hnamed⟩ := memberName_of_nameable h.1
    obtain ⟨j, hj, hv, hwhole⟩ := document_of_expressible h.2.1
    obtain ⟨js, hjs, hrest, hwholes⟩ := members_of_expressible h.2.2
    exact ⟨(name, j) :: js, by rw [members, hname, hj, hjs]; rfl, ⟨hv, hrest⟩,
      by rw [Json.fieldsWhole, hnamed, hwhole, hwholes]; rfl⟩

end

/-! ### What arrives -/

/-- The second value may arrive where the first was sent. -/
def Sent (v w : Value) : Prop := ∃ j read, document v = .ok j ∧ Json.ReadAs j read ∧ w = ofJson read

theorem forall₂_sent : ∀ {items : List Value} {js read : List Json}, documents items = .ok js →
    Json.AllReadAs js read → List.Forall₂ Sent items (ofItems read)
  | [], _, _, hjs, hread => by
    obtain rfl := Except.ok.inj hjs
    obtain rfl := hread
    exact .nil
  | v :: rest, _, _, hjs, hread => by
    obtain ⟨j, hj, hmore⟩ := ok_of_bind_ok hjs
    obtain ⟨js, hjs', hcons⟩ := ok_of_bind_ok hmore
    obtain rfl := Except.ok.inj hcons
    obtain ⟨y, ys, rfl, hy, hys⟩ := hread
    exact .cons ⟨j, y, hj, hy, rfl⟩ (forall₂_sent hjs' hys)

/-- The second value is of the kind of the first, and what they hold was sent. -/
def Alike : Value → Value → Prop
  | .float _, w => ∃ x, w = .float x
  | .list items, w => ∃ arrived, w = .list arrived ∧ List.Forall₂ Sent items arrived
  | .tuple items, w => ∃ arrived, w = .list arrived ∧ List.Forall₂ Sent items arrived
  | .map entries, w => ∃ js read, members entries = .ok js ∧ Json.FieldsReadAs js read ∧
      w = .map (ofFields (Fields.ofPairs read))
  | .record _, _ | .other _, _ => False
  | v, w => w = v

theorem Sent.alike {v w : Value} (h : Sent v w) : Alike v w := by
  obtain ⟨j, read, hj, hread, rfl⟩ := h
  cases v with
  | null | bool | text =>
    obtain rfl := Except.ok.inj hj
    obtain rfl := hread
    rfl
  | int n =>
    rw [document] at hj
    obtain ⟨n', hn, rfl⟩ := ok_of_map_ok hj
    obtain rfl := hread
    unfold writable at hn
    split at hn
    · obtain rfl := Except.ok.inj hn
      rfl
    · exact absurd hn (by simp)
  | float x =>
    rw [document] at hj
    obtain ⟨x', -, rfl⟩ := ok_of_map_ok hj
    obtain ⟨y, rfl⟩ := hread
    exact ⟨y, rfl⟩
  | list items =>
    obtain ⟨js, hjs, hlist⟩ := ok_of_bind_ok hj
    obtain rfl := Except.ok.inj hlist
    obtain ⟨ys, rfl, hys⟩ := hread
    exact ⟨ofItems ys, rfl, forall₂_sent hjs hys⟩
  | tuple items =>
    obtain ⟨js, hjs, hlist⟩ := ok_of_bind_ok hj
    obtain rfl := Except.ok.inj hlist
    obtain ⟨ys, rfl, hys⟩ := hread
    exact ⟨ofItems ys, rfl, forall₂_sent hjs hys⟩
  | map entries =>
    obtain ⟨js, hjs, hobject⟩ := ok_of_bind_ok hj
    obtain rfl := Except.ok.inj hobject
    obtain ⟨ys, rfl, hys⟩ := hread
    exact ⟨js, ys, hjs, hys, rfl⟩
  | record | other => exact absurd hj (by simp [document])

/-! ### Members under their names -/

/-- A name that stands for no key but the text of that name. -/
def isFieldName (name : Text) : Bool :=
  name ∉ ([("null" : Text), "true", "false"]) &&
    name.toList.head?.all fun (c : CodePoint) => !c.isDigit && c ≠ '-'

theorem not_isFieldName_decimal {name : Text} (negative : Bool) (d : Json.Decimal)
    (h : name.toList = (if negative then [.char '-'] else []) ++ d.chars) :
    isFieldName name = false := by
  have hhead : (name.toList.head?.all fun (c : CodePoint) => !c.isDigit && c ≠ '-') = false := by
    rw [h]
    cases negative with
    | true => rfl
    | false =>
      obtain ⟨c, cs, hcs⟩ := List.exists_cons_of_ne_nil d.whole.nonempty
      have hc := d.whole.digit c (by rw [hcs]; exact List.mem_cons_self ..)
      simp [Json.Decimal.chars, hcs, hc]
  rw [isFieldName, hhead, Bool.and_false]

/-- Only a text stands for a name of a field. -/
theorem eq_text_of_memberName {k : Value} {name : Text} (h : memberName k = .ok name)
    (hfield : isFieldName name = true) : k = .text name := by
  cases k with
  | text s => rw [Except.ok.inj h]
  | null =>
    rw [← Except.ok.inj h] at hfield
    exact absurd hfield (by decide)
  | bool b =>
    rw [← Except.ok.inj h] at hfield
    cases b <;> exact absurd hfield (by decide)
  | int n =>
    rw [memberName] at h
    obtain ⟨n', -, rfl⟩ := ok_of_map_ok h
    have hdecimal : isFieldName (toString n') = false :=
      not_isFieldName_decimal (decide (n' < 0)) (.ofNat n'.natAbs)
        (by rw [Json.toString_int]; simp only [decide_eq_true_eq])
    rw [hdecimal] at hfield
    exact absurd hfield Bool.false_ne_true
  | float x =>
    rw [memberName] at h
    obtain ⟨x', hx, rfl⟩ := ok_of_map_ok h
    obtain ⟨negative, m, q, rfl⟩ : ∃ negative m q, x' = .finite negative m q := by
      unfold finite at hx
      split at hx
      · obtain rfl := Except.ok.inj hx
        exact ⟨_, _, _, rfl⟩
      · exact absurd hx (by simp)
    obtain ⟨d, hd, -⟩ := Binary64.toText_finite negative m q
    rw [not_isFieldName_decimal negative d (by rw [Text.toList_ofList, hd])] at hfield
    exact absurd hfield Bool.false_ne_true
  | list | tuple | map | record | other => exact absurd h (by simp [memberName])

theorem lookup_ofFields (fs : List (Text × Json)) (name : Text) :
    lookup (ofFields fs) name = (Fields.get? fs name).map ofJson := by
  induction fs with
  | nil => rfl
  | cons f rest ih =>
    obtain ⟨k, j⟩ := f
    by_cases h : k = name
    · simp [ofFields, lookup, Fields.get?, h]
    · simpa [ofFields, lookup, Fields.get?, h] using ih

theorem lookup_eq_none {entries : List (Value × Value)} {name : Text}
    (h : name ∉ entries.filterMap fun entry => text? entry.1) : lookup entries name = none := by
  induction entries with
  | nil => rfl
  | cons entry rest ih =>
    obtain ⟨k, v⟩ := entry
    cases k with
    | text s =>
      simp only [List.filterMap_cons, text?, List.mem_cons, not_or] at h
      rw [lookup, if_neg (Ne.symm h.1), ih h.2]
    | _ =>
      simp only [List.filterMap_cons, text?] at h
      exact ih h

/-- Members that arrive are put behind others one by one. Under the name of a field they leave what
    there was, if nothing was sent under it, and else what was sent. -/
theorem lookup_foldl {name : Text} (hfield : isFieldName name = true) :
    ∀ {entries : List (Value × Value)} {js read : List (Text × Json)} (fs : Fields Json),
      members entries = .ok js → Json.FieldsReadAs js read →
      (entries.filterMap fun entry => text? entry.1).Nodup →
      (lookup entries name = none ∧
        Fields.get? (read.foldl (fun fs p => Fields.put p.1 p.2 fs) fs) name =
          Fields.get? fs name) ∨
      ∃ v y, lookup entries name = some v ∧
        Fields.get? (read.foldl (fun fs p => Fields.put p.1 p.2 fs) fs) name = some y ∧
        Sent v (ofJson y)
  | [], _, _, _, hjs, hread, _ => by
    obtain rfl := Except.ok.inj hjs
    obtain rfl := hread
    exact .inl ⟨rfl, rfl⟩
  | (k, v) :: rest, _, _, fs, hjs, hread, hnodup => by
    obtain ⟨name', hname', hmore⟩ := ok_of_bind_ok hjs
    obtain ⟨j, hj, hmore⟩ := ok_of_bind_ok hmore
    obtain ⟨js, hjs', hcons⟩ := ok_of_bind_ok hmore
    obtain rfl := Except.ok.inj hcons
    obtain ⟨y, ys, rfl, hy, hys⟩ := hread
    have hrest : (rest.filterMap fun entry => text? entry.1).Nodup := by
      rw [List.filterMap_cons] at hnodup
      split at hnodup
      · exact hnodup
      · exact (List.nodup_cons.1 hnodup).2
    have ih := lookup_foldl hfield (Fields.put name' y fs) hjs' hys hrest
    rw [List.foldl_cons]
    by_cases hk : k = .text name
    · -- The name does not come again, so what is put under it now stays.
      subst hk
      obtain rfl := Except.ok.inj hname'
      have hnone : lookup rest name = none := by
        refine lookup_eq_none ?_
        simp only [List.filterMap_cons, text?] at hnodup
        exact (List.nodup_cons.1 hnodup).1
      rw [hnone] at ih
      obtain ⟨-, hget⟩ | ⟨_, _, habsurd, -⟩ := ih
      · exact .inr ⟨v, y, by rw [lookup, if_pos rfl], hget.trans Fields.get?_put_self,
          j, y, hj, hy, rfl⟩
      · exact absurd habsurd (by simp)
    · have hne : name' ≠ name := by
        rintro rfl
        exact hk (eq_text_of_memberName hname' hfield)
      have hlookup : lookup ((k, v) :: rest) name = lookup rest name := by
        cases k with
        | text s => rw [lookup, if_neg fun e => hk (by rw [e])]
        | _ => rfl
      rw [hlookup]
      rw [Fields.get?_put_of_ne hne] at ih
      exact ih

/-- What arrives under the name of a field is what was sent under it. -/
theorem rel_lookup {name : Text} (hfield : isFieldName name = true)
    {entries : List (Value × Value)} {js read : List (Text × Json)}
    (hjs : members entries = .ok js) (hread : Json.FieldsReadAs js read)
    (hnodup : (entries.filterMap fun entry => text? entry.1).Nodup) :
    Option.Rel Sent (lookup entries name) (lookup (ofFields (Fields.ofPairs read)) name) := by
  rw [lookup_ofFields]
  obtain ⟨hnone, hget⟩ | ⟨v, y, hsome, hget, hsent⟩ := lookup_foldl hfield [] hjs hread hnodup
  · rw [hnone, Fields.ofPairs, hget]
    exact .none
  · rw [hsome, Fields.ofPairs, hget]
    exact .some hsent

/-! ### Texts and truth values -/

theorem Sent.text?_eq {v w : Value} (h : Sent v w) : w.text? = v.text? := by
  have halike := h.alike
  cases v with
  | record | other => exact halike.elim
  | null | bool | int | text =>
    obtain rfl := halike
    rfl
  | float | list | tuple =>
    obtain ⟨x, hx⟩ := halike
    simp [hx, text?]
  | map =>
    obtain ⟨js, read, -, -, rfl⟩ := halike
    rfl

theorem Sent.bool?_eq {v w : Value} (h : Sent v w) : w.bool? = v.bool? := by
  have halike := h.alike
  cases v with
  | record | other => exact halike.elim
  | null | bool | int | text =>
    obtain rfl := halike
    rfl
  | float | list | tuple =>
    obtain ⟨x, hx⟩ := halike
    simp [hx, bool?]
  | map =>
    obtain ⟨js, read, -, -, rfl⟩ := halike
    rfl

/-- Lists and tuples arrive as lists, and nothing else does. -/
theorem Sent.rel_items {v w : Value} (h : Sent v w) :
    Option.Rel (List.Forall₂ Sent) v.items? w.items? := by
  have halike := h.alike
  cases v with
  | record | other => exact halike.elim
  | null | bool | int | text =>
    obtain rfl := halike
    exact .none
  | float =>
    obtain ⟨x, rfl⟩ := halike
    exact .none
  | list | tuple =>
    obtain ⟨ws, rfl, hws⟩ := halike
    exact .some hws
  | map =>
    obtain ⟨js, read, -, -, rfl⟩ := halike
    exact .none

/-! ### Records -/

open Intake

theorem displayText?_eq (fields : List (Value × Value)) :
    displayText? fields = (firstPresent? fields displayTextNames).bind (·.2.text?) := by
  unfold displayText?
  split
  · rename_i h
    rw [h]
    rfl
  · rename_i h
    rcases hfirst : firstPresent? fields displayTextNames with _ | ⟨name, v⟩
    · rfl
    · cases v with
      | text s => exact absurd hfirst (h name s)
      | _ => rfl

theorem isSynthetic_eq (fields : List (Value × Value)) :
    Intake.isSynthetic fields =
      ((firstPresent? fields syntheticNames).bind (·.2.bool?)).getD false := by
  unfold Intake.isSynthetic
  split
  · rename_i h
    rw [h]
    rfl
  · rename_i h
    rcases hfirst : firstPresent? fields syntheticNames with _ | ⟨name, v⟩
    · rfl
    · cases v with
      | bool b => exact absurd hfirst (h name b)
      | _ => rfl

theorem firstPath_eq (items : Option (List Value)) :
    firstPath items = ((items.bind List.head?).bind text?).getD ("" : Text) := by
  rcases items with _ | _ | ⟨v, _⟩
  · rfl
  · rfl
  · cases v <;> rfl

/-- The first of several paths arrives as it is. -/
theorem Sent.firstPath_eq {v w : Value} (h : Sent v w) :
    firstPath w.items? = firstPath v.items? := by
  have hrel := h.rel_items
  rcases hv : v.items? with _ | vs <;> rcases hw : w.items? with _ | ws
  · rfl
  · rw [hv, hw] at hrel
    nomatch hrel
  · rw [hv, hw] at hrel
    nomatch hrel
  · rw [hv, hw] at hrel
    obtain ⟨hitems⟩ := hrel
    rw [Value.firstPath_eq, Value.firstPath_eq]
    cases hitems with
    | nil => rfl
    | cons hsent _ => exact congrArg (Option.getD · ("" : Text)) hsent.text?_eq

theorem typePath_eq (fields : List (Value × Value)) :
    Intake.typePath fields = ((firstPresent? fields typePathNames).map fun p =>
      p.2.text?.getD (if p.1 = "types" then firstPath p.2.items? else "")).getD ("" : Text) := by
  unfold Intake.typePath
  rcases firstPresent? fields typePathNames with _ | ⟨name, v⟩
  · rfl
  · cases v <;> rfl

theorem crateOr_eq (crate : Text) (fields : List (Value × Value)) :
    crateOr crate fields = (((lookup fields "crate").bind text?).map fun (s : Text) =>
      if s = "" then crate else s).getD crate := by
  unfold crateOr
  rcases lookup fields "crate" with _ | v
  · rfl
  · cases v <;> rfl

section Members

variable {entries arrived : List (Value × Value)}

/-- The first name that counts is the same. -/
theorem firstPresent?_sent {names : List Text}
    (h : ∀ name ∈ names, Option.Rel Sent (lookup entries name) (lookup arrived name)) :
    (firstPresent? entries names = none ∧ firstPresent? arrived names = none) ∨
      ∃ name v w, firstPresent? entries names = some (name, v) ∧
        firstPresent? arrived names = some (name, w) ∧ Sent v w := by
  induction names with
  | nil => exact .inl ⟨rfl, rfl⟩
  | cons name rest ih =>
    have hrel := h name (List.mem_cons_self ..)
    have hrest := ih fun name' hname' => h name' (List.mem_cons_of_mem _ hname')
    simp only [firstPresent?, List.findSome?_cons] at hrest ⊢
    cases hentry : lookup entries name with
    | none =>
      cases harrived : lookup arrived name with
      | none => exact hrest
      | some w =>
        rw [hentry, harrived] at hrel
        exact absurd hrel (by rintro ⟨⟩)
    | some v =>
      cases harrived : lookup arrived name with
      | none =>
        rw [hentry, harrived] at hrel
        exact absurd hrel (by rintro ⟨⟩)
      | some w =>
        rw [hentry, harrived] at hrel
        obtain ⟨hsent⟩ := hrel
        exact .inr ⟨name, v, w, rfl, rfl, hsent⟩

/-- A record is made of what arrives as it is made of what was sent. -/
theorem entry_map_sent
    (h : ∀ name, isFieldName name = true →
      Option.Rel Sent (lookup entries name) (lookup arrived name)) :
    entry "" (.map arrived) = entry "" (.map entries) := by
  have hpresent : ∀ names : List Text, (∀ name ∈ names, isFieldName name = true) →
      (firstPresent? entries names = none ∧ firstPresent? arrived names = none) ∨
        ∃ name v w, firstPresent? entries names = some (name, v) ∧
          firstPresent? arrived names = some (name, w) ∧ Sent v w :=
    fun names hnames => firstPresent?_sent fun name hname => h name (hnames name hname)
  have hdisplay : displayText? arrived = displayText? entries := by
    rw [displayText?_eq, displayText?_eq]
    obtain ⟨hv, hw⟩ | ⟨name, v, w, hv, hw, hsent⟩ := hpresent displayTextNames (by decide)
    · rw [hv, hw]
    · rw [hv, hw, Option.bind_some, Option.bind_some, hsent.text?_eq]
  have hsynthetic : Intake.isSynthetic arrived = Intake.isSynthetic entries := by
    rw [isSynthetic_eq, isSynthetic_eq]
    obtain ⟨hv, hw⟩ | ⟨name, v, w, hv, hw, hsent⟩ := hpresent syntheticNames (by decide)
    · rw [hv, hw]
    · rw [hv, hw, Option.bind_some, Option.bind_some, hsent.bool?_eq]
  have hpath : Intake.typePath arrived = Intake.typePath entries := by
    rw [typePath_eq, typePath_eq]
    obtain ⟨hv, hw⟩ | ⟨name, v, w, hv, hw, hsent⟩ := hpresent typePathNames (by decide)
    · rw [hv, hw]
    · rw [hv, hw, Option.map_some, Option.map_some, hsent.text?_eq, hsent.firstPath_eq]
  have hcrate : crateOr "" arrived = crateOr "" entries := by
    rw [crateOr_eq, crateOr_eq]
    have hrel := h "crate" (by decide)
    generalize lookup entries "crate" = sent at hrel ⊢
    generalize lookup arrived "crate" = came at hrel ⊢
    cases hrel with
    | none => rfl
    | some hsent => rw [Option.bind_some, Option.bind_some, hsent.text?_eq]
  simp only [entry, hdisplay, hsynthetic, hpath, hcrate]

end Members

/-- The record of an entry is the same before and after it was sent. -/
theorem entry_sent {v w : Value} (hv : Expressible v) (h : Sent v w) : entry "" w = entry "" v := by
  have halike := h.alike
  cases v with
  | record | other => exact halike.elim
  | null | bool | int | text =>
    obtain rfl := halike
    rfl
  | float | list | tuple =>
    obtain ⟨x, hx⟩ := halike
    simp [hx, entry]
  | map entries =>
    obtain ⟨js, read, hjs, hread, rfl⟩ := halike
    exact entry_map_sent fun name hfield => rel_lookup hfield hjs hread hv.1

end TraitIndex.Value
