import TraitIndex.Proofs.LiteralTree

/-! The document of a literal.

    `asJson` makes of a literal that is written as some tree the document of the tree: bare names
    get quotes, quoted texts the quotes and escapes of JSON, and a comma before a closing bracket
    goes. What becomes of a part depends on what follows it, so `Becomes` speaks of a part in front
    of a rest, and parts are put together from the back. -/

namespace TraitIndex.Literal

variable {w v j k s rest : List CodePoint} {c : CodePoint}

/-! ### What is made of a literal -/

/-- Before the given rest, the characters `w` become the characters `j`. -/
def Becomes (w j rest : List CodePoint) : Prop :=
  asJson (w ++ rest) = (asJson rest).map (j ++ ·)

theorem becomes_nil (rest : List CodePoint) : Becomes [] [] rest := by
  show asJson rest = (asJson rest).map ([] ++ ·)
  rcases asJson rest with _ | _ <;> rfl

/-- What comes first and what comes next become what they become, one after the other. -/
theorem Becomes.append (h : Becomes w j (v ++ rest)) (h' : Becomes v k rest) :
    Becomes (w ++ v) (j ++ k) rest := by
  unfold Becomes at *
  rw [List.append_assoc, h, h']
  rcases asJson rest with _ | s
  · rfl
  · exact congrArg Except.ok (List.append_assoc j k s).symm

theorem becomes_char (hq : isQuote c = false) (hn : isNameStart c = false) (hc : c ≠ ',')
    (rest : List CodePoint) : Becomes [c] [c] rest := by
  show asJson (c :: rest) = _
  rw [asJson]
  simp only [hq, hn, hc, false_and, Bool.false_eq_true, if_false]
  rfl

/-- A comma before a closing bracket is left out. -/
theorem becomes_comma_closing (h : (firstSolid rest).any closes = true) :
    Becomes [','] [] rest := by
  show asJson (',' :: rest) = _
  rw [asJson]
  simp only [h, and_self, if_true, if_neg (by decide : ¬ isQuote ',' = true),
    if_neg (by decide : ¬ isNameStart ',' = true)]
  rcases asJson rest with _ | _ <;> rfl

theorem becomes_comma (h : (firstSolid rest).any closes = false) :
    Becomes [','] [','] rest := by
  show asJson (',' :: rest) = _
  rw [asJson]
  simp only [h, and_false, Bool.false_eq_true, if_false,
    if_neg (by decide : ¬ isQuote ',' = true), if_neg (by decide : ¬ isNameStart ',' = true)]
  rfl

theorem becomes_gap (gap : Gap) (rest : List CodePoint) : Becomes gap.chars gap.chars rest := by
  have h : ∀ g : List CodePoint, (∀ c ∈ g, Json.isSpace c = true) → Becomes g g rest := by
    intro g
    induction g with
    | nil => exact fun _ => becomes_nil rest
    | cons c g ih =>
      intro hg
      obtain ⟨hq, -, -, hn, hc⟩ := not_isSpace (hg c (List.mem_cons_self ..))
      exact (becomes_char hq hn hc (g ++ rest)).append
        (ih fun d hd => hg d (List.mem_cons_of_mem c hd))
  exact h gap.chars gap.space

/-- A quoted text becomes what is made of its characters, in double quotes. -/
theorem becomes_text {quote : CodePoint} (hq : isQuote quote = true)
    (hbody : body quote (w ++ quote :: rest) = some (j, rest)) :
    Becomes (quote :: (w ++ [quote])) (.char '"' :: (j ++ [.char '"'])) rest := by
  show asJson (quote :: (w ++ [quote] ++ rest)) = _
  rw [List.append_assoc, List.singleton_append, asJson, if_pos hq]
  split
  · rename_i written after h
    rw [hbody] at h
    obtain ⟨rfl, rfl⟩ := Prod.mk.inj (Option.some.inj h)
    simp only [List.cons_append, List.append_assoc, List.nil_append]
  · rename_i h
    rw [hbody] at h
    exact absurd h (by simp)

theorem becomes_quotation (q : Quotation) (rest : List CodePoint) :
    Becomes q.chars (.char '"' :: (q.json ++ [.char '"'])) rest :=
  becomes_text q.opens (q.form.body q.opens rest)

/-- A name with what follows it becomes what `nameAs` says. -/
theorem asJson_name (name : Name) (hrest : ∀ c ∈ rest.head?, isNameChar c = false) :
    asJson (name.first :: name.rest ++ rest) =
      (asJson rest).map (nameAs (name.first :: name.rest) rest ++ ·) := by
  have hq : isQuote name.first = false :=
    (not_isBare (isBare_of_isNameChar (isNameChar_of_isNameStart name.start))).1
  have htake : rest.takeWhile isNameChar = [] := by
    rcases rest with _ | ⟨c, rest⟩
    · rfl
    · rw [List.takeWhile_cons_of_neg]
      rw [hrest c rfl]
      exact Bool.false_ne_true
  have hdrop : rest.dropWhile isNameChar = rest := by
    rcases rest with _ | ⟨c, rest⟩
    · rfl
    · rw [List.dropWhile_cons_of_neg]
      rw [hrest c rfl]
      exact Bool.false_ne_true
  rw [List.cons_append, asJson, if_neg (by rw [hq]; exact Bool.false_ne_true), if_pos name.start,
    List.dropWhile_append_of_pos name.chars, List.takeWhile_append_of_pos name.chars, hdrop, htake,
    List.append_nil]

theorem firstSolid_cons (hc : Text.isBlank c = false) (s : List CodePoint) :
    firstSolid (c :: s) = some c := by
  rw [firstSolid, List.dropWhile_cons_of_neg]
  · rfl
  · rw [hc]
    exact Bool.false_ne_true

/-- No name of a member stands before bare characters. -/
theorem firstSolid_bare (hw : ∀ c ∈ w, isBare c = true) (hrest : Apart rest) :
    firstSolid (w ++ rest) ≠ some (.char ':') := by
  rcases w with _ | ⟨c, w⟩
  · exact hrest.2
  · obtain ⟨-, -, -, -, hcolon, hblank⟩ := not_isBare (hw c (List.mem_cons_self ..))
    rw [List.cons_append, firstSolid_cons hblank]
    exact fun h => hcolon (Option.some.inj h)

/-- A name goes as far as its characters do. -/
theorem head_dropWhile_name (w : List CodePoint) (hrest : Apart rest) :
    ∀ c ∈ (w.dropWhile isNameChar ++ rest).head?, isNameChar c = false := by
  intro c hc
  rcases hw : w.dropWhile isNameChar with _ | ⟨d, v⟩
  · rw [hw] at hc
    rw [Bool.eq_false_iff]
    intro hn
    have := hrest.1 c hc
    rw [isBare_of_isNameChar hn] at this
    exact absurd this (by simp)
  · have hnot := List.head?_dropWhile_not isNameChar w
    rw [hw] at hc hnot
    obtain rfl : d = c := Option.some.inj hc
    exact hnot

/-- A word that stands alone stays as it is. -/
theorem becomes_bare (hw : ∀ c ∈ w, isBare c = true) (hrest : Apart rest) : Becomes w w rest := by
  -- a word may hold several names, as the exponent of a number is one
  induction hn : w.length using Nat.strongRecOn generalizing w with
  | _ n ih =>
    rcases w with _ | ⟨c, w⟩
    · exact becomes_nil rest
    · obtain ⟨hq, -, -, hc, -, -⟩ := not_isBare (hw c (List.mem_cons_self ..))
      have hmem : ∀ d ∈ w, isBare d = true := fun d hd => hw d (List.mem_cons_of_mem c hd)
      by_cases hs : isNameStart c = true
      · have hafter : ∀ d ∈ w.dropWhile isNameChar, isBare d = true :=
          fun d hd => hmem d ((List.dropWhile_suffix _).subset hd)
        have hlength := (List.dropWhile_suffix isNameChar (l := w)).length_le
        have htail : Becomes (w.dropWhile isNameChar) (w.dropWhile isNameChar) rest :=
          ih _ (by rw [← hn, List.length_cons]; omega) hafter rfl
        have hname := asJson_name ⟨c, w.takeWhile isNameChar, hs,
          fun d hd => List.mem_takeWhile_imp hd⟩ (head_dropWhile_name w hrest)
        rw [nameAs, if_neg (firstSolid_bare hafter hrest)] at hname
        have hfirst : Becomes (c :: w.takeWhile isNameChar) (c :: w.takeWhile isNameChar)
            (w.dropWhile isNameChar ++ rest) := hname
        have hall := hfirst.append htail
        rwa [List.cons_append, List.takeWhile_append_dropWhile] at hall
      · exact (becomes_char hq (Bool.eq_false_iff.2 hs) hc (w ++ rest)).append
          (ih _ (by rw [← hn]; exact Nat.lt_succ_self _) hmem rfl)

/-- The name of a member becomes a text. -/
theorem becomes_key (key : Key) (gap : Gap) (rest : List CodePoint) :
    Becomes key.chars (.char '"' :: (key.body ++ [.char '"']))
      (gap.chars ++ .char ':' :: rest) := by
  cases key with
  | quoted q => exact becomes_quotation q _
  | bare name =>
    have hhead : ∀ c ∈ (gap.chars ++ .char ':' :: rest).head?, isNameChar c = false := by
      intro c hc
      rcases hg : gap.chars with _ | ⟨d, g⟩
      · rw [hg] at hc
        obtain rfl : ':' = c := Option.some.inj hc
        rfl
      · rw [hg] at hc
        obtain rfl : d = c := Option.some.inj hc
        have hd := gap.space d (by rw [hg]; exact List.mem_cons_self ..)
        simp only [Json.isSpace, Bool.or_eq_true, beq_iff_eq] at hd
        rcases hd with ((rfl | rfl) | rfl) | rfl <;> decide
    have hname := asJson_name name hhead
    rwa [nameAs, if_pos (firstSolid_gap gap rfl rest)] at hname

theorem becomes_label (label : Label) (rest : List CodePoint) :
    Becomes label.chars label.json rest := by
  have hcolon : Becomes (':' :: label.right.chars) (':' :: label.right.chars) rest :=
    (becomes_char rfl rfl (by decide) _).append (becomes_gap label.right rest)
  have hleft := (becomes_gap label.left _).append hcolon
  have hkey : Becomes label.key.chars (.char '"' :: (label.key.body ++ [.char '"']))
      ((label.left.chars ++ .char ':' :: label.right.chars) ++ rest) := by
    rw [List.append_assoc]
    exact becomes_key label.key label.left _
  have hall := hkey.append hleft
  rwa [List.cons_append, List.append_assoc, List.singleton_append] at hall

/-- The comma between items stays, and the one before the closing bracket goes. -/
theorem Items.becomes_comma (items : Items) (rest : List CodePoint) :
    Becomes [','] items.comma (items.chars ++ rest) := by
  cases items with
  | close gap =>
    refine becomes_comma_closing ?_
    rw [Items.chars, List.append_assoc, List.singleton_append, firstSolid_gap gap (by decide)]
    rfl
  | last before x after =>
    refine Literal.becomes_comma ?_
    rw [Items.chars, List.append_assoc, List.append_assoc]
    exact firstSolid_starts before x.starts _
  | more before x after more =>
    refine Literal.becomes_comma ?_
    rw [Items.chars, List.append_assoc, List.append_assoc]
    exact firstSolid_starts before x.starts _

theorem Members.becomes_comma (members : Members) (rest : List CodePoint) :
    Becomes [','] members.comma (members.chars ++ rest) := by
  cases members with
  | close gap =>
    refine becomes_comma_closing ?_
    rw [Members.chars, List.append_assoc, List.singleton_append, firstSolid_gap gap (by decide)]
    rfl
  | last before label x after =>
    refine Literal.becomes_comma ?_
    rw [Members.chars, List.append_assoc, List.append_assoc]
    exact firstSolid_starts before label.starts _
  | more before label x after more =>
    refine Literal.becomes_comma ?_
    rw [Members.chars, List.append_assoc, List.append_assoc]
    exact firstSolid_starts before label.starts _

/-! ### The document of a literal -/

mutual

/-- A literal becomes its document. -/
theorem becomes_tree (rest : List CodePoint) (hrest : Apart rest) : ∀ t : Tree,
    Becomes t.chars t.json rest
  | .word w => becomes_bare w.isBare_chars hrest
  | .text q => becomes_quotation q rest
  | .list items => (becomes_char rfl rfl (by decide) _).append (becomes_items rest items)
  | .object members => (becomes_char rfl rfl (by decide) _).append (becomes_members rest members)

theorem becomes_items (rest : List CodePoint) : ∀ items : Items, Becomes items.chars items.json rest
  | .close gap => (becomes_gap gap _).append (becomes_char rfl rfl (by decide) rest)
  | .last before x after => by
    have hclose : Becomes [']'] [']'] rest := becomes_char rfl rfl (by decide) rest
    have hx : Becomes x.chars x.json ((after.chars ++ [.char ']']) ++ rest) := by
      refine becomes_tree _ ?_ x
      rw [List.append_assoc]
      exact apart_gap after (.inr rfl) rest
    exact (becomes_gap before _).append (hx.append ((becomes_gap after _).append hclose))
  | .more before x after more => by
    have hmore : Becomes (',' :: more.chars) (more.comma ++ more.json) rest :=
      (more.becomes_comma rest).append (becomes_items rest more)
    have hx : Becomes x.chars x.json ((after.chars ++ .char ',' :: more.chars) ++ rest) := by
      refine becomes_tree _ ?_ x
      rw [List.append_assoc]
      exact apart_gap after (.inl rfl) _
    exact (becomes_gap before _).append (hx.append ((becomes_gap after _).append hmore))

theorem becomes_members (rest : List CodePoint) : ∀ members : Members,
    Becomes members.chars members.json rest
  | .close gap => (becomes_gap gap _).append (becomes_char rfl rfl (by decide) rest)
  | .last before label x after => by
    have hclose : Becomes ['}'] ['}'] rest := becomes_char rfl rfl (by decide) rest
    have hx : Becomes x.chars x.json ((after.chars ++ [.char '}']) ++ rest) := by
      refine becomes_tree _ ?_ x
      rw [List.append_assoc]
      exact apart_gap after (.inr rfl) rest
    exact (becomes_gap before _).append ((becomes_label label _).append
      (hx.append ((becomes_gap after _).append hclose)))
  | .more before label x after more => by
    have hmore : Becomes (',' :: more.chars) (more.comma ++ more.json) rest :=
      (more.becomes_comma rest).append (becomes_members rest more)
    have hx : Becomes x.chars x.json ((after.chars ++ .char ',' :: more.chars) ++ rest) := by
      refine becomes_tree _ ?_ x
      rw [List.append_assoc]
      exact apart_gap after (.inl rfl) _
    exact (becomes_gap before _).append ((becomes_label label _).append
      (hx.append ((becomes_gap after _).append hmore)))

end

/-- White space before and after what becomes something stays as it is. -/
theorem asJson_of_becomes (before after : Gap) (h : Becomes w j after.chars) :
    asJson (before.chars ++ (w ++ after.chars)) =
      .ok (before.chars ++ (j ++ after.chars)) := by
  have hafter : Becomes after.chars after.chars [] := becomes_gap after []
  have hw : Becomes w j (after.chars ++ []) := by rwa [List.append_nil]
  have hall : Becomes (before.chars ++ (w ++ after.chars))
      (before.chars ++ (j ++ after.chars)) [] :=
    (becomes_gap before _).append (hw.append hafter)
  unfold Becomes at hall
  rw [List.append_nil, asJson] at hall
  rw [hall]
  exact congrArg Except.ok (List.append_nil _)

theorem asJson_gaps (before after : Gap) (t : Tree) :
    asJson (before.chars ++ (t.chars ++ after.chars)) =
      .ok (before.chars ++ (t.json ++ after.chars)) :=
  asJson_of_becomes before after (becomes_tree _ (apart_space after) t)

/-- The whole of a literal becomes its document. -/
theorem asJson_tree (t : Tree) : asJson t.chars = .ok t.json := by
  have h := asJson_gaps .none .none t
  rwa [Gap.none, List.nil_append, List.nil_append, List.append_nil, List.append_nil] at h

end TraitIndex.Literal
