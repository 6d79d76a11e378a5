import TraitIndex.Proofs.LiteralExtent
import TraitIndex.Proofs.QuotedExtent

/-! Where a literal ends.

    Two readers go through a literal: one looks for the bracket that closes it, in a text that goes
    on behind it, the other makes JSON of it and sees nothing but the literal. Both pass over quoted
    texts as a whole. So what is found to be a literal is found again, whatever follows it, no
    shorter text is found in it, and making JSON of it does not fail. And every array or object of a
    script is found from its first bracket to its last. -/

namespace TraitIndex.Literal

/-- The place behind the literal that starts at a place of a source. -/
def endOf (source : List CodePoint) (start : Nat) : Except Fault Nat :=
  (afterLiteral start (source.drop start)).map (source.length - ·.length)

/-- Every quoted text in it ends. -/
inductive Whole : List CodePoint → Prop where
  | nil : Whole []
  | plain {c : CodePoint} {u : List CodePoint} (hq : isQuote c = false) (hu : Whole u) :
      Whole (c :: u)
  | quoted {quote : CodePoint} {t u : List CodePoint} (hq : isQuote quote = true)
      (ht : Inside quote t)
    (hu : Whole u) : Whole (quote :: (t ++ quote :: u))

/-- The text starts with a bracket and ends with the one that closes it. -/
inductive Closed : List CodePoint → Prop where
  | mk {c : CodePoint} {u : List CodePoint} (ho : opens c = true) (hu : Whole u)
    (hend : ∀ rest, closing 1 (u ++ rest) = .ok rest) : Closed (c :: u)

variable {s t u w rest : List CodePoint} {quote c : CodePoint} {depth : Nat}

/-! ### Looking for the end -/

theorem closing_inside (hq : isQuote quote = true) (ht : Inside quote t) (rest : List CodePoint) :
    closing depth (quote :: (t ++ quote :: rest)) = closing depth rest :=
  closing_of_body hq (body_of_inside (ne_backslash_of_isQuote hq) ht rest)

/-- What has been passed over is passed over again, whatever follows it. -/
theorem closing_eq_ok (h : closing depth w = .ok rest) :
    ∃ u, w = u ++ rest ∧ Whole u ∧ ∀ rest', closing depth (u ++ rest') = .ok rest' := by
  fun_induction closing depth w generalizing rest with
  | case1 => exact absurd h (by simp)
  | case2 depth c w hq written after hbody ih =>
    obtain ⟨u, rfl, hu, hrest⟩ := ih h
    obtain ⟨t, ht, rfl, -⟩ := inside_of_body hbody
    refine ⟨c :: (t ++ c :: u), by simp, .quoted hq ht hu, fun rest' => ?_⟩
    rw [List.cons_append, List.append_assoc, List.cons_append, closing_inside hq ht, hrest]
  | case3 => exact absurd h (by simp)
  | case4 depth c w hq ho ih =>
    obtain ⟨u, rfl, hu, hrest⟩ := ih h
    have hq : isQuote c = false := by simpa using hq
    refine ⟨c :: u, rfl, .plain hq hu, fun rest' => ?_⟩
    rw [List.cons_append, closing_opens hq ho, hrest]
  | case5 c w hq ho hc =>
    obtain rfl := Except.ok.inj h
    have hq : isQuote c = false := by simpa using hq
    have ho : opens c = false := by simpa using ho
    refine ⟨[c], rfl, .plain hq .nil, fun rest' => ?_⟩
    exact closing_closes hq ho hc rest'
  | case6 depth c w hq ho hc hdepth ih =>
    obtain ⟨u, rfl, hu, hrest⟩ := ih h
    have hq : isQuote c = false := by simpa using hq
    refine ⟨c :: u, rfl, .plain hq hu, fun rest' => ?_⟩
    rw [List.cons_append, closing]
    simp only [hq, ho, hc, hdepth, if_false, if_true, Bool.false_eq_true]
    exact hrest rest'
  | case7 depth c w hq ho hc ih =>
    obtain ⟨u, rfl, hu, hrest⟩ := ih h
    have hq : isQuote c = false := by simpa using hq
    have ho : opens c = false := by simpa using ho
    have hc : closes c = false := by simpa using hc
    refine ⟨c :: u, rfl, .plain hq hu, fun rest' => ?_⟩
    rw [List.cons_append, closing_plain hq ho hc, hrest]

/-- A literal is found where a closed text stands, and only there. -/
theorem endOf_eq_ok_iff {source : List CodePoint} {start stop : Nat} :
    endOf source start = .ok stop ↔
      ∃ s rest, source.drop start = s ++ rest ∧ Closed s ∧ stop = start + s.length := by
  have hlength : (source.drop start).length = source.length - start := List.length_drop
  constructor
  · intro h
    rcases hdrop : source.drop start with _ | ⟨c, w⟩
    · rw [endOf, hdrop] at h
      exact absurd h (by simp [afterLiteral, Except.map])
    · rw [endOf, hdrop, afterLiteral] at h
      by_cases ho : opens c = true
      · rw [if_pos ho] at h
        rcases hclosing : closing 1 w with why | rest
        · rw [hclosing] at h
          exact absurd h (by simp [Except.map])
        · rw [hclosing] at h
          obtain rfl := Except.ok.inj h
          obtain ⟨u, rfl, hu, hend⟩ := closing_eq_ok hclosing
          refine ⟨c :: u, rest, rfl, .mk ho hu hend, ?_⟩
          rw [hdrop] at hlength
          simp only [List.length_cons, List.length_append] at hlength ⊢
          omega
      · rw [if_neg ho] at h
        exact absurd h (by simp [Except.map])
  · rintro ⟨_, rest, hdrop, ⟨ho, hu, hend⟩, rfl⟩
    rw [hdrop] at hlength
    rw [endOf, hdrop, List.cons_append, afterLiteral, if_pos ho, hend]
    simp only [List.length_cons, List.length_append] at hlength ⊢
    refine congrArg Except.ok ?_
    show source.length - rest.length = _
    omega

/-- Where a closed text stands at the start, it is found. -/
theorem Closed.endOf_append (h : Closed s) (rest : List CodePoint) :
    endOf (s ++ rest) 0 = .ok s.length :=
  endOf_eq_ok_iff.2 ⟨s, rest, rfl, h, (Nat.zero_add _).symm⟩

/-- A closed text is not closed before its end. -/
theorem Closed.not_of_prefix (h : Closed s) {p q : List CodePoint} (hs : s = p ++ q)
    (hp : Closed p) :
    q = [] := by
  obtain ⟨-, -, hend⟩ := h
  obtain ⟨-, -, hend'⟩ := hp
  obtain ⟨rfl, rfl⟩ := List.cons.inj hs
  have hall := hend []
  rw [List.append_nil] at hall
  exact Except.ok.inj ((hend' q).symm.trans hall)

/-! ### Making JSON of it -/

theorem Whole.dropWhile_isNameChar (h : Whole u) : Whole (u.dropWhile isNameChar) := by
  induction h with
  | nil => exact .nil
  | @plain c u hq hu ih =>
    rw [List.dropWhile_cons]
    split
    · exact ih
    · exact .plain hq hu
  | @quoted quote t u hq ht hu ih =>
    rw [List.dropWhile_cons_of_neg]
    · exact .quoted hq ht hu
    · intro hname
      rw [(not_isBare (isBare_of_isNameChar hname)).1] at hq
      exact absurd hq (by simp)

theorem Whole.of_cons (h : Whole (c :: u)) (hq : isQuote c = false) : Whole u := by
  cases h with
  | plain _ hu => exact hu
  | quoted hq' _ _ => exact absurd (hq.symm.trans hq') (by simp)

/-- Making JSON does not fail where every quoted text ends. -/
theorem Whole.asJson (h : Whole u) : ∃ json, asJson u = .ok json := by
  fun_induction Literal.asJson u with
  | case1 => exact ⟨[], rfl⟩
  | case2 c rest hq written after hbody ih =>
    cases h with
    | plain hq' _ => exact absurd (hq'.symm.trans hq) (by simp)
    | quoted _ ht hu =>
      rw [body_of_inside (ne_backslash_of_isQuote hq) ht] at hbody
      obtain ⟨-, rfl⟩ := Prod.mk.inj (Option.some.inj hbody)
      obtain ⟨json, hjson⟩ := ih hu
      exact ⟨_, by rw [hjson]; rfl⟩
  | case3 c rest hq hbody =>
    cases h with
    | plain hq' _ => exact absurd (hq'.symm.trans hq) (by simp)
    | quoted _ ht hu =>
      rw [body_of_inside (ne_backslash_of_isQuote hq) ht] at hbody
      exact absurd hbody (by simp)
  | case4 c rest hq hname after ih =>
    obtain ⟨json, hjson⟩ := ih (h.of_cons (by simpa using hq)).dropWhile_isNameChar
    exact ⟨_, by rw [hjson]; rfl⟩
  | case5 c rest hq hname hcomma ih => exact ih (h.of_cons (by simpa using hq))
  | case6 c rest hq hname hcomma ih =>
    obtain ⟨json, hjson⟩ := ih (h.of_cons (by simpa using hq))
    exact ⟨_, by rw [hjson]; rfl⟩

theorem Closed.asJson (h : Closed s) : ∃ json, asJson s = .ok json := by
  obtain ⟨ho, hu, -⟩ := h
  refine (Whole.plain ?_ hu).asJson
  simp only [opens, Bool.or_eq_true, beq_iff_eq] at ho
  rcases ho with rfl | rfl <;> decide

/-! ### Literals of a script -/

/-- White space between the tokens of a script. -/
def isGap (c : CodePoint) : Bool := Text.isBlank c || c == '\ufeff'

/-- A character of a word: none that separates tokens. -/
def isWord (c : CodePoint) : Bool :=
  !(isQuote c || opens c || closes c || c == ',' || c == ':' || isGap c)

/-- A word or a quoted text. -/
inductive Token : List CodePoint → Prop where
  | word {w : List CodePoint} (hne : w ≠ []) (hw : ∀ c ∈ w, isWord c = true) : Token w
  | text {quote : CodePoint} {t : List CodePoint} (hq : isQuote quote = true)
      (ht : Inside quote t) :
    Token (quote :: (t ++ [quote]))

/-- A list or an object. -/
inductive Kind where
  | list
  | object

/-- The bracket that opens a list or an object. -/
def Kind.opening : Kind → CodePoint
  | .list => '['
  | .object => '{'

/-- The bracket that closes it. -/
def Kind.closing : Kind → CodePoint
  | .list => ']'
  | .object => '}'

/-- A part of a literal: a value, an item or a member, or what follows an opening bracket. -/
inductive Part where
  | value
  | entry (k : Kind)
  | inner (k : Kind)

/-- How a part of a literal is written in a script: names and texts in any form, white space between
    the tokens, a comma before the closing bracket or none, and places of a list left out. -/
inductive Written : Part → List CodePoint → Prop where
  | token {w : List CodePoint} (hw : Token w) : Written .value w
  | bracket {k : Kind} {s : List CodePoint} (hs : Written (.inner k) s) :
      Written .value (k.opening :: s)
  | item {x : List CodePoint} (hx : Written .value x) : Written (.entry .list) x
  | member {name g g' x : List CodePoint} (hname : Token name) (hg : ∀ c ∈ g, isGap c = true)
    (hg' : ∀ c ∈ g', isGap c = true) (hx : Written .value x) :
    Written (.entry .object) (name ++ (g ++ .char ':' :: (g' ++ x)))
  | done {k : Kind} {g : List CodePoint} (hg : ∀ c ∈ g, isGap c = true) :
    Written (.inner k) (g ++ [k.closing])
  | last {k : Kind} {g x g' : List CodePoint} (hg : ∀ c ∈ g, isGap c = true)
    (hx : Written (.entry k) x) (hg' : ∀ c ∈ g', isGap c = true) :
    Written (.inner k) (g ++ (x ++ (g' ++ [k.closing])))
  | more {k : Kind} {g x g' s : List CodePoint} (hg : ∀ c ∈ g, isGap c = true)
    (hx : Written (.entry k) x) (hg' : ∀ c ∈ g', isGap c = true) (hs : Written (.inner k) s) :
    Written (.inner k) (g ++ (x ++ (g' ++ .char ',' :: s)))
  | hole {g s : List CodePoint} (hg : ∀ c ∈ g, isGap c = true) (hs : Written (.inner .list) s) :
    Written (.inner .list) (g ++ .char ',' :: s)

theorem not_isGap (h : isGap c = true) :
    isQuote c = false ∧ opens c = false ∧ closes c = false := by
  have hne : ∀ d : CodePoint, isGap d = false → c ≠ d := by
    rintro d hd rfl
    exact absurd (hd.symm.trans h) (by simp)
  simp only [isQuote, opens, closes, Bool.or_eq_false_iff, beq_eq_false_iff_ne]
  exact ⟨⟨hne _ (by decide), hne _ (by decide)⟩, ⟨hne _ (by decide), hne _ (by decide)⟩,
    hne _ (by decide), hne _ (by decide)⟩

theorem not_isWord (h : isWord c = true) :
    isQuote c = false ∧ opens c = false ∧ closes c = false := by
  simp only [isWord, Bool.not_eq_true', Bool.or_eq_false_iff] at h
  exact ⟨h.1.1.1.1.1, h.1.1.1.1.2, h.1.1.1.2⟩

theorem closing_isGap {g : List CodePoint} (hg : ∀ c ∈ g, isGap c = true) (rest : List CodePoint) :
    closing depth (g ++ rest) = closing depth rest :=
  closing_append (fun c hc => not_isGap (hg c hc)) rest

theorem Token.closing (h : Token w) (rest : List CodePoint) :
    closing depth (w ++ rest) = closing depth rest := by
  cases h with
  | word _ hw => exact closing_append (fun c hc => not_isWord (hw c hc)) rest
  | text hq ht =>
    rw [List.cons_append, List.append_assoc, List.singleton_append]
    exact closing_inside hq ht rest

theorem Kind.closing_opening (k : Kind) (rest : List CodePoint) :
    Literal.closing depth (k.opening :: rest) = Literal.closing (depth + 1) rest := by
  cases k with
  | list => exact closing_opens rfl rfl rest
  | object => exact closing_opens rfl rfl rest

theorem Kind.closing_closing (k : Kind) (rest : List CodePoint) :
    Literal.closing (depth + 1) (k.closing :: rest) = leave depth rest := by
  cases k with
  | list => exact closing_closes rfl rfl rfl rest
  | object => exact closing_closes rfl rfl rfl rest

/-- A value or an entry is passed over inside a bracket, and what follows an opening bracket ends
    with the one that closes it. -/
def Passed : Part → List CodePoint → Prop
  | .value, w | .entry _, w =>
    ∀ depth rest, closing (depth + 1) (w ++ rest) = closing (depth + 1) rest
  | .inner _, w => ∀ depth rest, closing (depth + 1) (w ++ rest) = leave depth rest

theorem Written.passed {part : Part} (h : Written part w) : Passed part w := by
  induction h with
  | token hw => exact fun depth rest => hw.closing rest
  | bracket hs ih =>
    intro depth rest
    rw [List.cons_append, Kind.closing_opening]
    exact ih (depth + 1) rest
  | item hx ih => exact ih
  | member hname hg hg' hx ih =>
    intro depth rest
    simp only [List.append_assoc, List.cons_append, hname.closing, closing_isGap hg]
    rw [closing_plain rfl rfl rfl, closing_isGap hg', ih]
  | done hg =>
    intro depth rest
    rw [List.append_assoc, closing_isGap hg]
    exact Kind.closing_closing _ rest
  | last hg hx hg' ih =>
    intro depth rest
    simp only [List.append_assoc, closing_isGap hg, ih depth, closing_isGap hg']
    exact Kind.closing_closing _ rest
  | more hg hx hg' hs ih ih' =>
    intro depth rest
    simp only [List.append_assoc, closing_isGap hg, ih depth, closing_isGap hg', List.cons_append]
    rw [closing_plain rfl rfl rfl, ih' depth rest]
  | hole hg hs ih =>
    intro depth rest
    rw [List.append_assoc, closing_isGap hg, List.cons_append, closing_plain rfl rfl rfl,
      ih depth rest]

/-- What is found to be a literal is found at the start of itself whatever follows it, nothing
    shorter is, and JSON can be made of it. And a list or an object of a script is found from its
    first bracket to its last, whatever stands before it and after it. -/
theorem literal_ends_where_closed :
    (∀ (source : List CodePoint) (start stop : Nat), endOf source start = .ok stop →
      ∃ s, s = (source.drop start).take (stop - start) ∧
        (∀ rest, endOf (s ++ rest) 0 = .ok s.length) ∧
        (∀ p q, s = p ++ q → q ≠ [] → ∀ n, endOf p 0 ≠ .ok n) ∧
        ∃ json, asJson s = .ok json) ∧
    ∀ (k : Kind) (inner before after : List CodePoint), Written (.inner k) inner →
      endOf (before ++ (k.opening :: inner ++ after)) before.length =
        .ok (before.length + (k.opening :: inner).length) := by
  constructor
  · intro source start stop h
    obtain ⟨s, rest, hdrop, hs, rfl⟩ := endOf_eq_ok_iff.1 h
    have htake : s = (source.drop start).take (start + s.length - start) := by
      rw [hdrop, Nat.add_sub_cancel_left, List.take_left]
    refine ⟨s, htake, hs.endOf_append, fun p q hpq hq n hn => ?_, hs.asJson⟩
    obtain ⟨p', rest', hp, hclosed, -⟩ := endOf_eq_ok_iff.1 hn
    -- what is found in the shorter text would be closed before the end of the literal
    rw [List.drop_zero] at hp
    rw [hp, List.append_assoc] at hpq
    exact hq (List.append_eq_nil_iff.1 (hs.not_of_prefix hpq hclosed)).2
  · intro k inner before after h
    obtain ⟨u, hu, hwhole, hend⟩ := closing_eq_ok (h.passed 0 [])
    rw [List.append_nil, List.append_nil] at hu
    subst hu
    have hopens : opens k.opening = true := by cases k <;> rfl
    refine endOf_eq_ok_iff.2 ⟨k.opening :: inner, after, ?_, .mk hopens hwhole hend, rfl⟩
    rw [List.drop_left]

/-- A list with a bracket in a text, a text in single quotes and a comma at its end. -/
theorem written_list : Written (.inner .list) ['\'', '[', '\'', ',', ' ', ']'] := by
  have htext : Written (.entry .list) ['\'', '[', '\''] :=
    .item (.token (.text rfl (.plain (by decide) (by decide) .nil)))
  have hend : Written (.inner .list) ([.char ' '] ++ [Kind.closing .list]) :=
    .done (List.forall_mem_singleton.2 rfl)
  have hlist : Written (.inner .list)
      ([] ++ ([.char '\'', .char '[', .char '\''] ++
        ([] ++ .char ',' :: ([.char ' '] ++ [Kind.closing .list])))) :=
    .more (List.forall_mem_nil _) htext (List.forall_mem_nil _) hend
  exact hlist

theorem literal_ends_where_closed_list :
    endOf ("a = ['[', ]; b" : Text).toList 4 = .ok 11 ∧
      (∃ s, (∀ rest, endOf (s ++ rest) 0 = .ok s.length) ∧
        (∀ p q, s = p ++ q → q ≠ [] → ∀ n, endOf p 0 ≠ .ok n) ∧ ∃ json, asJson s = .ok json) := by
  have hend := literal_ends_where_closed.2 .list _ ("a = " : Text).toList
    ("; b" : Text).toList written_list
  obtain ⟨s, -, hs⟩ := literal_ends_where_closed.1 _ _ _ hend
  exact ⟨hend, s, hs⟩

end TraitIndex.Literal
