import TraitIndex.Proofs.Generated
import TraitIndex.Proofs.Keys

/-! Names of crates as keys.

    Where a key ends is found out twice: by the pattern, and by the reader of quoted texts, of which
    only what it has read is used and not where it has stopped. `NameForm` says how the name of a
    crate may stand as a key: in double quotes as a text of JSON, or in single quotes. The pattern
    takes exactly these characters for the key, the reader reads all of them, and they denote the
    name, whatever quotes, brackets and backslashes the name holds. -/

namespace TraitIndex.Fragment

open Assignment

/-- A way to write the name of a crate as a key: as a text of JSON, or in single quotes with an
    escape for each control character. -/
inductive NameForm (name : Text) : List CodePoint → Prop where
  | double {w : List CodePoint} (hw : Json.TextForm false name.toList w) :
    NameForm name (.char '"' :: (w ++ [.char '"']))
  | single {w j : List CodePoint} (hw : Literal.TextForm '\'' name.toList w j)
    (hcontrol : ∀ c ∈ w, ¬ c < .char ' ') : NameForm name (.char '\'' :: (w ++ [.char '\'']))

variable {name : Text} {key : List CodePoint}

/-- Both are texts in quotes that hold no control character. -/
theorem NameForm.quoted (h : NameForm name key) :
    ∃ quote w j, key = quote :: (w ++ [quote]) ∧ Literal.isQuote quote = true ∧
      Literal.TextForm quote name.toList w j ∧ ∀ c ∈ w, ¬ c < ' ' := by
  cases h with
  | @double w hw =>
    exact ⟨'"', w, w, rfl, rfl, Literal.textForm_of_json hw, (keyText_of_textForm hw).2 rfl⟩
  | @single w j hw hcontrol => exact ⟨'\'', w, j, rfl, rfl, hw, hcontrol⟩

theorem NameForm.isKey (h : NameForm name key) : IsKey key := by
  obtain ⟨quote, w, j, rfl, hq, hw, hcontrol⟩ := h.quoted
  have hn : .char '\n' ∉ w := fun hn => hcontrol '\n' hn (by decide)
  exact ⟨quote, w, hq, keyText_of_inside (hw.inside hq) hn, rfl⟩

theorem NameForm.crate (h : NameForm name key) (rest : List CodePoint) :
    Assignment.crate ⟨key, rest⟩ = .ok name := by
  obtain ⟨quote, w, j, rfl, hq, hw, hcontrol⟩ := h.quoted
  exact crate_of_textForm hq hw (hw.strict hcontrol) rest

/-! ### Names in single quotes -/

/-- A character of a name as it is written in single quotes: the quote, a backslash or a control
    character by an escape, any other as it is. -/
def singleChar (c : CodePoint) : List CodePoint :=
  if c = '\'' then ['\\', '\''] else if c = '"' then ['"'] else Json.escapedChar c

/-- A name in single quotes. -/
def singleQuoted (name : Text) : List CodePoint :=
  .char '\'' :: (name.toList.flatMap singleChar ++ [.char '\''])

theorem textForm_single (s : List CodePoint) :
    ∃ j, Literal.TextForm '\'' s (s.flatMap singleChar) j := by
  induction s with
  | nil => exact ⟨[], .nil⟩
  | cons c s ih =>
    obtain ⟨j, hj⟩ := ih
    rw [List.flatMap_cons, singleChar]
    split
    · rename_i hc
      rw [hc]
      exact ⟨_, .cons .single hj⟩
    · rename_i hc
      split
      · rename_i hd
        rw [hd]
        exact ⟨_, .cons (.double (by decide)) hj⟩
      · have hform := Json.charForm_escapedChar true c
        refine ⟨_, .cons (.same hform fun he => ?_) hj⟩
        -- only the quote itself is written as the quote
        rw [he] at hform
        cases hform with
        | raw => exact hc rfl

theorem not_control_of_single {c d : CodePoint} (h : d ∈ singleChar c) : ¬ d < ' ' := by
  unfold singleChar at h
  split at h
  · have hall : ∀ d ∈ [CodePoint.char '\\', .char '\''], ¬ d < ' ' :=
      List.forall_mem_cons.2 ⟨by decide, List.forall_mem_singleton.2 (by decide)⟩
    exact hall d h
  · split at h
    · rw [List.mem_singleton.1 h]
      decide
    · have hform : Json.TextForm false [c] (Json.escapedChar c ++ []) :=
        .cons (Json.charForm_escapedChar false c) .nil
      exact (keyText_of_textForm hform).2 rfl d (List.mem_append_left _ h)

/-- Every name can stand in single quotes. -/
theorem nameForm_singleQuoted (name : Text) : NameForm name (singleQuoted name) := by
  obtain ⟨j, hj⟩ := textForm_single name.toList
  refine .single hj fun d hd => ?_
  obtain ⟨c, -, hd⟩ := List.mem_flatMap.1 hd
  exact not_control_of_single hd

/-! ### The two readers of a key -/

theorem quoted_of_mem_all {source : List CodePoint} {a : Assignment} (ha : a ∈ all source) :
    ∃ written, Literal.quoted a.key = .ok (written, []) := by
  obtain ⟨quote, t, hquote, ht, hkey⟩ := isKey_of_mem_all ha
  exact ⟨_, hkey ▸ quoted_of_keyText hquote ht⟩

/-- The key of every match is read to its last character. And where the name of a crate stands as a
    key, with blanks wherever they may be, a match starts: however the pattern is matched there its
    key is that key, the match that is found goes on to the first character behind the equals sign
    that is no blank, and the key denotes the name. It is one of all matches, unless one of these
    goes over the place where it starts. -/
theorem crate_key_read_whole :
    (∀ source : List CodePoint, ∀ a ∈ all source,
      ∃ written, Literal.quoted a.key = .ok (written, [])) ∧
    ∀ (name : Text) (key : List CodePoint), NameForm name key →
      ∀ before b₁ b₂ b₃ b₄ rest s : List CodePoint,
        Blanks b₁ → Blanks b₂ → Blanks b₃ → Blanks b₄ → Solid rest →
        s = opening ++ (b₁ ++ (key ++ (b₂ ++ .char ']' :: (b₃ ++ .char '=' :: (b₄ ++ rest))))) →
        start? s = some ⟨key, rest⟩ ∧
        (∀ key' text after, Matches key' text → s = text ++ after → key' = key) ∧
        crate ⟨key, rest⟩ = .ok name ∧
        ((∃ as, all (before ++ s) = as ++ ⟨key, rest⟩ :: all rest) ∨
          ∃ b ∈ all (before ++ s), Over before s b) := by
  constructor
  · exact fun source a ha => quoted_of_mem_all ha
  · intro name key hname before b₁ b₂ b₃ b₄ rest s h₁ h₂ h₃ h₄ hrest hs
    have hstart : start? s = some ⟨key, rest⟩ :=
      hs ▸ start?_append hname.isKey h₁ h₂ h₃ h₄ hrest
    exact ⟨hstart, fun _ _ _ h he => h.key_eq he hstart, hname.crate rest,
      all_place before hstart⟩

/-- A name with both quotes, a bracket, a backslash and a line break, in single quotes. -/
theorem crate_key_read_whole_single :
    start? ("implementors[ '\\'] = \"\\\\\\n'\t] =\n[];" : Text).toList =
        some ⟨("'\\'] = \"\\\\\\n'" : Text).toList, ("[];" : Text).toList⟩ ∧
      crate ⟨("'\\'] = \"\\\\\\n'" : Text).toList, ("[];" : Text).toList⟩ = .ok "'] = \"\\\n" ∧
      ⟨("'\\'] = \"\\\\\\n'" : Text).toList, ("[];" : Text).toList⟩ ∈
        all ("implementors[ '\\'] = \"\\\\\\n'\t] =\n[];" : Text).toList ∧
      ∃ written, Literal.quoted ("'\\'] = \"\\\\\\n'" : Text).toList = .ok (written, []) := by
  have hname : NameForm "'] = \"\\\n" ("'\\'] = \"\\\\\\n'" : Text).toList :=
    nameForm_singleQuoted "'] = \"\\\n"
  obtain ⟨hstart, -, hcrate, hplace⟩ := crate_key_read_whole.2 _ _ hname [] [' '] ['\t'] [' ']
    ['\n'] ("[];" : Text).toList _ (.single rfl) (.single rfl) (.single rfl) (.single rfl)
    (solid_cons (by decide) _) rfl
  obtain ⟨as, has⟩ := hplace.resolve_right fun ⟨_, _, hover⟩ => not_over_nil hover
  have hmem : ⟨("'\\'] = \"\\\\\\n'" : Text).toList, ("[];" : Text).toList⟩ ∈
      all ("implementors[ '\\'] = \"\\\\\\n'\t] =\n[];" : Text).toList :=
    has ▸ List.mem_append_right as (List.mem_cons_self ..)
  exact ⟨hstart, hcrate, hmem, crate_key_read_whole.1 _ _ hmem⟩

end TraitIndex.Fragment
