import TraitIndex.Client
import TraitIndex.Api.Routes

/-! Scenarios.

    A scenario puts a page, its server and its clients to the test. Its steps are actions, the
    attaching of a scripted consumer, and a block after which the page is closed. A scripted
    consumer has rules: called with a batch, it takes them in order, and a rule that fits and is not
    used up runs steps of its own, so it may contribute, attach, reset or close in the middle of a
    call, and may fail at the end of it.

    Every rule has a number of uses and every list is finite, so a step can only set off so much:
    `Step.weight` counts it. -/

namespace TraitIndex.Scenario

/-- An action; what is named feed is one of the feeds of the scenario. -/
inductive Action where
  | contribute (batch : Value)
  /-- A batch straight to the table, past the question whether the page is closed. -/
  | contributePast (batch : Value)
  /-- A batch is contributed through the server that serves the page. -/
  | contributeServed (batch : Value)
  /-- Something that cannot be called is attached. -/
  | attachValue
  | attachFeed (feed : Text)
  /-- A batch straight to the relay. -/
  | deliver (batch : Value)
  | reset
  | close
  | closeRelay
  | resetTable
  | get (trait : Value)
  | has (trait : Value)
  | traits
  | snapshot
  | backlog
  | hasConsumer
  | sharesRelay
  | callFeed (feed : Text) (batch : Value)
  | latest (feed : Text)
  | since (feed : Text) (seq : Value)
  | clearFeed (feed : Text)
  | request (d : Api.Draft)
  /-- A file becomes a fragment of the page. -/
  | loadFragment (path : Text) (trait : Option Value)
  /-- All batches at a path are contributed. -/
  | loadPath (path : Text)
  | clientUrl
  | client (call : Client.Call)
  /-- A file is sent as a fragment by a client. -/
  | clientLoadFragment (path : Text) (trait : Option Value)

mutual

/-- A step of a scenario. -/
inductive Step where
  | act (a : Action)
  | attach (s : Script)
  /-- Steps after which the page is closed, whether they succeed or not. -/
  | within (steps : List Step)

/-- A consumer by its name and its rules. -/
inductive Script where
  | mk (name : Text) (rules : List Rule)

/-- What a consumer does at most `times` times when it is called with a batch that lists a trait,
    or with any batch: it runs steps and then perhaps fails. -/
inductive Rule where
  | mk (trait : Option Text) (times : Nat) (steps : List Step) (raises : Bool)

end

instance : Inhabited Step := ⟨.within []⟩

instance : Inhabited Script := ⟨.mk "" []⟩

instance : Inhabited Rule := ⟨.mk none 0 [] false⟩

/-- The name under which the calls of a consumer are told. -/
def Script.name : Script → Text
  | .mk name _ => name

/-- The rules of a consumer. -/
def Script.rules : Script → List Rule
  | .mk _ rules => rules

mutual

/-- How much a step can set off. -/
def Step.weight : Step → Nat
  | .act _ => 1
  | .attach s => 1 + Script.weight s
  | .within steps => 1 + stepsWeight steps

/-- How much steps can set off. -/
def stepsWeight : List Step → Nat
  | [] => 0
  | s :: rest => Step.weight s + stepsWeight rest

/-- How much a consumer can set off. -/
def Script.weight : Script → Nat
  | .mk _ rules => rulesWeight rules

/-- How much a rule can set off: its steps as often as it can be used. -/
def Rule.weight : Rule → Nat
  | .mk _ times steps _ => times * (1 + stepsWeight steps)

/-- How much rules can set off. -/
def rulesWeight : List Rule → Nat
  | [] => 0
  | r :: rest => Rule.weight r + rulesWeight rest

end

/-- How much consumers can set off. -/
def scriptsWeight : List Script → Nat
  | [] => 0
  | s :: rest => s.weight + scriptsWeight rest

theorem scriptsWeight_append (ss ss' : List Script) :
    scriptsWeight (ss ++ ss') = scriptsWeight ss + scriptsWeight ss' := by
  induction ss with
  | nil => simp [scriptsWeight]
  | cons s rest ih =>
    simp only [List.cons_append, scriptsWeight, ih]
    omega

/-- What a used rule leaves to be done. -/
structure Firing where
  steps : List Step
  raises : Bool

/-- A rule is used on a batch: one use less, and what it does; none if it does not fit or is used
    up. -/
def Rule.use (batch : Batch) : Rule → Option (Rule × Firing)
  | .mk trait (times + 1) steps raises =>
    if trait.all batch.contains then some (.mk trait times steps raises, ⟨steps, raises⟩) else none
  | .mk _ 0 _ _ => none

/-- One of several rules, counted from zero, is used on a batch. -/
def useRule (batch : Batch) : Nat → List Rule → Option (List Rule × Firing)
  | _, [] => none
  | 0, r :: rest => (r.use batch).map fun p => (p.1 :: rest, p.2)
  | n + 1, r :: rest => (useRule batch n rest).map fun p => (r :: p.1, p.2)

/-- A rule of one of several consumers, both counted from zero, is used on a batch. -/
def fire (batch : Batch) (rule : Nat) : Nat → List Script → Option (List Script × Firing)
  | _, [] => none
  | 0, .mk name rules :: rest =>
    (useRule batch rule rules).map fun p => (.mk name p.1 :: rest, p.2)
  | n + 1, s :: rest => (fire batch rule n rest).map fun p => (s :: p.1, p.2)

/-- Using a rule costs one, and its steps weigh what it has lost besides. -/
theorem weight_use {batch : Batch} {r r' : Rule} {f : Firing} (h : r.use batch = some (r', f)) :
    r'.weight + (1 + stepsWeight f.steps) = r.weight := by
  obtain ⟨trait, times, steps, raises⟩ := r
  cases times with
  | zero => simp [Rule.use] at h
  | succ times =>
    simp only [Rule.use] at h
    split at h
    · simp only [Option.some.injEq, Prod.mk.injEq] at h
      obtain ⟨rfl, rfl⟩ := h
      simp only [Rule.weight, Nat.succ_mul]
    · simp at h

theorem weight_useRule {batch : Batch} {n : Nat} {rs rs' : List Rule} {f : Firing}
    (h : useRule batch n rs = some (rs', f)) :
    rulesWeight rs' + (1 + stepsWeight f.steps) = rulesWeight rs := by
  fun_induction useRule batch n rs generalizing rs' f with
  | case1 => simp at h
  | case2 r rest =>
    obtain ⟨⟨r', f'⟩, hu, he⟩ := Option.map_eq_some_iff.1 h
    simp only [Prod.mk.injEq] at he
    obtain ⟨rfl, rfl⟩ := he
    have := weight_use hu
    simp only [rulesWeight]
    omega
  | case3 n r rest ih =>
    obtain ⟨⟨rs', f'⟩, hu, he⟩ := Option.map_eq_some_iff.1 h
    simp only [Prod.mk.injEq] at he
    obtain ⟨rfl, rfl⟩ := he
    have := ih hu
    simp only [rulesWeight]
    omega

/-- Firing costs one, and the steps weigh what the consumer has lost besides. -/
theorem weight_fire {batch : Batch} {rule n : Nat} {ss ss' : List Script} {f : Firing}
    (h : fire batch rule n ss = some (ss', f)) :
    scriptsWeight ss' + (1 + stepsWeight f.steps) = scriptsWeight ss := by
  fun_induction fire batch rule n ss generalizing ss' f with
  | case1 => simp at h
  | case2 name rules rest =>
    obtain ⟨⟨rs', f'⟩, hu, he⟩ := Option.map_eq_some_iff.1 h
    simp only [Prod.mk.injEq] at he
    obtain ⟨rfl, rfl⟩ := he
    have := weight_useRule hu
    simp only [scriptsWeight, Script.weight]
    omega
  | case3 n s rest ih =>
    obtain ⟨⟨ss', f'⟩, hu, he⟩ := Option.map_eq_some_iff.1 h
    simp only [Prod.mk.injEq] at he
    obtain ⟨rfl, rfl⟩ := he
    have := ih hu
    simp only [scriptsWeight] at *
    omega

end TraitIndex.Scenario
