import TraitIndex.Intake
import TraitIndex.Relay

/-! Pages.

    A page owns the table of implementors and the relay to its renderer. Every contribution is
    first appended to the table, then counted, then delivered, so whoever is called with a batch
    finds it in the table. A closed page is empty, refuses contributions and consumers, and stays
    closed. -/

namespace TraitIndex

/-- The state of a page. -/
structure Page (κ : Type) where
  table : Table := .empty
  /-- How many contributions and resets there were. -/
  revision : Nat := 0
  relay : Relay κ := {}
  closed : Bool := false
  deriving DecidableEq

namespace Page

variable {κ : Type}

instance : Inhabited (Page κ) := ⟨{}⟩

/-- A batch is appended to the table. -/
def merge (p : Page κ) (b : Batch) : Page κ :=
  { p with table := p.table.merge b, revision := p.revision + 1 }

/-- A batch is appended to the table and delivered, whether the page is closed or not. -/
def accept (p : Page κ) (b : Batch) : Page κ × Option (Call κ) :=
  let merged := p.merge b
  let (relay, call) := merged.relay.deliver b
  ({ merged with relay }, call)

/-- A batch is contributed. -/
def contribute (p : Page κ) (b : Batch) : Except Fault (Page κ × Option (Call κ)) :=
  if p.closed then .error .contributionRefused else .ok (p.accept b)

/-- A consumer attaches. -/
def attach (p : Page κ) (c : κ) : Except Fault (Page κ × Option (Call κ)) :=
  if p.closed then .error .attachmentRefused
  else
    let (relay, call) := p.relay.attach c
    .ok ({ p with relay }, call)

/-- A call has ended. -/
def finish (p : Page κ) (call : Call κ) : Page κ × Option (Call κ) :=
  let (relay, next) := p.relay.finish call
  ({ p with relay }, next)

/-- The table alone starts over. -/
def clearTable (p : Page κ) : Page κ := { p with table := .empty, revision := p.revision + 1 }

/-- Table and relay start over; the page stays open or closed. -/
def reset (p : Page κ) : Page κ :=
  let cleared := p.clearTable
  { cleared with relay := cleared.relay.close }

/-- The page closes, for good. -/
def close (p : Page κ) : Page κ := if p.closed then p else { p.reset with closed := true }

/-! ### The backlog -/

/-- An accepted batch joins the backlog or starts a call. -/
theorem backlog_accept (p : Page κ) (b : Batch) :
    (p.accept b).1.relay.backlog.length + ((p.accept b).2.map fun _ => 1).getD 0 =
      p.relay.backlog.length + 1 := by
  by_cases hf : p.relay.flushing = true <;> cases hc : p.relay.consumer <;>
    simp [Page.accept, Page.merge, Relay.deliver, hc, hf]

/-- A call that follows a call comes out of the backlog; if none follows, the backlog is as it
    was. -/
theorem backlog_finish (p : Page κ) (call : Call κ) :
    (p.finish call).1.relay.backlog.length + ((p.finish call).2.map fun _ => 1).getD 0 =
      p.relay.backlog.length := by
  simp only [Page.finish, Relay.finish, Relay.flushNext]
  split
  · split
    · rename_i h
      simp [h]
    · simp
  · simp

/-- Closing a page leaves no more in the backlog than there was. -/
theorem backlog_close_le (p : Page κ) :
    p.close.relay.backlog.length ≤ p.relay.backlog.length := by
  unfold Page.close
  split
  · exact Nat.le_refl _
  · exact Nat.zero_le _

end Page
end TraitIndex
