/-
The launch history: a list of recent launches per mode and the latest launch of either mode. It
holds mementos only; what they stand for is asked of a store.
-/
import RecentLaunches.Store
import RecentLaunches.Violation

namespace RecentLaunches

/-- The recent launches of both modes and the latest launch. -/
structure History where
  run : Recent := []
  debug : Recent := []
  latest : Option Launch := none
  deriving DecidableEq, Repr

namespace History

/-- The history of a program that was never used. -/
def empty : History := {}

/-- The list of a mode. -/
def list (h : History) : Mode → Recent
  | .run => h.run
  | .debug => h.debug

/-- The history with another list for a mode. -/
def withList (h : History) (m : Mode) (l : Recent) : History :=
  match m with
  | .run => { h with run := l }
  | .debug => { h with debug := l }

/-- Whether nothing at all is remembered. -/
def isEmpty (h : History) : Bool :=
  h.run.isEmpty && h.debug.isEmpty && h.latest.isNone

/-- The first breach of the rules by one of the lists. -/
def violation? (h : History) : Option Violation :=
  Mode.all.findSome? fun m => Recent.violation? m (h.list m)

/-- The rules: those of each list. -/
def WF (h : History) : Prop :=
  ∀ m, Recent.WF m (h.list m)

@[simp] theorem list_withList_self (h : History) (m : Mode) (l : Recent) :
    (h.withList m l).list m = l := by
  cases m <;> rfl

@[simp] theorem latest_withList (h : History) (m : Mode) (l : Recent) :
    (h.withList m l).latest = h.latest := by
  cases m <;> rfl

/-! ## Recording a launch -/

section

variable {σ : Type} (S : Store σ)

/-- The configuration that a launch is remembered for: it resolves, is not private and can be
launched under the mode. -/
def eligible? (s : σ) (m : Memento) (mode : Mode) : Option Configuration :=
  match S.resolve s m with
  | .ok (some c) => if !c.isPrivate && c.supports mode then some c else none
  | _ => none

/-- The configuration that goes with an entry evicted from the list of a mode: a transient one that
the list of the other mode does not remember. -/
def released? (s : σ) (h : History) (mode : Mode) (evicted : Launch) : Option Configuration :=
  if Recent.remembers (S.same s) evicted.memento (h.list mode.other) then none
  else
    match S.resolve s evicted.memento with
    | .ok (some c) => if c.isTransient then some c else none
    | _ => none

/-- What a launch leads to: whether it is remembered, the history and the store after it, and the
configuration whose deletion was requested. -/
structure Recording (σ : Type) where
  recorded : Bool
  history : History
  store : σ
  requested : Option Configuration

/-- Remembers a launch. The configuration's own memento is kept, whatever memento it was launched
by. A configuration released by the eviction is deleted as far as the store allows. -/
def record (s : σ) (h : History) (launch : Launch) : Recording σ :=
  match eligible? S s launch.memento launch.mode with
  | none => ⟨false, h, s, none⟩
  | some c =>
    let entry : Launch := { launch with memento := c.memento }
    let promoted := Recent.promote (S.same s) entry (h.list launch.mode)
    let after := { h.withList launch.mode promoted.launches with latest := some entry }
    -- the evicted entry is judged by the lists as they are without it
    let request := promoted.evicted.bind (released? S s after launch.mode)
    let left :=
      match request with
      | some gone => (S.delete s gone).2
      | none => s
    ⟨true, after, left, request⟩

end

/-- The answer to a launch. A remembered launch is followed by a look at the rules; a breach takes
the place of the answer, with every change already made. -/
def Recording.verdict {σ : Type} (r : Recording σ) : Except Violation Bool :=
  if r.recorded then
    match r.history.violation? with
    | some v => .error v
    | none => .ok true
  else .ok false

/-! ## Removing -/

/-- The latest launch unless it passes a test. -/
def keepLatest (h : History) (gone : Launch → Bool) : Option Launch :=
  h.latest.filter (!gone ·)

/-- The history without the launches that pass a test. -/
def drop (h : History) (gone : Launch → Bool) : History :=
  ⟨h.run.filter (!gone ·), h.debug.filter (!gone ·), h.keepLatest gone⟩

/-- The list entries that pass a test. -/
def countDropped (h : History) (gone : Launch → Bool) : Nat :=
  h.run.countP gone + h.debug.countP gone

/-- Removes one launch, matched in every part. A launch that only the latest-launch pointer holds is
removed there alone. -/
def removeEntry (h : History) (e : Launch) : History :=
  h.drop (· == e)

/-- Forgets the launches of a deleted configuration. -/
def removeConfiguration (h : History) (m : Memento) : History :=
  h.drop (·.memento == m)

/-- The list entries that forgetting a configuration takes away. -/
def countConfiguration (h : History) (m : Memento) : Nat :=
  h.countDropped (·.memento == m)

/-- Forgets the launches whose configuration is gone from the store. -/
def prune {σ : Type} (S : Store σ) (s : σ) (h : History) : History :=
  h.drop fun e => S.isGone s e.memento

/-- The list entries that pruning takes away. -/
def countGone {σ : Type} (S : Store σ) (s : σ) (h : History) : Nat :=
  h.countDropped fun e => S.isGone s e.memento

end History

end RecentLaunches
