/-
What the history asks of the place where configurations are kept. A store is a way of answering
requests over some state; only deleting changes the state.
-/
import RecentLaunches.Configuration
import RecentLaunches.Fault

namespace RecentLaunches

/-- A store of configurations with states `σ`. -/
structure Store (σ : Type) where
  /-- The configuration of a memento, none if it is gone. -/
  resolve : σ → Memento → Except Fault (Option Configuration)
  /-- Deletes a configuration. A failed request may change the state too. -/
  delete : σ → Configuration → Except Fault Unit × σ
  /-- Whether two mementos stand for the same content. -/
  same : σ → Memento → Memento → Bool := fun _ a b => a == b

namespace Store

/-- Whether a memento is known to have no configuration. A failed look-up says nothing. -/
def isGone {σ : Type} (S : Store σ) (s : σ) (m : Memento) : Bool :=
  match S.resolve s m with
  | .ok none => true
  | _ => false

end Store

end RecentLaunches
