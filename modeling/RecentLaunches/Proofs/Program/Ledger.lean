/-
What the program does, told without files. A map of configurations and a history take commands one after the
other; nothing is opened, read back, pruned or saved between them.
-/
import RecentLaunches.Proofs.Database.Registry
import RecentLaunches.Proofs.Service.Settling
import RecentLaunches.Program

namespace RecentLaunches

/-! ## Commands -/

namespace Book

/-- The lines that show the list of a mode. -/
def listing (b : Book Registry) (mode : Mode) : List String :=
  (mode.name ++ ":") :: Session.entryLines (b.history.list mode)

/-- The line that shows the latest launch. -/
def latestLine (b : Book Registry) : String :=
  match b.history.latest with
  | some e => e.label ++ " (" ++ e.memento ++ ", " ++ e.mode.name ++ ")"
  | none => "No launches yet"

/-- The label that a launch is recorded with: the given one, or the name that the configuration has now, or
the memento where there is none. -/
def labelFor (b : Book Registry) (memento : Memento) (label : Option String) : String :=
  label.getD (((b.store.find memento).map (·.name)).getD memento)

/-- Carries out a command. A configuration is registered with the moment that its text stands for. Nothing is said
here about the list of all configurations. -/
def obey (now : Timestamp) (b : Book Registry) : Command → Done × Book Registry
  | .add memento name modes isPrivate isTransient =>
    ({ printed := ["Added " ++ name ++ " (" ++ memento ++ ")"] },
      { b with store := b.store.insert (Configuration.canonical ⟨memento, name, modes, isPrivate, isTransient, now⟩) })
  | .rename memento name =>
    match b.store.find memento with
    | none => (Session.failed (.notFound memento), b)
    | some _ =>
      ({ printed := ["Renamed " ++ memento ++ " to " ++ name] },
        { b with store := b.store.rename memento name })
  | .remove memento =>
    match b.store.find memento with
    | none => (Session.failed (.notFound memento), b)
    | some _ =>
      ({ printed := ["Removed " ++ memento] },
        ⟨b.store.erase memento, b.history.removeConfiguration memento⟩)
  | .record memento mode label =>
    let r := History.record Registry.store b.store b.history ⟨memento, mode, b.labelFor memento label⟩
    ({ printed := [(if r.recorded then "Recorded " else "Ignored ") ++ mode.name ++ " launch of " ++ memento] },
      ⟨r.store, r.history⟩)
  | .list none => ({ printed := [.run, .debug].flatMap b.listing }, b)
  | .list (some mode) => ({ printed := b.listing mode }, b)
  | .last => ({ printed := [b.latestLine] }, b)
  | .configs => ({}, b)

/-! ## Sequences of commands -/

/-- Nothing was registered or launched yet. -/
def unused : Book Registry :=
  ⟨.empty, .empty⟩

/-- What is shown of some commands, one after the other, and the book after them. -/
def obeyAll (w : Wording) : Book Registry → List (Timestamp × Command) → List Outcome × Book Registry
  | b, [] => ([], b)
  | b, (now, c) :: rest =>
    (Program.shown w (b.obey now c).1 :: (obeyAll w (b.obey now c).2 rest).1, (obeyAll w (b.obey now c).2 rest).2)

end Book

/-! ## What is kept -/

/-- Whether a command gives a name to a configuration. -/
def Command.names : Command → Bool
  | add .. | rename .. => true
  | _ => false

namespace Book

variable {b : Book Registry} {now : Timestamp}

/-- Names have no part in the history. -/
theorem history_obey_of_names (now : Timestamp) (b : Book Registry) {c : Command} (hc : c.names = true) :
    (b.obey now c).2.history = b.history := by
  cases c with
  | add memento name modes isPrivate isTransient => rfl
  | rename memento name =>
    simp only [obey]
    rcases b.store.find memento with _ | c <;> rfl
  | _ => cases hc

theorem isBacked_registry {r : Registry} {h : History} :
    h.IsBacked Registry.store r ↔ ∀ e ∈ h.launches, r.find e.memento ≠ none := by
  refine forall₂_congr fun e _ => ?_
  rw [Registry.isGone_store, Option.isNone_eq_false_iff, Option.isSome_iff_ne_none]

theorem isNamed_registry {r : Registry} : Registry.store.IsNamed r ↔ r.find "" = none := by
  constructor
  · intro h
    rcases hf : r.find "" with _ | c
    · rfl
    · exact absurd (congrArg Except.ok hf) (h c)
  · intro h c hc
    rw [show Registry.store.resolve r "" = .ok (r.find "") from rfl, h] at hc
    cases hc

/-- A launch that has a configuration has one whichever is put into its place. -/
theorem IsKept.insert (hk : b.IsKept Registry.store) (c : Configuration) :
    (Book.mk (b.store.insert c) b.history).IsKept Registry.store := by
  refine ⟨hk.wf, isBacked_registry.2 fun e he => ?_⟩
  by_cases hm : e.memento = c.memento
  · show (b.store.insert c).find e.memento ≠ none
    rw [hm, Registry.find_insert_self]
    exact Option.some_ne_none c
  · show (b.store.insert c).find e.memento ≠ none
    rw [Registry.find_insert_of_ne hm]
    exact isBacked_registry.1 hk.backed e he

theorem IsKept.rename (hk : b.IsKept Registry.store) (m : Memento) (name : String) :
    (Book.mk (b.store.rename m name) b.history).IsKept Registry.store :=
  ⟨hk.wf, isBacked_registry.2 fun e he =>
    Registry.find_rename_eq_none_iff.not.2 (isBacked_registry.1 hk.backed e he)⟩

theorem IsNamed.rename (hn : b.IsNamed Registry.store) (m : Memento) (name : String) :
    (Book.mk (b.store.rename m name) b.history).IsNamed Registry.store :=
  ⟨hn.history, isNamed_registry.2 (Registry.find_rename_eq_none_iff.2 (isNamed_registry.1 hn.store))⟩

theorem IsNamed.insert (hn : b.IsNamed Registry.store) {c : Configuration} (hc : c.memento ≠ "") :
    (Book.mk (b.store.insert c) b.history).IsNamed Registry.store := by
  refine ⟨hn.history, isNamed_registry.2 ?_⟩
  show (b.store.insert c).find "" = none
  rw [Registry.find_insert_of_ne hc.symm]
  exact isNamed_registry.1 hn.store

/-- Where a configuration is taken away, pruning finds the launches of that configuration and no others. -/
theorem IsKept.prune_erase (hk : b.IsKept Registry.store) (m : Memento) :
    b.history.prune Registry.store (b.store.erase m) = b.history.removeConfiguration m := by
  refine History.drop_congr fun e he => ?_
  rw [Registry.isGone_store]
  by_cases hm : e.memento = m
  · rw [hm, Registry.find_erase_self, beq_self_eq_true]
    rfl
  · rw [Registry.find_erase_of_ne hm, beq_eq_false_iff_ne.2 hm, Option.isNone_eq_false_iff,
      Option.isSome_iff_ne_none]
    exact isBacked_registry.1 hk.backed e he

theorem IsNamed.erase (hn : b.IsNamed Registry.store) (m : Memento) : Registry.store.IsNamed (b.store.erase m) := by
  rw [isNamed_registry]
  show (if "" = m then none else b.store.find "") = none
  split_ifs
  · rfl
  · exact isNamed_registry.1 hn.store

end Book

end RecentLaunches
