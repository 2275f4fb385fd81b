/-
A store with a history that speaks of it. A record and a removal keep two things of such a book: that
the lists keep their rules and no launch stands for a configuration that is gone, and that no launch and
no configuration has the empty memento. For a database this holds through everything that can happen to
it, in any order: configurations are saved and renamed too, and where one is deleted the history follows.
-/
import RecentLaunches.Proofs.Document.RoundTrip
import RecentLaunches.Proofs.History.Recording

namespace RecentLaunches

/-- A store of configurations and a history that speaks of it. -/
structure Book (σ : Type) where
  store : σ
  history : History

/-- What happens to a database and its history. -/
inductive Change
  | record (launch : Launch)
  | removeEntry (entry : Launch)
  | removeConfiguration (memento : Memento)
  | prune
  | save (c : Configuration)
  | rename (memento : Memento) (name : String)
  | delete (memento : Memento)

namespace Book

section

variable {σ : Type} {S : Store σ} {b : Book σ}

/-- A launch is recorded. -/
def record (S : Store σ) (b : Book σ) (launch : Launch) : Book σ :=
  ⟨(b.history.record S b.store launch).store, (b.history.record S b.store launch).history⟩

/-- Launches are forgotten. -/
def drop (b : Book σ) (gone : Launch → Bool) : Book σ :=
  { b with history := b.history.drop gone }

/-! ## What a record and a removal keep -/

/-- The rules are kept and no launch is gone from the store. -/
structure IsKept (S : Store σ) (b : Book σ) : Prop where
  wf : b.history.WF
  backed : b.history.IsBacked S b.store

theorem IsKept.record (hS : S.Keyed) (hk : b.IsKept S) (launch : Launch) : (b.record S launch).IsKept S :=
  ⟨hk.wf.record hS launch, hk.backed.record hS hk.wf launch⟩

theorem IsKept.drop (hk : b.IsKept S) (gone : Launch → Bool) : (b.drop gone).IsKept S :=
  ⟨hk.wf.drop gone, hk.backed.drop gone⟩

/-- Neither a launch nor a configuration has the empty memento. -/
structure IsNamed (S : Store σ) (b : Book σ) : Prop where
  history : b.history.IsNamed
  store : S.IsNamed b.store

theorem IsNamed.record (hS : S.Keyed) (hn : b.IsNamed S) (launch : Launch) : (b.record S launch).IsNamed S :=
  ⟨hn.history.record hS hn.store launch, History.isNamed_record hS hn.store _ _⟩

theorem IsNamed.drop (hn : b.IsNamed S) (gone : Launch → Bool) : (b.drop gone).IsNamed S :=
  ⟨fun e he => hn.history e (History.mem_launches_drop.1 he).1, hn.store⟩

end

/-! ## Changes of a database -/

/-- The database after a statement. One that fails changes nothing. -/
def after {α : Type} (d : Database) (changed : Except DatabaseFault (α × Database)) : Database :=
  match changed with
  | .ok (_, d') => d'
  | .error _ => d

/-- What a change leads to. The history forgets a configuration as soon as it is deleted. -/
def change (b : Book Database) : Change → Book Database
  | .record launch => b.record Database.store launch
  | .removeEntry entry => { b with history := b.history.removeEntry entry }
  | .removeConfiguration m => { b with history := b.history.removeConfiguration m }
  | .prune => { b with history := b.history.prune Database.store b.store }
  | .save c => { b with store := after b.store ((b.store.save c).map ((), ·)) }
  | .rename m name => { b with store := after b.store (b.store.rename m name) }
  | .delete m => ⟨after b.store (b.store.delete m), b.history.removeConfiguration m⟩

/-- What some changes lead to, one after the other. -/
def run (b : Book Database) (changes : List Change) : Book Database :=
  changes.foldl change b

variable {d : Database} {m : Memento} {b : Book Database}

theorem get_after_delete_of_ne {k : Memento} (hne : m ≠ k) : (after d (d.delete k)).get m = d.get m := by
  rcases hd : d.delete k with e | ⟨b, d'⟩
  · rfl
  · exact Database.get_delete_of_ne hd hne

theorem get_after_rename (d : Database) (k : Memento) (name : String) (m : Memento) :
    ∃ f : Configuration → Configuration,
      (after d (d.rename k name)).get m = (d.get m).map (Option.map f) := by
  rcases hr : d.rename k name with e | ⟨b, d'⟩
  · refine ⟨id, ?_⟩
    show d.get m = _
    rcases d.get m with e | _ | c <;> rfl
  · exact ⟨_, Database.get_rename hr m⟩

theorem get_after_save (d : Database) (c : Configuration) (m : Memento) :
    (after d ((d.save c).map ((), ·))).get m = d.get m ∨
      (m = c.memento ∧
        (after d ((d.save c).map ((), ·))).get m = (Row.ofConfiguration c).decode.map some) := by
  rcases hs : d.save c with e | d'
  · exact .inl rfl
  · by_cases hm : m = c.memento
    · rw [hm]
      exact .inr ⟨rfl, Database.get_save_self hs⟩
    · exact .inl (Database.get_save_of_ne hs hm)

/-- A renaming takes no configuration away. -/
theorem get_after_rename_ne_none (k : Memento) (name : String) (h : d.get m ≠ .ok none) :
    (after d (d.rename k name)).get m ≠ .ok none := by
  obtain ⟨f, hf⟩ := get_after_rename d k name m
  rw [hf]
  rcases hg : d.get m with e | _ | c
  · intro hc; cases hc
  · exact absurd hg h
  · intro hc; cases hc

/-- Saving takes no configuration away. -/
theorem get_after_save_ne_none (c : Configuration) (h : d.get m ≠ .ok none) :
    (after d ((d.save c).map ((), ·))).get m ≠ .ok none := by
  rcases get_after_save d c m with hs | ⟨-, hs⟩ <;> rw [hs]
  · exact h
  · rcases (Row.ofConfiguration c).decode with e | c' <;> intro hc <;> cases hc

/-! ## No launch dangles -/

/-- A history stays backed when the database changes under it and loses none of its configurations. -/
theorem isBacked_of_get {h : History} {d' : Database} (hb : h.IsBacked Database.store d)
    (hg : ∀ e ∈ h.launches, d.get e.memento ≠ .ok none → d'.get e.memento ≠ .ok none) :
    h.IsBacked Database.store d' := by
  intro e he
  rw [Database.isGone_eq_false_iff]
  exact hg e he (Database.isGone_eq_false_iff.1 (hb e he))

theorem IsKept.change (hk : b.IsKept Database.store) (x : Change) :
    (b.change x).IsKept Database.store := by
  cases x with
  | record launch => exact hk.record Database.keyed_store launch
  | removeEntry entry => exact hk.drop _
  | removeConfiguration m => exact hk.drop _
  | prune => exact hk.drop _
  | save c => exact ⟨hk.wf, isBacked_of_get hk.backed fun e _ he => get_after_save_ne_none c he⟩
  | rename m name =>
    exact ⟨hk.wf, isBacked_of_get hk.backed fun e _ he => get_after_rename_ne_none m name he⟩
  | delete m =>
    have hdrop := hk.drop (·.memento == m)
    refine ⟨hdrop.wf, isBacked_of_get hdrop.backed fun e he hg => ?_⟩
    -- the launches that are left have other mementos
    have hne : e.memento ≠ m := by
      have := (History.mem_launches_drop.1 he).2
      simpa using this
    show (after b.store (b.store.delete m)).get e.memento ≠ _
    rw [get_after_delete_of_ne hne]
    exact hg

theorem IsKept.run (hk : b.IsKept Database.store) (changes : List Change) :
    (b.run changes).IsKept Database.store := by
  induction changes generalizing b with
  | nil => exact hk
  | cons x changes ih => exact ih (hk.change x)

theorem IsKept.empty (d : Database) : (Book.mk d .empty).IsKept Database.store :=
  ⟨.empty, .empty _ _⟩

/-- The history that a program begins with: the empty one, or what an accepted document is restored as
less the launches whose configuration is gone. -/
def Begins (d : Database) (h : History) : Prop :=
  h = .empty ∨ ∃ document restored, Document.restore document = .restored restored ∧
    h = restored.prune Database.store d

theorem Begins.isKept {h : History} (hb : Begins d h) : (Book.mk d h).IsKept Database.store := by
  rcases hb with rfl | ⟨document, restored, hr, rfl⟩
  · exact .empty d
  · have hs := Document.sound_of_read (Document.restore_eq_restored_iff.1 hr)
    exact ⟨hs.wf.drop _, History.isBacked_prune _ _ _⟩

/-- No launch ever dangles. After any changes in any order no launch of the lists, nor the latest one,
stands for a configuration that is gone. A configuration whose deletion a further record requests is
that of no launch which is left. -/
theorem resolve_ne_none_of_run {h : History} (hb : Begins d h) (changes : List Change) :
    let b := (Book.mk d h).run changes
    (∀ e ∈ b.history.launches, Database.store.resolve b.store e.memento ≠ .ok none) ∧
    ∀ launch c, (History.record Database.store b.store b.history launch).requested = some c →
      ∀ e ∈ (History.record Database.store b.store b.history launch).history.launches,
        e.memento ≠ c.memento := by
  have hk := hb.isKept.run changes
  constructor
  · intro e he
    exact Store.isGone_eq_false_iff.1 (hk.backed e he)
  · intro launch c hc e he
    exact History.ne_of_requested Database.keyed_store hk.wf hc he

/-- A configuration that goes with its last launch. -/
def passing (m : Memento) : Configuration :=
  ⟨m, m, [.run], false, true, ⟨⟨2024, 1, 1, by decide⟩, ⟨0, 0, 0, 0, by decide⟩⟩⟩

/-- More launches of such configurations than a list can hold. -/
def crowd : List Change :=
  ["a", "b", "c", "d", "e", "f"].flatMap fun m => [.save (passing m), .record ⟨m, .run, m⟩]

/-- The first one is gone, and no launch that is left stands for it. -/
theorem resolve_ne_none_of_crowd :
    ((Book.mk .fresh .empty).run crowd).store.get "a" = .ok none ∧
    ((Book.mk .fresh .empty).run crowd).history.launches.map (·.memento) = ["f", "e", "d", "c", "b", "f"] ∧
    ∀ e ∈ ((Book.mk .fresh .empty).run crowd).history.launches,
      Database.store.resolve ((Book.mk .fresh .empty).run crowd).store e.memento ≠ .ok none :=
  ⟨by decide +kernel, by decide +kernel, (resolve_ne_none_of_run (.inl rfl) crowd).1⟩

end Book

end RecentLaunches
