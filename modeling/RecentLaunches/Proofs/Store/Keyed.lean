/-
Stores that keep every configuration under its own memento: only there it is found, mementos are
compared as texts, and deleting a configuration leaves what is found under other mementos. A database
is such a store.
-/
import RecentLaunches.Proofs.Database.Lookup

namespace RecentLaunches

namespace Store

variable {σ : Type} {S : Store σ} {s : σ} {m : Memento}

theorem isGone_eq_true_iff : S.isGone s m = true ↔ S.resolve s m = .ok none := by
  unfold isGone
  split
  · rename_i h
    simp [h]
  · rename_i h
    exact ⟨(fun h => by cases h), fun h' => absurd h' h⟩

theorem isGone_eq_false_iff : S.isGone s m = false ↔ S.resolve s m ≠ .ok none := by
  rw [← Bool.not_eq_true, isGone_eq_true_iff]

/-- Whether it is known to be gone depends on the answer to the look-up only. -/
theorem isGone_congr {s' : σ} (h : S.resolve s' m = S.resolve s m) : S.isGone s' m = S.isGone s m := by
  unfold isGone
  rw [h]

/-- A store that keeps every configuration under its own memento, and no other. -/
structure Keyed (S : Store σ) : Prop where
  /-- A configuration is found under its memento only. -/
  memento_of_resolve : ∀ {s m c}, S.resolve s m = .ok (some c) → c.memento = m
  /-- Different mementos have different content. -/
  same_iff : ∀ s a b, S.same s a b = true ↔ a = b
  /-- Deleting takes away what is found under one memento. -/
  resolve_delete : ∀ {s c m}, m ≠ c.memento → S.resolve (S.delete s c).2 m = S.resolve s m

/-- Such a store that also deletes every configuration that is found. -/
structure Obedient (S : Store σ) : Prop extends Keyed S where
  resolve_delete_self : ∀ {s c}, S.resolve s c.memento = .ok (some c) →
    S.resolve (S.delete s c).2 c.memento = .ok none

/-- Whether nothing is found under the empty memento. -/
def IsNamed (S : Store σ) (s : σ) : Prop :=
  ∀ c, S.resolve s "" ≠ .ok (some c)

end Store

namespace Database

theorem keyed_store : store.Keyed where
  memento_of_resolve := by
    intro d m c h
    change (d.get m).mapError Fault.database = .ok (some c) at h
    rcases hg : d.get m with e | o <;> rw [hg] at h <;> cases h
    exact memento_of_get hg
  same_iff := fun _ a b => beq_iff_eq
  resolve_delete := by
    intro d c m hne
    show ((store.delete d c).2.get m).mapError _ = (d.get m).mapError _
    simp only [store]
    rcases hd : d.delete c.memento with e | ⟨b, d'⟩
    · rfl
    · show (d'.get m).mapError _ = _
      rw [get_delete_of_ne hd hne]

theorem obedient_store : store.Obedient where
  toKeyed := keyed_store
  resolve_delete_self := by
    intro d c h
    change (d.get c.memento).mapError Fault.database = .ok (some c) at h
    have hc : d.get c.memento = .ok (some c) := by
      rcases hg : d.get c.memento with e | o <;> rw [hg] at h <;> cases h
      rfl
    obtain ⟨b, d', hd, hnone⟩ := exists_delete_of_get hc
    show ((store.delete d c).2.get c.memento).mapError _ = _
    simp only [store, hd]
    rw [hnone]
    rfl

/-- A launch is known to be gone exactly if the table has no row for it. -/
theorem isGone_eq_false_iff {d : Database} {m : Memento} :
    store.isGone d m = false ↔ d.get m ≠ .ok none := by
  rw [Store.isGone_eq_false_iff]
  show (d.get m).mapError Fault.database ≠ _ ↔ _
  rcases d.get m with e | o <;> simp [Except.mapError]

theorem isNamed_iff {d : Database} : store.IsNamed d ↔ ∀ c, d.get "" ≠ .ok (some c) := by
  refine forall_congr' fun c => ?_
  show (d.get "").mapError Fault.database ≠ _ ↔ _
  rcases d.get "" with e | o <;> simp [Except.mapError]

end Database

end RecentLaunches
