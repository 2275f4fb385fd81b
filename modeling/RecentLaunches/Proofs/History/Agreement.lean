/-
Histories over stores that answer alike. What a record makes of a history, and which deletion it requests,
depends on the store by its answers only; so does what is taken away by pruning.
-/
import RecentLaunches.Proofs.History.Recording

namespace RecentLaunches

variable {σ τ : Type} {S : Store σ} {T : Store τ} {s : σ} {t : τ}

/-- Two stores answer alike. -/
structure Store.Agree (S : Store σ) (T : Store τ) (s : σ) (t : τ) : Prop where
  resolve : ∀ m, S.resolve s m = T.resolve t m
  same : S.same s = T.same t

namespace Store.Agree

theorem isGone (h : Agree S T s t) (m : Memento) : S.isGone s m = T.isGone t m := by
  unfold Store.isGone
  rw [h.resolve]

theorem prune (h : Agree S T s t) (history : History) : history.prune S s = history.prune T t := by
  unfold History.prune
  simp only [h.isGone]

theorem eligible? (h : Agree S T s t) (m : Memento) (mode : Mode) :
    History.eligible? S s m mode = History.eligible? T t m mode := by
  unfold History.eligible?
  rw [h.resolve]

theorem requested? (h : Agree S T s t) (history : History) (entry : Launch) :
    History.requested? S s history entry = History.requested? T t history entry := by
  have hreleased : ∀ (after : History) (mode : Mode) (evicted : Launch),
      History.released? S s after mode evicted = History.released? T t after mode evicted := by
    intro after mode evicted
    unfold History.released?
    rw [h.same, h.resolve]
  unfold History.requested?
  rw [h.same]
  exact congrArg (Option.bind _) (funext fun evicted => hreleased _ _ evicted)

/-- A record does the same to a history over both stores. -/
theorem record (h : Agree S T s t) (history : History) (launch : Launch) :
    (History.record S s history launch).recorded = (History.record T t history launch).recorded ∧
    (History.record S s history launch).history = (History.record T t history launch).history ∧
    (History.record S s history launch).requested = (History.record T t history launch).requested := by
  rcases History.record_cases S s history launch with ⟨he, hr⟩ | ⟨c, entry, he, rfl, hr⟩
  · have hr' : History.record T t history launch = ⟨false, history, t, none⟩ := by
      rw [History.record, ← h.eligible?, he]
    rw [hr, hr']
    exact ⟨rfl, rfl, rfl⟩
  · rcases History.record_cases T t history launch with ⟨he', -⟩ | ⟨c', entry', he', rfl, hr'⟩
    · rw [← h.eligible?, he] at he'
      cases he'
    · rw [← h.eligible?, he] at he'
      cases he'
      rw [hr, hr']
      exact ⟨rfl, by rw [h.same], h.requested? _ _⟩

end Store.Agree

end RecentLaunches
