/-
The three removals: of one launch in every part, of the launches of a configuration, and of the launches whose
configuration is gone. Each is a filter, of the lists and of the latest launch, by a test that looks at one launch at a
time. So a removal is repeated without any effect, two of them can change places, the entries that they report are those
that are missing afterwards, and the store is only asked what it has.
-/
import RecentLaunches.Proofs.History.Contents
import RecentLaunches.Proofs.History.Requests

namespace RecentLaunches

/-! ## Histories as filters -/

namespace History

/-- The entries of both lists. -/
def size (h : History) : Nat :=
  h.run.length + h.debug.length

theorem size_drop_add (h : History) (gone : Launch → Bool) : (h.drop gone).size + h.countDropped gone = h.size := by
  have hlist : ∀ l : Recent, (l.filter (!gone ·)).length + l.countP gone = l.length := by
    intro l
    rw [← List.countP_eq_length_filter, List.length_eq_countP_add_countP gone, add_comm]
    simp
  have hrun := hlist h.run
  have hdebug := hlist h.debug
  unfold size countDropped drop
  simp only
  omega

/-- Nothing is left for the same removal. -/
theorem countDropped_drop (h : History) (gone : Launch → Bool) : (h.drop gone).countDropped gone = 0 := by
  have hsize := size_drop_add (h.drop gone) gone
  rw [drop_drop] at hsize
  omega

theorem drop_comm (h : History) (gone gone' : Launch → Bool) :
    (h.drop gone).drop gone' = (h.drop gone').drop gone := by
  unfold drop keepLatest
  simp only [List.filter_comm (!gone' ·) (!gone ·), History.mk.injEq, true_and]
  rcases h.latest with _ | e
  · rfl
  · rcases hg : gone e with _ | _ <;> rcases hg' : gone' e with _ | _ <;> simp [Option.filter, hg, hg']

end History

/-- What is taken out of a history. -/
inductive Removal
  | launch (e : Launch)
  | configuration (m : Memento)
  | missing
  deriving DecidableEq, Repr

namespace Removal

variable {σ : Type}

/-- What a removal is about: one launch in every part, the launches of a configuration, or those whose configuration
is known to be gone. -/
def Matches (S : Store σ) (s : σ) : Removal → Launch → Prop
  | launch x, e => e = x
  | configuration m, e => e.memento = m
  | missing, e => S.resolve s e.memento = .ok none

/-- The test by which a removal takes launches away. -/
def test (S : Store σ) (s : σ) : Removal → Launch → Bool
  | launch x, e => e == x
  | configuration m, e => e.memento == m
  | missing, e => S.isGone s e.memento

theorem test_eq_true_iff {S : Store σ} {s : σ} {r : Removal} {e : Launch} :
    r.test S s e = true ↔ r.Matches S s e := by
  cases r with
  | launch x => exact beq_iff_eq
  | configuration m => exact beq_iff_eq
  | missing => exact Store.isGone_eq_true_iff

instance (S : Store σ) (s : σ) (r : Removal) (e : Launch) : Decidable (r.Matches S s e) :=
  decidable_of_iff _ test_eq_true_iff

theorem test_eq_decide (S : Store σ) (s : σ) (r : Removal) (e : Launch) : r.test S s e = decide (r.Matches S s e) := by
  rw [Bool.eq_iff_iff, test_eq_true_iff, decide_eq_true_iff]

/-- The history after a removal. -/
def perform (S : Store σ) (s : σ) (h : History) : Removal → History
  | launch e => h.removeEntry e
  | configuration m => h.removeConfiguration m
  | missing => h.prune S s

/-- The entries that a removal reports, if it does. -/
def count? (S : Store σ) (s : σ) (h : History) : Removal → Option Nat
  | launch _ => none
  | configuration m => some (h.countConfiguration m)
  | missing => some (h.countGone S s)

/-- A removal as it happens to a history beside a store. -/
def episode : Removal → Episode σ
  | launch e => .removeEntry e
  | configuration m => .removeConfiguration m
  | missing => .prune

section

variable (S : Store σ) (s : σ) (h : History) (r r' : Removal)

theorem perform_eq_drop : r.perform S s h = h.drop (r.test S s) := by
  cases r <;> rfl

theorem list_perform (m : Mode) : (r.perform S s h).list m = (h.list m).filter fun e => ¬r.Matches S s e := by
  rw [perform_eq_drop, History.list_drop]
  refine List.filter_congr fun e _ => ?_
  rw [decide_not, test_eq_decide]

theorem latest_perform {e : Launch} :
    (r.perform S s h).latest = some e ↔ h.latest = some e ∧ ¬r.Matches S s e := by
  rw [perform_eq_drop, History.latest_drop, Option.filter_eq_some_iff, Bool.not_eq_true', ← Bool.not_eq_true,
    test_eq_true_iff]

theorem perform_perform : r.perform S s (r.perform S s h) = r.perform S s h := by
  simp only [perform_eq_drop, History.drop_drop]

theorem perform_comm : r'.perform S s (r.perform S s h) = r.perform S s (r'.perform S s h) := by
  simp only [perform_eq_drop, History.drop_comm h (r.test S s)]

theorem size_perform_add {n : Nat} (hn : r.count? S s h = some n) : (r.perform S s h).size + n = h.size := by
  have hdropped : n = h.countDropped (r.test S s) := by
    cases r <;> cases hn <;> rfl
  rw [perform_eq_drop, hdropped, History.size_drop_add]

theorem count?_perform : r.count? S s (r.perform S s h) = (r.count? S s h).map fun _ => 0 := by
  have hnone := h.countDropped_drop (r.test S s)
  rw [perform_eq_drop]
  cases r with
  | launch x => rfl
  | configuration m => exact congrArg some hnone
  | missing => exact congrArg some hnone

/-- A store that notes what it is asked to delete has nothing to note. -/
theorem episode_noting (notes : List Configuration) :
    Book.episode S.noting ⟨(s, notes), h⟩ r.episode = ⟨(s, notes), r.perform S s h⟩ := by
  cases r <;> rfl

end

/-- The removals are filters that commute. Each takes from both lists exactly the entries that it is about and leaves the
others in their order, and it clears the latest launch exactly if it is about that. Repeated it changes nothing and
reports none; any two can change places; the store is asked for no deletion; the rules of the lists stay; and what is
reported are the entries that are missing afterwards, so that forgetting a configuration and pruning report as many
together in either order. -/
theorem perform_filters {σ : Type} (S : Store σ) (s : σ) (h : History) (r r' : Removal) :
    (∀ m, (r.perform S s h).list m = (h.list m).filter fun e => ¬r.Matches S s e) ∧
    (∀ e, (r.perform S s h).latest = some e ↔ h.latest = some e ∧ ¬r.Matches S s e) ∧
    r.perform S s (r.perform S s h) = r.perform S s h ∧
    r.count? S s (r.perform S s h) = (r.count? S s h).map (fun _ => 0) ∧
    r'.perform S s (r.perform S s h) = r.perform S s (r'.perform S s h) ∧
    (∀ notes, Book.episode S.noting ⟨(s, notes), h⟩ r.episode = ⟨(s, notes), r.perform S s h⟩) ∧
    (h.WF → (r.perform S s h).WF) ∧
    (∀ n, r.count? S s h = some n → (r.perform S s h).size + n = h.size) ∧
    ∀ m, h.countConfiguration m + (h.removeConfiguration m).countGone S s =
      h.countGone S s + (h.prune S s).countConfiguration m := by
  refine ⟨r.list_perform S s h, fun e => r.latest_perform S s h, r.perform_perform S s h, r.count?_perform S s h,
    perform_comm S s h r r', r.episode_noting S s h, fun hw => ?_, fun n => r.size_perform_add S s h, fun m => ?_⟩
  · rw [perform_eq_drop]
    exact hw.drop _
  · -- both ways lead from one history to one history
    have hfirst := size_perform_add S s h (.configuration m) rfl
    have hthen := size_perform_add S s (h.removeConfiguration m) .missing rfl
    have hfirst' := size_perform_add S s h .missing rfl
    have hthen' := size_perform_add S s (h.prune S s) (.configuration m) rfl
    have hsame := congrArg History.size (perform_comm S s h (.configuration m) .missing)
    simp only [perform] at hfirst hthen hfirst' hthen' hsame
    omega

/-- A shelf with one configuration, and another one that cannot be looked up. -/
def thinned : Shelf where
  configurations := [Book.passing "b"]
  unresolvable := ["c"]

/-- Two launches of a configuration that is gone, and the last one of it with another label. -/
def scattered : History where
  run := [⟨"a", .run, "a"⟩, ⟨"b", .run, "b"⟩, ⟨"c", .run, "c"⟩]
  debug := [⟨"a", .debug, "a"⟩]
  latest := some ⟨"a", .run, "again"⟩

/-- Forgetting the configuration and pruning are about the same launches, whichever comes first. Removing one of the
entries leaves the latest launch, whose label is another one. -/
theorem perform_scattered :
    scattered.WF ∧ (missing.perform Shelf.store thinned scattered).WF ∧
      missing.perform Shelf.store thinned scattered = ⟨[⟨"b", .run, "b"⟩, ⟨"c", .run, "c"⟩], [], none⟩ ∧
      missing.perform Shelf.store thinned (scattered.removeConfiguration "a") =
        missing.perform Shelf.store thinned scattered ∧
      scattered.countGone Shelf.store thinned = 2 ∧ scattered.countConfiguration "a" = 2 ∧
      (scattered.removeConfiguration "a").countGone Shelf.store thinned = 0 ∧
      ((launch ⟨"a", .run, "a"⟩).perform Shelf.store thinned scattered).latest = some ⟨"a", .run, "again"⟩ := by
  have hw : scattered.WF := History.violation?_eq_none_iff.1 (by decide)
  obtain ⟨-, -, -, -, hcomm, -, hkeeps, -, hsum⟩ :=
    perform_filters Shelf.store thinned scattered missing (configuration "a")
  obtain ⟨-, hlatest, -⟩ := perform_filters Shelf.store thinned scattered (launch ⟨"a", .run, "a"⟩) missing
  have hpruned : (configuration "a").perform Shelf.store thinned (missing.perform Shelf.store thinned scattered) =
      missing.perform Shelf.store thinned scattered := by decide +kernel
  have hgone : scattered.countGone Shelf.store thinned = 2 := by decide +kernel
  have hforgotten : scattered.countConfiguration "a" = 2 := by decide
  have hrest : (scattered.prune Shelf.store thinned).countConfiguration "a" = 0 := by decide +kernel
  refine ⟨hw, hkeeps hw, by decide +kernel, hcomm.symm.trans hpruned, hgone, hforgotten, ?_,
    (hlatest _).2 ⟨rfl, by decide⟩⟩
  have := hsum "a"
  omega

end Removal

end RecentLaunches
