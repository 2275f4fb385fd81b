/-
One launch recorded twice. The first record leaves an entry of its content at the head of the list: the launch itself,
or the head that was there. It takes away nothing that the launch could stand for, as an entry goes only if it is of
another content. So the second record finds what it needs at the head and changes nothing. For this it is enough that
every memento is of its own content; contents that are alike one way need not be so the other way, or along a chain.
-/
import RecentLaunches.Proofs.History.Requests

namespace RecentLaunches

/-! ## Stores -/

namespace Store

variable {σ : Type} {S : Store σ}

/-- A store that finds configurations under their own mementos, loses by a deletion at most what it is asked to delete,
and for which every memento is of its own content. -/
structure Faithful (S : Store σ) : Prop where
  memento_of_resolve : ∀ {s m c}, S.resolve s m = .ok (some c) → c.memento = m
  resolve_delete : ∀ {s c m}, m ≠ c.memento → S.resolve (S.delete s c).2 m = S.resolve s m
  same_self : ∀ s m, S.same s m m = true

end Store

namespace History

variable {σ : Type} {S : Store σ} {s : σ} {h : History} {launch : Launch} {c : Configuration}

/-- The entry that falls off a list when a launch is recorded. -/
def evicted? (S : Store σ) (s : σ) (h : History) (launch : Launch) : Option Launch :=
  (eligible? S s launch.memento launch.mode).bind fun c =>
    (Recent.promote (S.same s) { launch with memento := c.memento } (h.list launch.mode)).evicted

theorem record_of_not_eligible (h : History) (hc : eligible? S s launch.memento launch.mode = none) :
    record S s h launch = ⟨false, h, s, none⟩ ∧ evicted? S s h launch = none := by
  unfold record evicted?
  rw [hc]
  exact ⟨rfl, rfl⟩

/-- Without aliases a launch is remembered under its own memento. -/
theorem record_of_eligible (hS : S.Faithful) (h : History)
    (hc : eligible? S s launch.memento launch.mode = some c) :
    record S s h launch =
        ⟨true, remember (S.same s) h launch, afterRequest S s (requested? S s h launch), requested? S s h launch⟩ ∧
      evicted? S s h launch = (Recent.promote (S.same s) launch (h.list launch.mode)).evicted := by
  have hm : c.memento = launch.memento := hS.memento_of_resolve (eligible?_eq_some_iff.1 hc).1
  have hentry : { launch with memento := c.memento } = launch := by rw [hm]
  unfold evicted?
  rw [hc, Option.bind_some, hentry]
  rcases record_cases S s h launch with ⟨hnone, -⟩ | ⟨c', entry, hc', rfl, hr⟩
  · rw [hc] at hnone
    cases hnone
  · rw [hc] at hc'
    cases hc'
    rw [hentry] at hr
    exact ⟨hr, rfl⟩

/-! ## After the first record -/

/-- What goes is of another content than the launch, so that this is found as before. -/
theorem resolve_afterRequest (hS : S.Faithful) (hl : (h.list launch.mode).length ≤ Recent.capacity) :
    S.resolve (afterRequest S s (requested? S s h launch)) launch.memento = S.resolve s launch.memento := by
  rcases hq : requested? S s h launch with _ | lost
  · rfl
  obtain ⟨gone, ⟨-, hnew, hlast⟩, -, hres, -⟩ := (requested?_eq_some_iff_released launch hl).1 hq
  refine hS.resolve_delete fun heq => ?_
  rw [hS.memento_of_resolve hres] at heq
  have hdiffer := hnew gone (List.mem_of_getLast? hlast)
  rw [← heq, hS.same_self] at hdiffer
  cases hdiffer

/-- An entry of the content of the launch is at the head of its list, also for the store without what goes. -/
theorem exists_head_remember (hS : S.Faithful) (s : σ) (h : History) (launch : Launch) :
    ∃ head rest, (remember (S.same s) h launch).list launch.mode = head :: rest ∧
      S.same (afterRequest S s (requested? S s h launch)) head.memento launch.memento = true := by
  rw [list_remember, if_pos rfl]
  rcases Recent.head_promote (S.same s) launch (h.list launch.mode) with ⟨head, rest, hl, hsame, hp⟩ | ⟨rest, hp, -⟩
  · -- nothing falls off, and the store is the one that was asked
    have hkept : requested? S s h launch = none := by
      unfold requested?
      rw [hl, Recent.promote_of_head hsame]
      rfl
    rw [hkept]
    exact ⟨head, rest, hp.trans hl, hsame⟩
  · exact ⟨launch, rest, hp, hS.same_self _ _⟩

/-! ## The second record -/

/-- A launch of the content of the head, if it is the latest one, is remembered already. -/
theorem record_of_head (hS : S.Faithful) (hc : eligible? S s launch.memento launch.mode = some c) {head : Launch}
    {rest : Recent} (hl : h.list launch.mode = head :: rest) (hsame : S.same s head.memento launch.memento = true)
    (hlatest : h.latest = some launch) :
    record S s h launch = ⟨true, h, s, none⟩ ∧ evicted? S s h launch = none := by
  have hpromote : Recent.promote (S.same s) launch (h.list launch.mode) = ⟨h.list launch.mode, none⟩ := by
    rw [hl]
    exact Recent.promote_of_head hsame
  have hremember : remember (S.same s) h launch = h := by
    unfold remember
    rw [hpromote, withList_list, ← hlatest]
  have hkept : requested? S s h launch = none := by
    unfold requested?
    rw [hpromote]
    rfl
  obtain ⟨hr, he⟩ := record_of_eligible hS h hc
  rw [hr, he, hremember, hkept, hpromote]
  exact ⟨rfl, rfl⟩

/-- The second record does what the first one did, but for the request. -/
theorem record_again (hS : S.Faithful) (s : σ) (hw : h.WF) (launch : Launch) :
    record S (record S s h launch).store (record S s h launch).history launch =
        { record S s h launch with requested := none } ∧
      evicted? S (record S s h launch).store (record S s h launch).history launch = none := by
  rcases hc : eligible? S s launch.memento launch.mode with _ | c
  · obtain ⟨hr, hevicted⟩ := record_of_not_eligible h hc
    rw [hr]
    exact ⟨hr, hevicted⟩
  · obtain ⟨hr, -⟩ := record_of_eligible hS h hc
    have hc' : eligible? S (afterRequest S s (requested? S s h launch)) launch.memento launch.mode = some c := by
      rw [← hc]
      unfold eligible?
      rw [resolve_afterRequest hS (hw launch.mode).bounded]
    obtain ⟨head, rest, hl, hsame⟩ := exists_head_remember hS s h launch
    rw [hr]
    exact record_of_head hS hc' hl hsame rfl

/-- Recording the same launch twice is recording it once. Beside a store that finds configurations under their own
mementos, whose deletions touch nothing else, and for which every memento is of its own content, a second record of a
launch gives the answer of the first one. It leaves both lists and the latest launch as they are, lets no entry fall off
and asks for no deletion, also where the first one did. -/
theorem record_record (hS : S.Faithful) (s : σ) (hw : h.WF) (launch : Launch) :
    let r := record S s h launch
    let again := record S r.store r.history launch
    again.verdict = r.verdict ∧ again.history = r.history ∧ again.store = r.store ∧
      evicted? S r.store r.history launch = none ∧ requests S r.store r.history launch = [] := by
  intro r again
  obtain ⟨hagain, hevicted⟩ := record_again hS s hw launch
  have hsame : again.recorded = r.recorded ∧ again.history = r.history ∧ again.store = r.store := by
    rw [show again = _ from hagain]
    exact ⟨rfl, rfl, rfl⟩
  refine ⟨Recording.verdict_congr hsame.1 hsame.2.1, hsame.2.1, hsame.2.2, hevicted, ?_⟩
  rw [requests_eq, hagain]
  rfl

end History

namespace Database

/-- Databases where one memento is of the content of the next, and not the other way round or along the chain. -/
def chained : Store Database :=
  { store with same := fun _ a b => a == b || [("a", "b"), ("b", "c")].contains (a, b) }

theorem faithful_chained : chained.Faithful where
  memento_of_resolve := keyed_store.memento_of_resolve
  resolve_delete := keyed_store.resolve_delete
  same_self := fun _ m => by
    show (m == m || _) = true
    rw [beq_self_eq_true, Bool.true_or]

/-- A database of transient configurations. -/
def crowded : Database :=
  { fresh with table := some ⟨true, ["a", "b", "c", "d", "e", "f"].map fun m => .ofConfiguration (Book.passing m)⟩ }

/-- A new launch takes the oldest configuration away and one of the content of the head leaves the list; repeated,
neither changes anything. -/
theorem record_record_chained :
    chained.Faithful ∧ Shelf.crowded.WF ∧
      (let r := History.record chained crowded Shelf.crowded ⟨"f", .run, "f"⟩
       r.requested = some (Book.passing "e") ∧
        (History.record chained r.store r.history ⟨"f", .run, "f"⟩).history = r.history ∧
        History.requests chained r.store r.history ⟨"f", .run, "f"⟩ = []) ∧
      let r := History.record chained crowded Shelf.crowded ⟨"b", .run, "b"⟩
      r.history = { Shelf.crowded with latest := some ⟨"b", .run, "b"⟩ } ∧
        (History.record chained r.store r.history ⟨"b", .run, "b"⟩).history = r.history := by
  have hw : Shelf.crowded.WF := History.violation?_eq_none_iff.1 (by decide)
  obtain ⟨-, hnew, -, -, hrequests⟩ := History.record_record faithful_chained crowded hw ⟨"f", .run, "f"⟩
  obtain ⟨-, hhead, -⟩ := History.record_record faithful_chained crowded hw ⟨"b", .run, "b"⟩
  exact ⟨faithful_chained, hw, ⟨by decide +kernel, hnew, hrequests⟩, by decide +kernel, hhead⟩

end Database

end RecentLaunches
