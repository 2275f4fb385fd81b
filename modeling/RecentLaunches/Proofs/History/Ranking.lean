/-
The lists of a history by the log of its accepted launches. Recorded with a store that keeps
configurations under their own mementos, each list is the front of the list that the accepted launches of
its mode lead to without a capacity, and the latest launch is the last accepted one. A launch that is
refused, for instance as its configuration went with an eviction, leaves no trace.
-/
import RecentLaunches.Proofs.History.Series
import RecentLaunches.Proofs.Recent.Ranking

namespace RecentLaunches.Book

open Recent (capacity mementos ranking lastBlock unbounded)

variable {σ : Type} {S : Store σ} {b : Book σ} {log : List Launch}

/-- The launches of a log under a mode. -/
def ofMode (m : Mode) (log : List Launch) : List Launch :=
  log.filter (·.mode == m)

/-- Whether a history is what a log of accepted launches leads to. -/
structure Tells (log : List Launch) (b : Book σ) : Prop where
  wf : b.history.WF
  lists : ∀ m, b.history.list m = (unbounded (ofMode m log)).take capacity
  latest : b.history.latest = log.getLast?

theorem Tells.empty (s : σ) : (Book.mk s .empty).Tells [] where
  wf := .empty
  lists := fun m => by cases m <;> rfl
  latest := rfl

theorem Tells.remember {same : Recent.Sameness} (hs : ∀ a b, same a b = true ↔ a = b)
    (hb : b.Tells log) (s : σ) (launch : Launch) :
    (Book.mk s (b.history.remember same launch)).Tells (log ++ [launch]) where
  wf := hb.wf.remember hs launch
  lists := by
    intro m
    show (b.history.remember same launch).list m = _
    rw [History.list_remember]
    split_ifs with hm
    · subst hm
      have hlog : ofMode launch.mode (log ++ [launch]) = ofMode launch.mode log ++ [launch] := by
        simp [ofMode]
      rw [hlog, hb.lists, Recent.launches_promote_unbounded hs]
    · have hlog : ofMode m (log ++ [launch]) = ofMode m log := by
        simp [ofMode, Ne.symm hm]
      rw [hlog, hb.lists]
  latest := by
    show some launch = _
    rw [List.getLast?_concat]

/-- An accepted launch ends the log, a refused one is not in it. -/
theorem Tells.record (hS : S.Keyed) (hb : b.Tells log) (launch : Launch) :
    (b.answer S launch = .ok true ∧ (b.record S launch).Tells (log ++ [launch])) ∨
      (b.answer S launch ≠ .ok true ∧ b.record S launch = b) := by
  have hv : b.answer S launch = .ok (b.history.record S b.store launch).recorded :=
    History.verdict_record hS hb.wf launch
  rcases History.record_cases S b.store b.history launch with ⟨-, hr⟩ | ⟨c, entry, hc, rfl, hr⟩
  · right
    rw [hv, hr]
    refine ⟨by simp, ?_⟩
    unfold Book.record
    rw [hr]
  · left
    rw [hv, hr]
    refine ⟨rfl, ?_⟩
    unfold Book.record
    rw [hr, History.memento_of_eligible? hS hc]
    exact hb.remember (hS.same_iff b.store) _ launch

theorem Tells.recordAll (hS : S.Keyed) (launches : List Launch) (hb : b.Tells log) :
    (b.recordAll S launches).Tells (log ++ b.accepted S launches) := by
  refine recordAll_keeps (I := fun log b => b.Tells log) (fun log b launch hb => ?_) launches hb
  rcases hb.record hS launch with ha | ⟨ha, hnext⟩
  · exact .inl ha
  · refine .inr ⟨ha, ?_⟩
    rw [hnext]
    exact hb

/-- What a history remembers of its launches. With a database, from the empty history on, each list has
the first mementos of the accepted launches of its mode, each once, in the order of their latest launches;
each entry is the first launch of the last unbroken block of accepted launches of its memento and mode;
and the latest launch is the last one accepted of either mode. -/
theorem list_of_recordAll (d : Database) (launches : List Launch) :
    let b := (Book.mk d .empty).recordAll Database.store launches
    let log := (Book.mk d .empty).accepted Database.store launches
    (∀ m, mementos (b.history.list m) = (ranking (ofMode m log)).take capacity) ∧
    (∀ m, ∀ e ∈ b.history.list m, (lastBlock e.memento (ofMode m log)).head? = some e) ∧
    b.history.latest = log.getLast? := by
  intro b log
  have hb : b.Tells log := (Tells.empty d).recordAll Database.keyed_store launches
  refine ⟨fun m => ?_, fun m e he => ?_, hb.latest⟩
  · rw [hb.lists, ← Recent.mementos_unbounded]
    exact List.map_take
  · rw [hb.lists] at he
    exact Recent.head?_lastBlock_of_mem _ e (List.mem_of_mem_take he)

end RecentLaunches.Book
