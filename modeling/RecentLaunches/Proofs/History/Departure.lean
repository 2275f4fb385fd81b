/-
What becomes of transient configurations as launches are recorded and taken out of a history. A memento
can leave the lists by either: a record that evicts its last launch also deletes the configuration, taking
its last launch out of the history does not. So a transient configuration that has left the lists is gone
from the store exactly if it left them by a record.
-/
import RecentLaunches.Proofs.History.Deletion

namespace RecentLaunches

/-- What is done with one launch: it is recorded, or it is taken out of the history. -/
inductive Use
  | record (launch : Launch)
  | remove (entry : Launch)
  deriving DecidableEq, Repr

/-- Whether a use is a record. -/
def Use.isRecord : Use → Bool
  | record _ => true
  | remove _ => false

namespace Book

section

variable {σ : Type} {S : Store σ} {b : Book σ} {m : Memento} {c : Configuration}

/-- What a use leads to. -/
def use (S : Store σ) (b : Book σ) : Use → Book σ
  | .record launch => b.record S launch
  | .remove entry => { b with history := b.history.removeEntry entry }

/-- What some uses lead to, one after the other. -/
def useAll (S : Store σ) (b : Book σ) (uses : List Use) : Book σ :=
  uses.foldl (use S) b

/-- Whether one of the lists remembers a memento at some time during some uses, before the first of them
and after the last. -/
def wasListed (S : Store σ) (m : Memento) (b : Book σ) : List Use → Bool
  | [] => b.history.listed m
  | u :: uses => b.history.listed m || wasListed S m (b.use S u) uses

/-- The last use by which a memento left the lists. -/
def departure? (S : Store σ) (m : Memento) (b : Book σ) : List Use → Option Use
  | [] => none
  | u :: uses =>
    match departure? S m (b.use S u) uses with
    | some later => some later
    | none => if b.history.listed m && !(b.use S u).history.listed m then some u else none

/-- Whether a memento left the lists by a record, and was not listed and taken out again since. -/
def leftByRecord (S : Store σ) (m : Memento) (b : Book σ) (uses : List Use) : Bool :=
  ((departure? S m b uses).map Use.isRecord).getD false

/-! ## Leaving the lists -/

/-- A memento that was listed and is not any more has left by some use. -/
theorem isSome_departure? {uses : List Use} (hw : wasListed S m b uses = true)
    (hn : (b.useAll S uses).history.listed m = false) : (departure? S m b uses).isSome = true := by
  induction uses generalizing b with
  | nil =>
    have hl : b.history.listed m = true := hw
    rw [show b.history.listed m = false from hn] at hl
    cases hl
  | cons u uses ih =>
    unfold departure?
    by_cases hlater : wasListed S m (b.use S u) uses = true
    · obtain ⟨later, hd⟩ := Option.isSome_iff_exists.1 (ih hlater hn)
      rw [hd]
      rfl
    · -- the memento was listed before this use only
      have hbefore : b.history.listed m = true := by
        unfold wasListed at hw
        rw [Bool.or_eq_true] at hw
        exact hw.resolve_right hlater
      have hafter : (b.use S u).history.listed m = false := by
        cases uses with
        | nil => exact hn
        | cons v uses =>
          unfold wasListed at hlater
          simp only [Bool.or_eq_true, not_or, Bool.not_eq_true] at hlater
          exact hlater.1
      rcases departure? S m (b.use S u) uses with _ | later
      · simp [hbefore, hafter]
      · rfl

/-- Taking launches out lists nothing. -/
theorem listed_of_listed_drop {h : History} {gone : Launch → Bool} (hl : (h.drop gone).listed m = true) :
    h.listed m = true := by
  obtain ⟨mode, hm⟩ := History.listed_iff.1 hl
  rw [History.list_drop] at hm
  exact History.listed_iff.2 ⟨mode, (List.filter_sublist.map _).subset hm⟩

/-- What is neither listed nor in the store stays so. -/
theorem use_of_gone (hS : S.Obedient) (hw : b.history.WF) (hl : b.history.listed m = false)
    (hg : S.resolve b.store m = .ok none) (u : Use) :
    (b.use S u).history.listed m = false ∧ S.resolve (b.use S u).store m = .ok none := by
  cases u with
  | remove entry =>
    refine ⟨?_, hg⟩
    rw [← Bool.not_eq_true] at hl ⊢
    exact fun h => hl (listed_of_listed_drop h)
  | record launch =>
    constructor
    · show (History.record S b.store b.history launch).history.listed m = false
      rcases History.record_cases S b.store b.history launch with ⟨-, hr⟩ | ⟨c, entry, hc, rfl, hr⟩ <;>
        rw [hr]
      · exact hl
      · rw [History.memento_of_eligible? hS.toKeyed hc, ← Bool.not_eq_true]
        intro hafter
        rcases (History.listed_remember (hS.same_iff b.store) launch).1 (.inl hafter) with h | rfl
        · rw [hl] at h
          cases h
        · -- the launched configuration was found
          rw [(History.eligible?_eq_some_iff.1 hc).1] at hg
          cases hg
    · show S.resolve (History.record S b.store b.history launch).store m = .ok none
      rw [History.resolve_record_eq hS hw launch m, hg]
      rfl

theorem wf_use (hS : S.Keyed) (hw : b.history.WF) (u : Use) : (b.use S u).history.WF := by
  cases u with
  | record launch => exact hw.record hS launch
  | remove entry => exact hw.drop _

/-- What is neither listed nor in the store never leaves the lists. -/
theorem departure?_of_gone (hS : S.Obedient) (uses : List Use) (hw : b.history.WF)
    (hl : b.history.listed m = false) (hg : S.resolve b.store m = .ok none) :
    departure? S m b uses = none := by
  induction uses generalizing b with
  | nil => rfl
  | cons u uses ih =>
    obtain ⟨hl', hg'⟩ := use_of_gone hS hw hl hg u
    unfold departure?
    rw [ih (wf_use hS.toKeyed hw u) hl' hg', hl]
    rfl

/-! ## The store -/

/-- Whether a use is the record by which a transient configuration leaves the lists. -/
def takes (S : Store σ) (b : Book σ) (u : Use) (c : Configuration) : Bool :=
  u.isRecord && History.leaves b.history (b.use S u).history c

/-- A use takes the transient configuration that leaves the lists by a record out of the store, and
nothing else. -/
theorem resolve_use (hS : S.Obedient) (hw : b.history.WF) (u : Use) (m : Memento) :
    S.resolve (b.use S u).store m = (S.resolve b.store m).map (Option.filter fun c => !takes S b u c) := by
  cases u with
  | record launch => exact History.resolve_record_eq hS hw launch m
  | remove entry =>
    show S.resolve b.store m = _
    rcases S.resolve b.store m with e | _ | c <;> rfl

theorem leftByRecord_cons {u : Use} {uses : List Use} (hlater : departure? S m (b.use S u) uses = none) :
    leftByRecord S m b (u :: uses) =
      (u.isRecord && (b.history.listed m && !(b.use S u).history.listed m)) := by
  unfold leftByRecord departure?
  rw [hlater]
  rcases hd : (b.history.listed m && !(b.use S u).history.listed m) with _ | _ <;> cases u <;> simp [Use.isRecord]

/-- A test on what is found under a memento. -/
theorem map_filter_some (test : Configuration → Bool) (c : Configuration) :
    (Except.ok (some c) : Except Fault (Option Configuration)).map (Option.filter test) =
      .ok (if test c then some c else none) := by
  rw [Except.map, Option.filter_some]

/-- The store after some uses: less the transient configurations that left the lists by a record. -/
theorem resolve_useAll (hS : S.Obedient) (uses : List Use) (hw : b.history.WF) (m : Memento) :
    S.resolve (b.useAll S uses).store m = (S.resolve b.store m).map
      (Option.filter fun c => !(c.isTransient && leftByRecord S m b uses)) := by
  induction uses generalizing b with
  | nil =>
    show S.resolve b.store m = _
    rcases S.resolve b.store m with e | _ | c
    · rfl
    · rfl
    · rw [map_filter_some]
      simp [leftByRecord, departure?]
  | cons u uses ih =>
    have hstep := resolve_use hS hw u m
    have hrest : S.resolve (b.useAll S (u :: uses)).store m = _ := ih (wf_use hS.toKeyed hw u)
    rw [hrest]
    rcases hres : S.resolve b.store m with e | _ | c <;> rw [hres] at hstep <;> rw [hstep]
    · rfl
    · rfl
    have hm : c.memento = m := hS.memento_of_resolve hres
    rw [map_filter_some] at hstep
    rw [map_filter_some, map_filter_some]
    have htakes : takes S b u c =
        (c.isTransient && (u.isRecord && (b.history.listed m && !(b.use S u).history.listed m))) := by
      unfold takes History.leaves
      rw [hm, Bool.and_assoc, Bool.and_left_comm]
    rcases ht : takes S b u c with _ | _ <;> rw [ht] at hstep htakes
    · -- the configuration stays, and the uses to come decide
      have hleft : (c.isTransient && leftByRecord S m b (u :: uses)) =
          (c.isTransient && leftByRecord S m (b.use S u) uses) := by
        rcases hd : departure? S m (b.use S u) uses with _ | later
        · rw [leftByRecord_cons hd, ← htakes]
          simp [leftByRecord, hd]
        · rw [leftByRecord, departure?, hd]
          simp [leftByRecord, hd]
      rw [hleft]
      simp [map_filter_some]
    · -- the configuration is gone for good
      have hgone := htakes.symm
      simp only [Bool.and_eq_true, Bool.not_eq_true'] at hgone
      obtain ⟨htransient, hrecord, hbefore, hafter⟩ := hgone
      have hd := departure?_of_gone hS uses (wf_use hS.toKeyed hw u) hafter hstep
      rw [leftByRecord_cons hd, hrecord, hbefore, hafter, htransient]
      rfl

end

/-! ## Transient configurations -/

/-- What becomes of transient configurations. With a database, from the empty history on, records and
removals of launches leave in the store what was there in the beginning but for the transient
configurations that left the lists by a record. So one that was listed and is not any more is gone if it
left the lists by a record; if its last launch was taken out of the history, it is still there. -/
theorem resolve_of_useAll (d : Database) (uses : List Use) :
    let start := Book.mk d .empty
    let b := start.useAll Database.store uses
    (∀ m, Database.store.resolve b.store m = (Database.store.resolve d m).map
      (Option.filter fun c => !(c.isTransient && start.leftByRecord Database.store m uses))) ∧
    ∀ c, Database.store.resolve d c.memento = .ok (some c) → c.isTransient = true →
      start.wasListed Database.store c.memento uses = true → b.history.listed c.memento = false →
      (Database.store.resolve b.store c.memento = .ok none ↔
        ∃ launch, start.departure? Database.store c.memento uses = some (.record launch)) ∧
      (Database.store.resolve b.store c.memento = .ok (some c) ↔
        ∃ entry, start.departure? Database.store c.memento uses = some (.remove entry)) := by
  intro start b
  have hstore := fun m => resolve_useAll (b := start) Database.obedient_store uses .empty m
  refine ⟨hstore, fun c hres ht hwas hnow => ?_⟩
  have hc := hstore c.memento
  rw [show start.store = d from rfl, hres, map_filter_some, ht] at hc
  obtain ⟨last, hlast⟩ := Option.isSome_iff_exists.1 (isSome_departure? hwas hnow)
  cases last with
  | record launch =>
    have hleft : start.leftByRecord Database.store c.memento uses = true := by
      unfold leftByRecord
      rw [hlast]
      rfl
    rw [hleft] at hc
    simp [b, hc, hlast]
  | remove entry =>
    have hleft : start.leftByRecord Database.store c.memento uses = false := by
      unfold leftByRecord
      rw [hlast]
      rfl
    rw [hleft] at hc
    simp [b, hc, hlast]

/-- A database with transient configurations. -/
def transients (mementos : List Memento) : Database :=
  ((Book.mk .fresh .empty).run (mementos.map fun m => .save (passing m))).store

/-- The oldest of six launches is evicted, and its configuration goes with it. -/
theorem resolve_of_evicted :
    let uses := ["a", "b", "c", "d", "e", "f"].map fun m => Use.record ⟨m, .run, m⟩
    let start := Book.mk (transients ["a", "b", "c", "d", "e", "f"]) .empty
    start.departure? Database.store "a" uses = some (.record ⟨"f", .run, "f"⟩) ∧
      Database.store.resolve (start.useAll Database.store uses).store "a" = .ok none := by
  intro uses start
  have hlast : start.departure? Database.store "a" uses = some (.record ⟨"f", .run, "f"⟩) := by
    decide +kernel
  have h := (resolve_of_useAll (transients ["a", "b", "c", "d", "e", "f"]) uses).2 (passing "a")
    (by decide +kernel) rfl (by decide +kernel) (by decide +kernel)
  exact ⟨hlast, h.1.2 ⟨_, hlast⟩⟩

/-- One launch of a transient configuration is taken out of the history. The configuration was in a list
and is in none, and it is still in the store. -/
theorem resolve_of_forgotten :
    let uses := [Use.record ⟨"a", .run, "A"⟩, .remove ⟨"a", .run, "A"⟩]
    let start := Book.mk (transients ["a"]) .empty
    let b := start.useAll Database.store uses
    Database.store.resolve start.store "a" = .ok (some (passing "a")) ∧ (passing "a").isTransient = true ∧
      start.wasListed Database.store "a" uses = true ∧ b.history.listed "a" = false ∧
      Database.store.resolve b.store "a" = .ok (some (passing "a")) := by
  decide +kernel

end Book

end RecentLaunches
