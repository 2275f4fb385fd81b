/-
Histories beside a store that compares contents and that others may change. Whatever is done to a history,
and whatever becomes of the store meanwhile, no two entries of one list ever have the same content, as long
as what counts as the same is one equivalence all the time. So every launch is answered.
-/
import RecentLaunches.Proofs.History.Series
import RecentLaunches.Proofs.Recent.Contents
import RecentLaunches.Store.Shelf

namespace RecentLaunches

open Recent (Sameness)

namespace History

variable {σ : Type} {S : Store σ} {s : σ} {h : History} {same : Sameness}

/-- The rules of both lists, with contents compared. -/
def ContentWF (same : Sameness) (h : History) : Prop :=
  ∀ m, Recent.ContentWF same m (h.list m)

theorem ContentWF.wf (hrefl : ∀ a, same a a = true) (hc : h.ContentWF same) : h.WF :=
  fun m => (hc m).wf hrefl

theorem ContentWF.empty (same : Sameness) : empty.ContentWF same := by
  intro m
  rw [list_empty]
  exact .nil same m

theorem ContentWF.drop (hc : h.ContentWF same) (gone : Launch → Bool) : (h.drop gone).ContentWF same := by
  intro m
  rw [list_drop]
  exact (hc m).sublist List.filter_sublist

theorem ContentWF.remember (hs : Equivalence fun a b => same a b = true) (hc : h.ContentWF same)
    (entry : Launch) : (remember same h entry).ContentWF same := by
  intro m
  rw [list_remember]
  split_ifs with hm
  · rw [hm]
    exact (hc entry.mode).promote hs rfl
  · exact hc m

theorem ContentWF.record (hs : Equivalence fun a b => S.same s a b = true) (hc : h.ContentWF (S.same s))
    (launch : Launch) : (record S s h launch).history.ContentWF (S.same s) := by
  rcases record_cases S s h launch with ⟨-, hr⟩ | ⟨c, entry, -, rfl, hr⟩ <;> rw [hr]
  · exact hc
  · exact hc.remember hs _

/-! ## Reloading -/

/-- The history that comes back from its own document, if it does. -/
def reload (h : History) : History :=
  match Document.restore (Document.render h) with
  | .restored h' => h'
  | _ => h

theorem reload_of_wf (hw : h.WF) : h.reload = h := by
  unfold reload
  by_cases hn : h.IsNamed
  · rw [Document.restore_of_read (Document.read_render hw hn)]
  · rw [Document.restore, Document.read_render_of_not_isNamed hn]

end History

/-! ## Episodes -/

/-- What can happen to a history and the store beside it. -/
inductive Episode (σ : Type)
  | record (launch : Launch)
  | removeEntry (entry : Launch)
  | removeConfiguration (memento : Memento)
  | prune
  | reload
  /-- The store is changed by others. -/
  | disturb (store : σ)

namespace Book

variable {σ : Type} {S : Store σ} {b : Book σ} {same : Sameness}

/-- What an episode leads to. -/
def episode (S : Store σ) (b : Book σ) : Episode σ → Book σ
  | .record launch => b.record S launch
  | .removeEntry entry => { b with history := b.history.removeEntry entry }
  | .removeConfiguration m => { b with history := b.history.removeConfiguration m }
  | .prune => { b with history := b.history.prune S b.store }
  | .reload => { b with history := b.history.reload }
  | .disturb s => { b with store := s }

/-- What some episodes lead to, one after the other. -/
def live (S : Store σ) (b : Book σ) (episodes : List (Episode σ)) : Book σ :=
  episodes.foldl (episode S) b

theorem answer_of_contentWF (hs : Equivalence fun a b => same a b = true) (hsame : S.same b.store = same)
    (hc : b.history.ContentWF same) (launch : Launch) : ∃ r, b.answer S launch = .ok r := by
  subst hsame
  exact ⟨_, History.Recording.verdict_of_wf ((hc.record hs launch).wf hs.refl)⟩

theorem contentWF_episode (hs : Equivalence fun a b => same a b = true) (hsame : S.same b.store = same)
    (hc : b.history.ContentWF same) (x : Episode σ) : (b.episode S x).history.ContentWF same := by
  subst hsame
  cases x with
  | record launch => exact hc.record hs launch
  | removeEntry entry => exact hc.drop _
  | removeConfiguration m => exact hc.drop _
  | prune => exact hc.drop _
  | reload =>
    show b.history.reload.ContentWF _
    rw [History.reload_of_wf (hc.wf hs.refl)]
    exact hc
  | disturb s => exact hc

/-- Contents stay apart. From the empty history on, whatever happens to it and to the store, each list
stays within its capacity, holds launches of its own mode and no two entries of one content, and every
launch on the way is answered: provided that one equivalence says all the time what counts as the same. -/
theorem contentWF_of_live (hs : Equivalence fun a b => same a b = true) (s : σ)
    (episodes : List (Episode σ))
    (hsame : Along (episode S) (fun b _ => S.same b.store = same) ⟨s, .empty⟩ episodes) :
    (∀ m, Recent.ContentWF same m (((Book.mk s .empty).live S episodes).history.list m)) ∧
    Along (episode S) (fun b x => ∀ launch, x = .record launch → ∃ r, b.answer S launch = .ok r)
      ⟨s, .empty⟩ episodes := by
  refine hsame.keeps (I := fun b => b.history.ContentWF same) (fun b x hc hb => ?_) (.empty same)
  refine ⟨contentWF_episode hs hb hc x, fun launch _ => ?_⟩
  exact answer_of_contentWF hs hb hc launch

end Book

/-! ## Shelves -/

namespace Shelf

theorem equivalence_copies : Equivalence fun a b => Equality.copies.holds a b = true := by
  have hiff : ∀ a b, Equality.copies.holds a b = true ↔ Equality.copied a = Equality.copied b :=
    fun a b => beq_iff_eq
  simp only [hiff]
  exact ⟨fun a => rfl, fun h => h.symm, fun h h' => h.trans h'⟩

/-- What no deletion changes on a shelf, no record changes. -/
theorem record_keeps {α : Type} (f : Shelf → α) (hf : ∀ s c, f (delete s c).2 = f s) (b : Book Shelf)
    (launch : Launch) : f (b.record store launch).store = f b.store := by
  show f (History.record store b.store b.history launch).store = f b.store
  rcases History.record_cases store b.store b.history launch with ⟨-, hr⟩ | ⟨c, entry, -, -, hr⟩ <;> rw [hr]
  rcases History.requested? store b.store b.history entry with _ | gone
  · rfl
  · exact hf b.store gone

theorem equality_record (b : Book Shelf) (launch : Launch) :
    (b.record store launch).store.equality = b.store.equality := by
  refine record_keeps equality (fun s c => ?_) b launch
  unfold delete
  split <;> rfl

theorem same_of_equality {s : Shelf} {q : Equality} (h : s.equality = q) : store.same s = q.holds := by
  rw [← h]
  rfl

/-- Records leave what counts as the same on a shelf. -/
theorem along_record_same {q : Equality} (launches : List Launch) (b : Book Shelf)
    (hb : b.store.equality = q) :
    Along (Book.record store) (fun b _ => store.same b.store = q.holds) b launches := by
  have hall : Along (Book.record store) (fun _ _ => True) b launches :=
    .of_forall (fun _ _ => trivial) launches b
  refine (hall.keeps (I := fun b => b.store.equality = q) (fun b launch hb _ => ?_) hb).2
  exact ⟨(equality_record b launch).trans hb, same_of_equality hb⟩

/-- What counts as the same on a shelf changes only as another shelf takes its place. -/
theorem along_episode_same {q : Equality} {episodes : List (Episode Shelf)} {b : Book Shelf}
    (hb : b.store.equality = q)
    (hd : Along (Book.episode store) (fun _ x => ∀ s, x = .disturb s → s.equality = q) b episodes) :
    Along (Book.episode store) (fun b _ => store.same b.store = q.holds) b episodes := by
  refine (hd.keeps (I := fun b => b.store.equality = q) (fun b x hb hx => ?_) hb).2
  refine ⟨?_, same_of_equality hb⟩
  cases x with
  | record launch => exact (equality_record b launch).trans hb
  | disturb s => exact hx s rfl
  | _ => exact hb

/-- A shelf with a configuration, a copy of it and another one. -/
def copying : Shelf :=
  ⟨["A", "A-copy", "B"].map Book.passing, .copies, [], [], false, []⟩

/-- The copy takes the place of the original, also after the store has failed for a while. -/
theorem contentWF_of_copying :
    let episodes := [.record ⟨"A", .run, "A"⟩, .record ⟨"B", .run, "B"⟩, .record ⟨"A-copy", .run, "again"⟩,
      .disturb { copying with unresolvable := ["B"], readOnly := true }, .record ⟨"B", .run, "B"⟩,
      .reload, .record ⟨"A", .run, "A"⟩]
    ((Book.mk copying .empty).live store (episodes.take 5)).history.list .run =
      [⟨"A-copy", .run, "again"⟩, ⟨"B", .run, "B"⟩] ∧
    ∀ m, Recent.ContentWF Equality.copies.holds m
      (((Book.mk copying .empty).live store episodes).history.list m) := by
  refine ⟨by decide +kernel, ?_⟩
  refine (Book.contentWF_of_live equivalence_copies copying _ ?_).1
  exact along_episode_same rfl (by simp [Along, copying])

end Shelf

end RecentLaunches
