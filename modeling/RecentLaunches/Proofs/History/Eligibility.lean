/-
What a record leaves behind by its answer, over any store. A launch is accepted exactly if its reference resolves to
a configuration that is not private and has the mode. A launch that is turned down changes nothing and asks for
nothing. An accepted one leaves the other list alone, becomes the latest launch under the memento of its
configuration, and stands at the head of its list, unless the head is of the same content and all the list stays.
-/
import RecentLaunches.Proofs.History.Requests
import RecentLaunches.Proofs.History.Contents

namespace RecentLaunches

namespace History

variable {σ : Type} {S : Store σ} {s : σ} {h : History} {launch : Launch}

/-! ## Answers -/

theorem Recording.verdict_eq_false_iff {r : Recording σ} : r.verdict = .ok false ↔ r.recorded = false := by
  unfold verdict
  rcases r.recorded with _ | _
  · simp
  · rcases r.history.violation? with _ | v <;> simp

theorem Recording.verdict_eq_true_iff {r : Recording σ} :
    r.verdict = .ok true ↔ r.recorded = true ∧ r.history.WF := by
  rw [← violation?_eq_none_iff]
  unfold verdict
  rcases r.recorded with _ | _
  · simp
  · rcases r.history.violation? with _ | v <;> simp

/-- What an accepted launch leaves behind, by its entry. -/
structure Accepts (same : Recent.Sameness) (h : History) (entry : Launch) (h' : History) : Prop where
  other : h'.list entry.mode.other = h.list entry.mode.other
  latest : h'.latest = some entry
  head : ∃ head rest, h'.list entry.mode = head :: rest ∧
    ((head = entry ∧ (h.list entry.mode).head? ≠ some head) ∨
      ((h.list entry.mode).head? = some head ∧ same head.memento entry.memento = true ∧
        h'.list entry.mode = h.list entry.mode))

/-- Remembering a launch is as it should be where it leads to no breach: were the head of old the entry itself, of
another content than its own, its memento would come to stand there twice. -/
theorem accepts_remember {same : Recent.Sameness} {entry : Launch} (hw : (remember same h entry).WF) :
    Accepts same h entry (remember same h entry) where
  other := list_remember_other same h entry
  latest := rfl
  head := by
    have hdistinct := (hw entry.mode).distinct
    rw [list_remember, if_pos rfl] at hdistinct ⊢
    rcases Recent.head_promote same entry (h.list entry.mode) with
      ⟨head, rest, hl, hsame, hp⟩ | ⟨rest, hp, hrest⟩
    · exact ⟨head, rest, by rw [hp, hl], .inr ⟨by rw [hl]; rfl, hsame, hp⟩⟩
    · refine ⟨entry, rest, hp, .inl ⟨rfl, fun hold => ?_⟩⟩
      rw [hp] at hdistinct
      rw [← hrest] at hold
      obtain ⟨tail, rfl⟩ := List.head?_eq_some_iff.1 hold
      simp [Recent.mementos] at hdistinct

/-- A record by its answer, over any store and for any history. Where no breach of the rules is found, the answer is
yes exactly if the launch is eligible. After a no the history and the store are as before, and no deletion was asked
for. After a yes the other list is as before, the latest launch is the one that was recorded, under the memento of
its configuration, and the list begins with that launch, or it is the list as it was, beginning with an entry of the
same content. -/
theorem verdict_of_record (S : Store σ) (s : σ) (h : History) (launch : Launch)
    (hv : ∀ v, (record S s h launch).verdict ≠ .error v) :
    let r := record S s h launch
    (r.verdict = .ok true ↔ ∃ c, IsEligible S s launch.memento launch.mode c) ∧
    (r.verdict = .ok false → r.history = h ∧ r.store = s ∧ requests S s h launch = []) ∧
    (r.verdict = .ok true → ∃ c, IsEligible S s launch.memento launch.mode c ∧
      Accepts (S.same s) h ⟨c.memento, launch.mode, launch.label⟩ r.history) := by
  intro r
  have hrequests : requests S s h launch = r.requested.toList := requests_eq S s h launch
  rcases record_cases S s h launch with ⟨hnone, hc : r = _⟩ | ⟨c, entry, hsome, rfl, hc : r = _⟩
  · have hanswer : r.verdict = .ok false := Recording.verdict_eq_false_iff.2 (by rw [hc])
    refine ⟨?_, fun _ => by rw [hrequests, hc]; exact ⟨rfl, rfl, rfl⟩, fun hyes => ?_⟩
    · rw [hanswer]
      refine iff_of_false (by simp) ?_
      rintro ⟨c, he⟩
      rw [eligible?_eq_some_iff.2 he] at hnone
      cases hnone
    · rw [hanswer] at hyes
      cases hyes
  · have heligible : IsEligible S s launch.memento launch.mode c := eligible?_eq_some_iff.1 hsome
    have hanswer : r.verdict = .ok true := by
      rcases ha : r.verdict with v | _ | _
      · exact absurd ha (hv v)
      · rw [Recording.verdict_eq_false_iff, hc] at ha
        cases ha
      · rfl
    have hw := (Recording.verdict_eq_true_iff.1 hanswer).2
    refine ⟨iff_of_true hanswer ⟨c, heligible⟩, fun hno => ?_, fun _ => ⟨c, heligible, ?_⟩⟩
    · rw [hanswer] at hno
      cases hno
    · rw [hc] at hw ⊢
      exact accepts_remember hw

end History

namespace Shelf

/-- A launch of a copy of what is at the head leaves the list and becomes the latest launch; what is not on the shelf
is turned down. -/
theorem verdict_of_copied :
    let h : History := { run := [⟨"A", .run, "A"⟩], debug := [⟨"A", .debug, "A"⟩] }
    let r := History.record store copying h ⟨"A-copy", .run, "again"⟩
    r.verdict = .ok true ∧ r.history = { h with latest := some ⟨"A-copy", .run, "again"⟩ } ∧
    (∃ c, History.IsEligible store copying "A-copy" .run c ∧
      History.Accepts Equality.copies.holds h ⟨c.memento, .run, "again"⟩ r.history) ∧
    (History.record store copying h ⟨"C", .run, "C"⟩).history = h ∧
    History.requests store copying h ⟨"C", .run, "C"⟩ = [] := by
  intro h r
  have hyes : r.verdict = .ok true := by decide +kernel
  have hno : (History.record store copying h ⟨"C", .run, "C"⟩).verdict = .ok false := by decide +kernel
  have haccepted := History.verdict_of_record store copying h ⟨"A-copy", .run, "again"⟩ fun v hv => by
    rw [show History.Recording.verdict _ = _ from hyes] at hv
    cases hv
  have hrefused := History.verdict_of_record store copying h ⟨"C", .run, "C"⟩ fun v hv => by
    rw [hno] at hv
    cases hv
  obtain ⟨hsame, -, hnothing⟩ := hrefused.2.1 hno
  exact ⟨hyes, by decide +kernel, haccepted.2.2 hyes, hsame, hnothing⟩

end Shelf

end RecentLaunches
