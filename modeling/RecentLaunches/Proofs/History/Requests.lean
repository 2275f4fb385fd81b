/-
Which deletions a record asks its store for, whatever the store answers. It is asked at most once, and exactly if the
launch pushes the last entry out of a full list, no entry of the other list is of the content of that one, and it
stands for a transient configuration. That question and its outcome have no part in what becomes of the history: two
stores that say the same of the launched configuration, and of what the entries of its list have to do with it, lead
to the same history and to the same answer.
-/
import RecentLaunches.Proofs.History.Agreement
import RecentLaunches.Proofs.History.Book
import RecentLaunches.Store.Shelf

namespace RecentLaunches

/-! ## Stores that note what they are asked for -/

namespace Store

variable {σ : Type}

/-- The store with a note of every deletion that it is asked for, in order. -/
def noting (S : Store σ) : Store (σ × List Configuration) where
  resolve s := S.resolve s.1
  delete s c := ((S.delete s.1 c).1, (S.delete s.1 c).2, s.2 ++ [c])
  same s := S.same s.1

/-- What a launch is judged by in the answer of a store: the memento, whether it is private, and the modes. -/
def launchable? (S : Store σ) (s : σ) (m : Memento) : Option (Memento × Bool × List Mode) :=
  match S.resolve s m with
  | .ok (some c) => some (c.memento, c.isPrivate, c.modes)
  | _ => none

end Store

namespace History

variable {σ τ : Type} {S : Store σ} {T : Store τ} {s : σ} {t : τ} {h : History} {launch : Launch} {c : Configuration}

/-- The configurations that a record asks the store to delete, in order. -/
def requests (S : Store σ) (s : σ) (h : History) (launch : Launch) : List Configuration :=
  (record S.noting (s, []) h launch).store.2

theorem requests_eq (S : Store σ) (s : σ) (h : History) (launch : Launch) :
    requests S s h launch = (record S s h launch).requested.toList := by
  have hagree : Store.Agree S.noting S (s, []) s := ⟨fun _ => rfl, rfl⟩
  unfold requests
  rw [store_record, (hagree.record h launch).2.2]
  cases (record S s h launch).requested <;> rfl

/-! ## When a deletion is requested -/

/-- A configuration is what a reference stands for, and its launches under a mode are remembered. -/
def IsEligible (S : Store σ) (s : σ) (m : Memento) (mode : Mode) (c : Configuration) : Prop :=
  S.resolve s m = .ok (some c) ∧ c.isPrivate = false ∧ c.supports mode = true

instance (S : Store σ) (s : σ) (m : Memento) (mode : Mode) (c : Configuration) :
    Decidable (IsEligible S s m mode c) :=
  inferInstanceAs (Decidable (_ ∧ _ ∧ _))

/-- A launch is accepted, its list is full and has no entry of its content, and so the last entry has to go. -/
def Displaces (S : Store σ) (s : σ) (h : History) (launch gone : Launch) : Prop :=
  ∃ launched, IsEligible S s launch.memento launch.mode launched ∧
    (h.list launch.mode).length = Recent.capacity ∧
    (∀ e ∈ h.list launch.mode, S.same s e.memento launched.memento = false) ∧
    (h.list launch.mode).getLast? = some gone

theorem mem_requests_iff (hl : (h.list launch.mode).length ≤ Recent.capacity) :
    c ∈ requests S s h launch ↔
      ∃ gone, Displaces S s h launch gone ∧
        (∀ e ∈ h.list launch.mode.other, S.same s e.memento gone.memento = false) ∧
        S.resolve s gone.memento = .ok (some c) ∧ c.isTransient = true := by
  rw [requests_eq, Option.mem_toList]
  rcases record_cases S s h launch with ⟨hnone, hr⟩ | ⟨launched, entry, hsome, rfl, hr⟩ <;> rw [hr]
  · refine iff_of_false (by simp) ?_
    rintro ⟨gone, ⟨launched, heligible, -⟩, -⟩
    rw [eligible?_eq_some_iff.2 heligible] at hnone
    cases hnone
  · have heligible := eligible?_eq_some_iff.1 hsome
    refine (requested?_eq_some_iff_released { launch with memento := launched.memento } hl).trans ?_
    constructor
    · rintro ⟨gone, ⟨hfull, hnew, hlast⟩, hrest⟩
      exact ⟨gone, ⟨launched, heligible, hfull, hnew, hlast⟩, hrest⟩
    · rintro ⟨gone, ⟨launched', heligible', hfull, hnew, hlast⟩, hrest⟩
      have hsame := eligible?_eq_some_iff.2 heligible'
      rw [hsome] at hsame
      cases hsame
      exact ⟨gone, ⟨hfull, hnew, hlast⟩, hrest⟩

/-! ## What the history depends on -/

/-- The memento that a launch is remembered by. -/
theorem map_memento_eligible? (S : Store σ) (s : σ) (m : Memento) (mode : Mode) :
    (eligible? S s m mode).map (·.memento) =
      (S.launchable? s m).bind fun (memento, isPrivate, modes) =>
        if !isPrivate && modes.contains mode then some memento else none := by
  unfold eligible? Store.launchable?
  rcases S.resolve s m with e | _ | c
  · rfl
  · rfl
  · exact apply_ite (Option.map Configuration.memento) _ (some c) none

theorem remember_congr {same same' : Recent.Sameness} {entry : Launch}
    (hs : ∀ e ∈ h.list entry.mode, same e.memento entry.memento = same' e.memento entry.memento) :
    remember same h entry = remember same' h entry := by
  unfold remember
  rw [Recent.promote_congr hs]

/-- A record does the same to a history over two stores that judge the launch alike, whatever they say of an evicted
entry and of its deletion. -/
theorem record_congr (hj : S.launchable? s launch.memento = T.launchable? t launch.memento)
    (hs : ∀ launched, S.resolve s launch.memento = .ok (some launched) → ∀ e ∈ h.list launch.mode,
      S.same s e.memento launched.memento = T.same t e.memento launched.memento) :
    (record S s h launch).recorded = (record T t h launch).recorded ∧
      (record S s h launch).history = (record T t h launch).history := by
  have hkey : (eligible? S s launch.memento launch.mode).map (·.memento) =
      (eligible? T t launch.memento launch.mode).map (·.memento) := by
    rw [map_memento_eligible?, map_memento_eligible?, hj]
  rcases record_cases S s h launch with ⟨hn, hr⟩ | ⟨c, entry, hc, rfl, hr⟩ <;>
    rcases record_cases T t h launch with ⟨hn', hr'⟩ | ⟨c', entry', hc', rfl, hr'⟩ <;> rw [hr, hr']
  · exact ⟨rfl, rfl⟩
  · rw [hn, hc'] at hkey
    cases hkey
  · rw [hc, hn'] at hkey
    cases hkey
  · rw [hc, hc'] at hkey
    have hm : c.memento = c'.memento := Option.some.inj hkey
    rw [← hm]
    exact ⟨rfl, remember_congr (hs c (eligible?_eq_some_iff.1 hc).1)⟩

theorem Recording.verdict_congr {r : Recording σ} {r' : Recording τ} (hr : r.recorded = r'.recorded)
    (hh : r.history = r'.history) : r.verdict = r'.verdict := by
  unfold verdict
  rw [hr, hh]

/-- The one deletion that a record can ask for, over any store. At most one is asked for. It is that of what the
entry resolves to which the launch displaces, if this is transient and the other list has nothing of its content,
with the entry of that list as the first one compared. And what the store says of that entry, and makes of the
request, is nothing to the history: over another store, that only agrees on the memento, the privacy and the modes of
what is launched and on which entries of its list are of the same content, a record leaves the same history and gives
the same answer. -/
theorem requests_of_record (S : Store σ) (s : σ) (h : History) (hl : ∀ m, (h.list m).length ≤ Recent.capacity)
    (launch : Launch) :
    (requests S s h launch).length ≤ 1 ∧
    (∀ c, c ∈ requests S s h launch ↔
      ∃ gone, Displaces S s h launch gone ∧
        (∀ e ∈ h.list launch.mode.other, S.same s e.memento gone.memento = false) ∧
        S.resolve s gone.memento = .ok (some c) ∧ c.isTransient = true) ∧
    ∀ {τ : Type} (T : Store τ) (t : τ), S.launchable? s launch.memento = T.launchable? t launch.memento →
      (∀ launched, S.resolve s launch.memento = .ok (some launched) → ∀ e ∈ h.list launch.mode,
        S.same s e.memento launched.memento = T.same t e.memento launched.memento) →
      (record S s h launch).history = (record T t h launch).history ∧
        (record S s h launch).verdict = (record T t h launch).verdict := by
  refine ⟨?_, fun c => mem_requests_iff (hl launch.mode), fun T t hj hs => ?_⟩
  · rw [requests_eq]
    exact Option.length_toList_le
  · obtain ⟨hrecorded, hhistory⟩ := record_congr hj hs
    exact ⟨hhistory, Recording.verdict_congr hrecorded hhistory⟩

end History

namespace Shelf

/-- A full list of runs. -/
def crowded : History where
  run := ["a", "b", "c", "d", "e"].map fun m => ⟨m, .run, m⟩

/-- Everything on it is transient, and what is asked for is deleted. -/
def obliging : Shelf where
  configurations := ["a", "b", "c", "d", "e", "f"].map Book.passing

/-- What is launched is not transient, the oldest entry cannot be looked up, and nothing is deleted. -/
def reluctant : Shelf where
  configurations := [{ Book.passing "f" with isTransient := false }]
  unresolvable := ["e"]
  readOnly := true

/-- The oldest entry goes, and its configuration with it on the one shelf; the other is not even asked. -/
theorem requests_of_crowded :
    (∀ m, (crowded.list m).length ≤ Recent.capacity) ∧
    History.requests store obliging crowded ⟨"f", .run, "f"⟩ = [Book.passing "e"] ∧
    History.requests store reluctant crowded ⟨"f", .run, "f"⟩ = [] ∧
    (History.record store obliging crowded ⟨"f", .run, "f"⟩).history =
      (History.record store reluctant crowded ⟨"f", .run, "f"⟩).history ∧
    (History.record store obliging crowded ⟨"f", .run, "f"⟩).verdict =
      (History.record store reluctant crowded ⟨"f", .run, "f"⟩).verdict := by
  have hl : ∀ m, (crowded.list m).length ≤ Recent.capacity := by
    intro m
    cases m <;> decide
  have h := History.requests_of_record store obliging crowded hl ⟨"f", .run, "f"⟩
  obtain ⟨hone, hmem, hblind⟩ := h
  have hgone : Book.passing "e" ∈ History.requests store obliging crowded ⟨"f", .run, "f"⟩ := by
    refine (hmem _).2 ⟨⟨"e", .run, "e"⟩, ⟨Book.passing "f", ?_⟩, ?_⟩ <;> decide +kernel
  refine ⟨hl, ?_, ?_, hblind store reluctant (by decide +kernel) ?_⟩
  · rcases hr : History.requests store obliging crowded ⟨"f", .run, "f"⟩ with _ | ⟨c, rest⟩
    · rw [hr] at hgone
      cases hgone
    · rw [hr] at hone hgone
      have hrest : rest = [] := List.length_eq_zero_iff.1 (by simpa using hone)
      subst hrest
      rw [List.mem_singleton.1 hgone]
  · decide +kernel
  · intro launched _ e _
    rfl

end Shelf

end RecentLaunches
