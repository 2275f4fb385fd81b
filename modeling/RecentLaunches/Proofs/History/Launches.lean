/-
All the launches that a history holds, in its lists and as the latest one, and how they change: the
removals take away what passes their test, and recording a launch adds at most that launch. The rules
of the lists are kept by all of these where the store tells configurations apart by their mementos.
-/
import RecentLaunches.History
import RecentLaunches.Proofs.Recent.Rules

namespace RecentLaunches.History

/-! ## The launches of a history -/

/-- The launches that a history holds, in the order in which they are written. -/
def launches (h : History) : List Launch :=
  Mode.all.flatMap h.list ++ h.latest.toList

theorem mem_launches {h : History} {e : Launch} :
    e ∈ h.launches ↔ (∃ m, e ∈ h.list m) ∨ h.latest = some e := by
  unfold launches
  rw [List.mem_append, List.mem_flatMap, Option.mem_toList]
  constructor
  · rintro (⟨m, -, hm⟩ | h)
    · exact .inl ⟨m, hm⟩
    · exact .inr h
  · rintro (⟨m, hm⟩ | h)
    · exact .inl ⟨m, Mode.mem_all m, hm⟩
    · exact .inr h

/-- Whether every launch of a history has a memento. -/
def IsNamed (h : History) : Prop :=
  ∀ e ∈ h.launches, e.memento ≠ ""

instance (h : History) : Decidable h.IsNamed :=
  inferInstanceAs (Decidable (∀ e ∈ h.launches, e.memento ≠ ""))

@[simp] theorem withList_list (h : History) (m : Mode) : h.withList m (h.list m) = h := by
  cases m <;> rfl

@[simp] theorem withList_withList (h : History) (m : Mode) (a b : Recent) :
    (h.withList m a).withList m b = h.withList m b := by
  cases m <;> rfl

theorem list_withList (h : History) (m : Mode) (l : Recent) (n : Mode) :
    (h.withList m l).list n = if n = m then l else h.list n := by
  cases m <;> cases n <;> rfl

/-- A history with another list holds no launches but those of the list and the old ones. -/
theorem mem_launches_withList {h : History} {m : Mode} {l : Recent} {e : Launch}
    (he : e ∈ (h.withList m l).launches) : e ∈ l ∨ e ∈ h.launches := by
  rw [mem_launches, latest_withList] at he
  rcases he with ⟨n, hn⟩ | he
  · rw [list_withList] at hn
    split at hn
    · exact .inl hn
    · exact .inr (mem_launches.2 (.inl ⟨n, hn⟩))
  · exact .inr (mem_launches.2 (.inr he))

@[simp] theorem list_empty (m : Mode) : empty.list m = [] := by
  cases m <;> rfl

/-! ## Removals -/

@[simp] theorem list_drop (h : History) (gone : Launch → Bool) (m : Mode) :
    (h.drop gone).list m = (h.list m).filter (!gone ·) := by
  cases m <;> rfl

@[simp] theorem latest_drop (h : History) (gone : Launch → Bool) :
    (h.drop gone).latest = h.latest.filter (!gone ·) := rfl

/-- A removal keeps exactly the launches that do not pass its test. -/
theorem mem_launches_drop {h : History} {gone : Launch → Bool} {e : Launch} :
    e ∈ (h.drop gone).launches ↔ e ∈ h.launches ∧ gone e = false := by
  rw [mem_launches, mem_launches]
  simp only [list_drop, latest_drop, List.mem_filter, Option.filter_eq_some_iff, Bool.not_eq_true']
  constructor
  · rintro (⟨m, h1, h2⟩ | ⟨h1, h2⟩)
    · exact ⟨.inl ⟨m, h1⟩, h2⟩
    · exact ⟨.inr h1, h2⟩
  · rintro ⟨⟨m, h1⟩ | h1, h2⟩
    · exact .inl ⟨m, h1, h2⟩
    · exact .inr ⟨h1, h2⟩

/-- Two tests that agree on the launches of a history take the same away. -/
theorem drop_congr {h : History} {gone gone' : Launch → Bool} (hg : ∀ e ∈ h.launches, gone e = gone' e) :
    h.drop gone = h.drop gone' := by
  have hl : ∀ m, (h.list m).filter (!gone ·) = (h.list m).filter (!gone' ·) := by
    intro m
    refine List.filter_congr fun e he => ?_
    rw [hg e (mem_launches.2 (.inl ⟨m, he⟩))]
  unfold drop keepLatest
  congr 1
  · exact hl .run
  · exact hl .debug
  · rcases hlatest : h.latest with _ | e
    · rfl
    · simp [Option.filter, hg e (mem_launches.2 (.inr hlatest))]

/-- A removal that finds nothing leaves the history as it is. -/
theorem drop_eq_self {h : History} {gone : Launch → Bool} (hn : ∀ e ∈ h.launches, gone e = false) :
    h.drop gone = h := by
  have hnone : h.drop (fun _ => false) = h := by
    obtain ⟨run, debug, latest⟩ := h
    unfold drop keepLatest
    simp only [Bool.not_false, List.filter_true]
    cases latest <;> rfl
  exact (drop_congr hn).trans hnone

/-- A removal leaves nothing for the same one. -/
theorem drop_drop (h : History) (gone : Launch → Bool) : (h.drop gone).drop gone = h.drop gone :=
  drop_eq_self fun _ he => (mem_launches_drop.1 he).2

/-! ## The rules -/

theorem WF.empty : empty.WF := by
  intro m
  rw [list_empty]
  exact .nil m

theorem WF.drop {h : History} (hw : h.WF) (gone : Launch → Bool) : (h.drop gone).WF := by
  intro m
  rw [list_drop]
  exact (hw m).sublist List.filter_sublist

theorem WF.withList {h : History} (hw : h.WF) {m : Mode} {l : Recent} (hl : Recent.WF m l) :
    (h.withList m l).WF := by
  intro n
  rw [list_withList]
  split
  · rename_i hn
    rw [hn]; exact hl
  · exact hw n

/-- Looking for a breach finds none exactly where the rules hold. -/
theorem violation?_eq_none_iff {h : History} : h.violation? = none ↔ h.WF := by
  unfold violation? WF
  rw [List.findSome?_eq_none_iff]
  constructor
  · intro hv m
    exact Recent.violation?_eq_none_iff.1 (hv m (Mode.mem_all m))
  · intro hw m _
    exact Recent.violation?_eq_none_iff.2 (hw m)

/-! ## Sound histories -/

/-- A history that a document can hold: it keeps the rules, and every launch has a memento. -/
structure Sound (h : History) : Prop where
  wf : h.WF
  named : h.IsNamed

theorem Sound.empty : empty.Sound :=
  ⟨.empty, fun _ h => nomatch h⟩

theorem Sound.drop {h : History} (hs : h.Sound) (gone : Launch → Bool) : (h.drop gone).Sound :=
  ⟨hs.wf.drop gone, fun e he => hs.named e (mem_launches_drop.1 he).1⟩

end RecentLaunches.History
