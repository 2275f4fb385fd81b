/-
Recording a launch with a store that keeps configurations under their own mementos. Whatever the
history was, a record adds at most the launch under the memento that it was launched by; the rules of
the lists are kept, so that no breach is found; and the configuration that goes with an evicted entry is
never that of a launch which is left.
-/
import RecentLaunches.Proofs.History.Launches
import RecentLaunches.Proofs.Store.Keyed

namespace RecentLaunches.History

variable {σ : Type} {S : Store σ} {s : σ} {h : History} {launch : Launch}

/-! ## What a record can do -/

theorem eligible?_eq_some_iff {m : Memento} {mode : Mode} {c : Configuration} :
    eligible? S s m mode = some c ↔
      S.resolve s m = .ok (some c) ∧ c.isPrivate = false ∧ c.supports mode = true := by
  unfold eligible?
  rcases S.resolve s m with e | _ | c'
  · simp
  · simp
  · show (if (!c'.isPrivate && c'.supports mode) = true then some c' else none) = some c ↔ _
    by_cases hc : (!c'.isPrivate && c'.supports mode) = true
    · rw [if_pos hc]
      rw [Bool.and_eq_true, Bool.not_eq_true'] at hc
      constructor
      · intro he; cases he; exact ⟨rfl, hc⟩
      · rintro ⟨he, -⟩; cases he; rfl
    · rw [if_neg hc]
      rw [Bool.and_eq_true, Bool.not_eq_true'] at hc
      constructor
      · intro he; cases he
      · rintro ⟨he, hc'⟩; cases he; exact absurd hc' hc

theorem released?_eq_some_iff {mode : Mode} {evicted : Launch} {c : Configuration} :
    released? S s h mode evicted = some c ↔
      (∀ e ∈ h.list mode.other, S.same s e.memento evicted.memento = false) ∧
        S.resolve s evicted.memento = .ok (some c) ∧ c.isTransient = true := by
  rw [← Recent.remembers_eq_false_iff]
  unfold released?
  rcases Recent.remembers (S.same s) evicted.memento (h.list mode.other) with _ | _
  · rcases S.resolve s evicted.memento with e | _ | c'
    · simp
    · simp
    · show (if c'.isTransient = true then some c' else none) = some c ↔ _
      split_ifs with ht
      · constructor
        · intro hc; cases hc; exact ⟨rfl, rfl, ht⟩
        · rintro ⟨-, hc, -⟩; cases hc; rfl
      · refine iff_of_false (by simp) ?_
        rintro ⟨-, hc, hc'⟩
        cases hc
        exact ht hc'
  · simp

/-- The history after a launch is remembered by an entry. -/
def remember (same : Recent.Sameness) (h : History) (entry : Launch) : History :=
  { h.withList entry.mode (Recent.promote same entry (h.list entry.mode)).launches with
    latest := some entry }

/-- The configuration that goes when a launch is remembered by an entry. -/
def requested? (S : Store σ) (s : σ) (h : History) (entry : Launch) : Option Configuration :=
  (Recent.promote (S.same s) entry (h.list entry.mode)).evicted.bind
    (released? S s (remember (S.same s) h entry) entry.mode)

/-- The store after a request. -/
def afterRequest (S : Store σ) (s : σ) : Option Configuration → σ
  | some c => (S.delete s c).2
  | none => s

/-- All that a record can do: nothing, or remember the launch under the memento of its configuration. -/
theorem record_cases (S : Store σ) (s : σ) (h : History) (launch : Launch) :
    (eligible? S s launch.memento launch.mode = none ∧ record S s h launch = ⟨false, h, s, none⟩) ∨
    ∃ c entry, eligible? S s launch.memento launch.mode = some c ∧
      entry = { launch with memento := c.memento } ∧
      record S s h launch =
        ⟨true, remember (S.same s) h entry, afterRequest S s (requested? S s h entry),
          requested? S s h entry⟩ := by
  rcases hc : eligible? S s launch.memento launch.mode with _ | c
  · refine .inl ⟨rfl, ?_⟩
    rw [record, hc]
  · refine .inr ⟨c, _, rfl, rfl, ?_⟩
    rw [record, hc]
    rfl

theorem store_record (S : Store σ) (s : σ) (h : History) (launch : Launch) :
    (record S s h launch).store = afterRequest S s (record S s h launch).requested := by
  rcases record_cases S s h launch with ⟨-, hr⟩ | ⟨c, entry, -, -, hr⟩ <;> rw [hr]
  rfl

/-! ## The launches after a record -/

theorem list_remember (same : Recent.Sameness) (h : History) (entry : Launch) (m : Mode) :
    (remember same h entry).list m =
      if m = entry.mode then (Recent.promote same entry (h.list entry.mode)).launches else h.list m := by
  rw [← list_withList]
  cases m <;> rfl

theorem list_remember_other (same : Recent.Sameness) (h : History) (entry : Launch) :
    (remember same h entry).list entry.mode.other = h.list entry.mode.other := by
  rw [list_remember, if_neg (by cases entry.mode <;> decide)]

/-- What is released by an eviction is asked of the lists as they were: the other list does not change. -/
theorem requested?_eq_some_iff_released {c : Configuration} (entry : Launch)
    (hl : (h.list entry.mode).length ≤ Recent.capacity) :
    requested? S s h entry = some c ↔
      ∃ gone, ((h.list entry.mode).length = Recent.capacity ∧
          (∀ e ∈ h.list entry.mode, S.same s e.memento entry.memento = false) ∧
          (h.list entry.mode).getLast? = some gone) ∧
        (∀ e ∈ h.list entry.mode.other, S.same s e.memento gone.memento = false) ∧
        S.resolve s gone.memento = .ok (some c) ∧ c.isTransient = true := by
  unfold requested?
  rw [Option.bind_eq_some_iff]
  simp only [Recent.evicted_promote_eq_some_iff hl, released?_eq_some_iff, list_remember_other]

theorem mem_launches_remember {same : Recent.Sameness} {entry e : Launch}
    (he : e ∈ (remember same h entry).launches) : e ∈ h.launches ∨ e = entry := by
  rw [mem_launches] at he
  rcases he with ⟨m, hm⟩ | hl
  · rw [list_remember] at hm
    split_ifs at hm
    · rcases Recent.mem_promote (List.mem_append_left _ hm) with hm | rfl
      · exact .inl (mem_launches.2 (.inl ⟨_, hm⟩))
      · exact .inr rfl
    · exact .inl (mem_launches.2 (.inl ⟨m, hm⟩))
  · cases hl
    exact .inr rfl

theorem WF.remember {same : Recent.Sameness} (hs : ∀ a b, same a b = true ↔ a = b) (hw : h.WF)
    (entry : Launch) : (remember same h entry).WF := by
  intro m
  rw [list_remember]
  split_ifs with hm
  · rw [hm]
    exact (hw entry.mode).promote hs rfl
  · exact hw m

theorem eq_other_of_ne {m n : Mode} (h : m ≠ n) : m = n.other := by
  cases m <;> cases n <;> first | rfl | exact absurd rfl h

/-- The configuration that goes is that of the evicted entry: no launch which is left has its memento.
In the list of the entry's mode mementos differ, the list of the other mode was asked, and the latest
launch is of the configuration at the head of the list. -/
theorem ne_of_requested? (hS : S.Keyed) (hw : h.WF) {entry : Launch} {c : Configuration}
    (hc : requested? S s h entry = some c) {e : Launch}
    (he : e ∈ (remember (S.same s) h entry).launches) : e.memento ≠ c.memento := by
  obtain ⟨gone, hgone, hrel⟩ := Option.bind_eq_some_iff.1 hc
  obtain ⟨hother, hres, -⟩ := released?_eq_some_iff.1 hrel
  have hmem : c.memento = gone.memento := hS.memento_of_resolve hres
  rw [hmem]
  have hexact := hS.same_iff s
  have hown : ∀ x ∈ (Recent.promote (S.same s) entry (h.list entry.mode)).launches,
      x.memento ≠ gone.memento :=
    fun x hx => Recent.ne_of_evicted hexact (hw entry.mode) hgone hx
  rw [mem_launches] at he
  rcases he with ⟨m, hm⟩ | hl
  · by_cases hmode : m = entry.mode
    · rw [list_remember, if_pos hmode] at hm
      exact hown e hm
    · rw [eq_other_of_ne hmode] at hm
      intro heg
      have hsame := (hexact _ _).2 heg
      rw [hother e hm] at hsame
      cases hsame
  · cases hl
    -- the list has an entry of the configuration that was launched
    obtain ⟨x, hx, hxe⟩ := Recent.exists_mem_promote (l := h.list entry.mode) ((hexact entry.memento _).2 rfl)
    rw [← (hexact _ _).1 hxe]
    exact hown x hx

/-! ## Records that keep the rules -/

theorem memento_of_eligible? (hS : S.Keyed) {m : Memento} {mode : Mode} {c : Configuration}
    (hc : eligible? S s m mode = some c) : c.memento = m :=
  hS.memento_of_resolve (eligible?_eq_some_iff.1 hc).1

/-- A record adds no launch but the one that is recorded. -/
theorem mem_launches_record (hS : S.Keyed) {e : Launch} (he : e ∈ (record S s h launch).history.launches) :
    e ∈ h.launches ∨ (e = launch ∧ (eligible? S s launch.memento launch.mode).isSome = true) := by
  rcases record_cases S s h launch with ⟨-, hr⟩ | ⟨c, entry, hc, rfl, hr⟩ <;> rw [hr] at he
  · exact .inl he
  · rcases mem_launches_remember he with he | rfl
    · exact .inl he
    · rw [memento_of_eligible? hS hc]
      exact .inr ⟨rfl, by rw [hc]; rfl⟩

theorem WF.record (hS : S.Keyed) (hw : h.WF) (launch : Launch) : (record S s h launch).history.WF := by
  rcases record_cases S s h launch with ⟨-, hr⟩ | ⟨c, entry, -, rfl, hr⟩ <;> rw [hr]
  · exact hw
  · exact hw.remember (hS.same_iff s) _

/-- A launch is answered where the rules hold after it. -/
theorem Recording.verdict_of_wf {r : Recording σ} (hw : r.history.WF) : r.verdict = .ok r.recorded := by
  unfold verdict
  rw [violation?_eq_none_iff.2 hw]
  cases r.recorded <;> rfl

/-- A record is always answered. -/
theorem verdict_record (hS : S.Keyed) (hw : h.WF) (launch : Launch) :
    (record S s h launch).verdict = .ok (record S s h launch).recorded :=
  Recording.verdict_of_wf (hw.record hS launch)

/-- A record takes away at most the configuration whose deletion it requested. -/
theorem resolve_record (hS : S.Keyed) (h : History) (launch : Launch) {m : Memento}
    (hm : ∀ c, (record S s h launch).requested = some c → m ≠ c.memento) :
    S.resolve (record S s h launch).store m = S.resolve s m := by
  rcases record_cases S s h launch with ⟨-, hr⟩ | ⟨c, entry, -, rfl, hr⟩ <;> rw [hr] at hm ⊢
  rcases hq : requested? S s h { launch with memento := c.memento } with _ | gone
  · rfl
  · exact hS.resolve_delete (hm gone hq)

/-- A configuration whose deletion is requested is that of no launch which is left. -/
theorem ne_of_requested (hS : S.Keyed) (hw : h.WF) {c : Configuration}
    (hc : (record S s h launch).requested = some c) {e : Launch}
    (he : e ∈ (record S s h launch).history.launches) : e.memento ≠ c.memento := by
  rcases record_cases S s h launch with ⟨-, hr⟩ | ⟨c', entry, -, rfl, hr⟩ <;> rw [hr] at hc he
  · cases hc
  · exact ne_of_requested? hS hw hc he

/-- A configuration whose deletion is requested is in the store, and transient. -/
theorem resolve_of_requested (hS : S.Keyed) {c : Configuration}
    (hc : (record S s h launch).requested = some c) :
    S.resolve s c.memento = .ok (some c) ∧ c.isTransient = true := by
  rcases record_cases S s h launch with ⟨-, hr⟩ | ⟨c', entry, -, rfl, hr⟩ <;> rw [hr] at hc
  · cases hc
  · obtain ⟨gone, -, hrel⟩ := Option.bind_eq_some_iff.1 hc
    obtain ⟨-, hres, ht⟩ := released?_eq_some_iff.1 hrel
    rw [hS.memento_of_resolve hres]
    exact ⟨hres, ht⟩

/-! ## Launches with mementos -/

theorem IsNamed.record (hS : S.Keyed) (hs : S.IsNamed s) (hn : h.IsNamed) (launch : Launch) :
    (record S s h launch).history.IsNamed := by
  intro e he hempty
  rcases mem_launches_record hS he with he | ⟨rfl, hel⟩
  · exact hn e he hempty
  · obtain ⟨c, hc⟩ := Option.isSome_iff_exists.1 hel
    have hres := (eligible?_eq_some_iff.1 hc).1
    rw [hempty] at hres
    exact hs c hres

/-- A record saves nothing under the empty memento. -/
theorem isNamed_record (hS : S.Keyed) (hs : S.IsNamed s) (h : History) (launch : Launch) :
    S.IsNamed (record S s h launch).store := by
  intro c
  rw [resolve_record hS h launch]
  · exact hs c
  · intro gone hg he
    have hres := (resolve_of_requested hS hg).1
    rw [← he] at hres
    exact hs gone hres

/-! ## Launches that are not gone -/

/-- No launch of a history is known to be gone from the store. -/
def IsBacked (S : Store σ) (s : σ) (h : History) : Prop :=
  ∀ e ∈ h.launches, S.isGone s e.memento = false

theorem IsBacked.empty (S : Store σ) (s : σ) : empty.IsBacked S s :=
  fun _ he => nomatch he

theorem IsBacked.drop (hb : h.IsBacked S s) (gone : Launch → Bool) : (h.drop gone).IsBacked S s :=
  fun e he => hb e (mem_launches_drop.1 he).1

/-- After pruning no launch is gone. -/
theorem isBacked_prune (S : Store σ) (s : σ) (h : History) : (h.prune S s).IsBacked S s :=
  fun _ he => (mem_launches_drop.1 he).2

/-- Pruning finds nothing where no launch is gone. -/
theorem IsBacked.prune_eq (hb : h.IsBacked S s) : h.prune S s = h :=
  drop_eq_self hb

/-- A record leaves no launch behind whose configuration it took away. -/
theorem IsBacked.record (hS : S.Keyed) (hw : h.WF) (hb : h.IsBacked S s) (launch : Launch) :
    (record S s h launch).history.IsBacked S (record S s h launch).store := by
  intro e he
  have hsame : S.resolve (History.record S s h launch).store e.memento = S.resolve s e.memento :=
    resolve_record hS h launch fun c hc => ne_of_requested hS hw hc he
  rw [Store.isGone_congr hsame]
  rcases mem_launches_record hS he with he | ⟨rfl, hel⟩
  · exact hb e he
  · obtain ⟨c, hc⟩ := Option.isSome_iff_exists.1 hel
    rw [Store.isGone_eq_false_iff, (eligible?_eq_some_iff.1 hc).1]
    simp

end RecentLaunches.History
