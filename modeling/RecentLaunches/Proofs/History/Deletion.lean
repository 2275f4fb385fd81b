/-
What becomes of the configurations in a store as launches are recorded. A transient configuration is spent
once it was launched and no list remembers it any more. The deletion of a configuration is requested by the
record that takes it out of its last list, and by no other; so at any time the store holds what it held in
the beginning but for the spent configurations.
-/
import RecentLaunches.Proofs.History.Ranking

namespace RecentLaunches

open Recent (mementos)

namespace History

variable {σ : Type} {S : Store σ} {s : σ} {h : History} {m : Memento} {entry : Launch} {c : Configuration}

/-! ## Mementos in the lists -/

/-- Whether one of the lists remembers a memento. -/
def listed (h : History) (m : Memento) : Bool :=
  Mode.all.any fun mode => (mementos (h.list mode)).contains m

theorem listed_iff : h.listed m = true ↔ ∃ mode, m ∈ mementos (h.list mode) := by
  unfold listed
  rw [List.any_eq_true]
  constructor
  · rintro ⟨mode, -, hm⟩
    exact ⟨mode, List.contains_iff_mem.1 hm⟩
  · rintro ⟨mode, hm⟩
    exact ⟨mode, Mode.mem_all mode, List.contains_iff_mem.2 hm⟩

/-- Remembering a launch adds its memento and loses at most that of the evicted entry. -/
theorem listed_remember {same : Recent.Sameness} (hs : ∀ a b, same a b = true ↔ a = b) (entry : Launch) :
    ((remember same h entry).listed m = true ∨
        ∃ gone, (Recent.promote same entry (h.list entry.mode)).evicted = some gone ∧ gone.memento = m) ↔
      h.listed m = true ∨ m = entry.memento := by
  have hkey := Recent.mem_mementos_promote (l := h.list entry.mode) hs (e := entry) (m := m)
  rw [Recent.mementos_append, List.mem_append] at hkey
  have hgone : m ∈ mementos (Recent.promote same entry (h.list entry.mode)).evicted.toList ↔
      ∃ gone, (Recent.promote same entry (h.list entry.mode)).evicted = some gone ∧ gone.memento = m := by
    simp [mementos]
  rw [hgone] at hkey
  rw [listed_iff, listed_iff]
  simp only [list_remember]
  constructor
  · rintro (⟨mode, hm⟩ | hg)
    · split_ifs at hm
      · exact (hkey.1 (.inl hm)).imp_left fun hm => ⟨_, hm⟩
      · exact .inl ⟨mode, hm⟩
    · exact (hkey.1 (.inr hg)).imp_left fun hm => ⟨_, hm⟩
  · intro hm
    by_cases hown : m ∈ mementos (h.list entry.mode) ∨ m = entry.memento
    · refine (hkey.2 hown).imp_left fun hm => ⟨entry.mode, ?_⟩
      rwa [if_pos rfl]
    · -- then it is in the list of the other mode
      rw [not_or] at hown
      obtain ⟨mode, hm⟩ := hm.resolve_right hown.2
      refine .inl ⟨mode, ?_⟩
      rw [if_neg]
      · exact hm
      · rintro rfl
        exact hown.1 hm

theorem listed_remember_self {same : Recent.Sameness} (hs : ∀ a b, same a b = true ↔ a = b) (h : History)
    (entry : Launch) : (remember same h entry).listed entry.memento = true := by
  obtain ⟨x, hx, hxe⟩ :=
    Recent.exists_mem_promote (l := h.list entry.mode) ((hs entry.memento entry.memento).2 rfl)
  rw [listed_iff]
  refine ⟨entry.mode, ?_⟩
  rw [list_remember, if_pos rfl, ← (hs _ _).1 hxe]
  exact List.mem_map_of_mem hx

/-! ## Requests -/

/-- The configuration that goes is transient and leaves its last list. -/
theorem requested?_eq_some_iff (hS : S.Keyed) (hw : h.WF) :
    requested? S s h entry = some c ↔
      S.resolve s c.memento = .ok (some c) ∧ c.isTransient = true ∧ h.listed c.memento = true ∧
        (remember (S.same s) h entry).listed c.memento = false := by
  have hs := hS.same_iff s
  constructor
  · intro hq
    have hleft : ∀ e ∈ (remember (S.same s) h entry).launches, e.memento ≠ c.memento :=
      fun e he => ne_of_requested? hS hw hq he
    obtain ⟨gone, hgone, hrel⟩ := Option.bind_eq_some_iff.1 hq
    obtain ⟨-, hres, ht⟩ := released?_eq_some_iff.1 hrel
    have hmem : c.memento = gone.memento := hS.memento_of_resolve hres
    refine ⟨hmem ▸ hres, ht, ?_, ?_⟩
    · refine ((listed_remember hs entry).1 (.inr ⟨gone, hgone, hmem.symm⟩)).resolve_right fun he => ?_
      exact hleft entry (mem_launches.2 (.inr rfl)) he.symm
    · rw [← Bool.not_eq_true, listed_iff]
      rintro ⟨mode, hm⟩
      obtain ⟨e, he, hec⟩ := List.mem_map.1 hm
      exact hleft e (mem_launches.2 (.inl ⟨mode, he⟩)) hec
  · rintro ⟨hres, ht, hbefore, hafter⟩
    rw [← Bool.not_eq_true] at hafter
    obtain ⟨gone, hgone, hmem⟩ := ((listed_remember hs entry).2 (.inl hbefore)).resolve_left hafter
    refine Option.bind_eq_some_iff.2 ⟨gone, hgone, released?_eq_some_iff.2 ⟨?_, ?_, ht⟩⟩
    · intro e he
      rw [← Bool.not_eq_true]
      intro hsame
      refine hafter (listed_iff.2 ⟨entry.mode.other, ?_⟩)
      rw [← hmem, ← (hs _ _).1 hsame]
      exact List.mem_map_of_mem he
    · rw [hmem]
      exact hres

/-- Whether a configuration is transient and leaves its last list between two histories. -/
def leaves (h h' : History) (c : Configuration) : Bool :=
  c.isTransient && h.listed c.memento && !h'.listed c.memento

theorem leaves_iff {h' : History} :
    leaves h h' c = true ↔
      c.isTransient = true ∧ h.listed c.memento = true ∧ h'.listed c.memento = false := by
  unfold leaves
  rw [Bool.and_eq_true, Bool.and_eq_true, Bool.not_eq_true', and_assoc]

/-- A record requests the deletion of a configuration exactly if that leaves its last list. -/
theorem requested_eq_some_iff (hS : S.Keyed) (hw : h.WF) (launch : Launch) :
    (record S s h launch).requested = some c ↔
      S.resolve s c.memento = .ok (some c) ∧ leaves h (record S s h launch).history c = true := by
  rw [leaves_iff]
  rcases record_cases S s h launch with ⟨-, hr⟩ | ⟨c', entry, -, -, hr⟩ <;> rw [hr]
  · refine iff_of_false (by simp) ?_
    rintro ⟨-, -, hbefore, hafter⟩
    rw [hbefore] at hafter
    cases hafter
  · exact requested?_eq_some_iff hS hw

/-- A record takes the configuration that leaves its last list out of the store, and nothing else. -/
theorem resolve_record_eq (hS : S.Obedient) (hw : h.WF) (launch : Launch) (m : Memento) :
    S.resolve (record S s h launch).store m =
      (S.resolve s m).map (Option.filter fun c => !leaves h (record S s h launch).history c) := by
  have hrequest := fun c => requested_eq_some_iff (s := s) (c := c) hS.toKeyed hw launch
  -- the look-up changes only for the configuration that is requested, which is the one found there
  have hsame : (∀ c, S.resolve s m = .ok (some c) → (record S s h launch).requested ≠ some c) →
      S.resolve (record S s h launch).store m = S.resolve s m := by
    intro hn
    refine resolve_record hS.toKeyed h launch fun c hc hm => ?_
    rw [hm] at hn
    exact hn c ((hrequest c).1 hc).1 hc
  rcases hres : S.resolve s m with e | _ | c
  · rw [hsame (fun c hc => by rw [hres] at hc; cases hc), hres]
    rfl
  · rw [hsame (fun c hc => by rw [hres] at hc; cases hc), hres]
    rfl
  · have hm : c.memento = m := hS.memento_of_resolve hres
    subst hm
    by_cases hq : (record S s h launch).requested = some c
    · have hleaves := ((hrequest c).1 hq).2
      rw [store_record, hq]
      show S.resolve (S.delete s c).2 c.memento = _
      rw [hS.resolve_delete_self hres]
      simp [Except.map, Option.filter, hleaves]
    · have hleaves : leaves h (record S s h launch).history c ≠ true :=
        fun hl => hq ((hrequest c).2 ⟨hres, hl⟩)
      rw [hsame, hres]
      · simp [Except.map, Option.filter, hleaves]
      · intro c' hc'
        rw [hres] at hc'
        cases hc'
        exact hq

/-! ## Spent configurations -/

/-- Whether a configuration is transient, was launched by a log, and is not remembered any more. -/
def spent (log : List Launch) (h : History) (c : Configuration) : Bool :=
  c.isTransient && (mementos log).contains c.memento && !h.listed c.memento

theorem spent_iff {log : List Launch} :
    spent log h c = true ↔
      c.isTransient = true ∧ c.memento ∈ mementos log ∧ h.listed c.memento = false := by
  unfold spent
  rw [Bool.and_eq_true, Bool.and_eq_true, List.contains_iff_mem, Bool.not_eq_true', and_assoc]

end History

namespace Book

open History (spent leaves)

variable {σ : Type} {S : Store σ} {b : Book σ} {log : List Launch} {s : σ} {c : Configuration}

theorem Tells.mem_log (hb : b.Tells log) {m : Memento} (hm : b.history.listed m = true) :
    m ∈ mementos log := by
  obtain ⟨mode, hm⟩ := History.listed_iff.1 hm
  rw [hb.lists] at hm
  have hall : m ∈ mementos (Recent.unbounded (ofMode mode log)) :=
    (List.take_sublist _ _).map _ |>.subset hm
  rw [Recent.mementos_unbounded, Recent.mem_ranking] at hall
  exact (List.filter_sublist.map _).subset hall

/-- An accepted launch is of a configuration in the store, and is remembered as it is. -/
theorem record_of_answer (hS : S.Keyed) {launch : Launch} (ha : b.answer S launch = .ok true) :
    (∃ found, S.resolve b.store launch.memento = .ok (some found)) ∧
      (b.record S launch).history = b.history.remember (S.same b.store) launch := by
  rcases History.record_cases S b.store b.history launch with ⟨-, hr⟩ | ⟨found, entry, hfound, rfl, hr⟩
  · unfold Book.answer at ha
    rw [hr] at ha
    cases ha
  · refine ⟨⟨found, (History.eligible?_eq_some_iff.1 hfound).1⟩, ?_⟩
    unfold Book.record
    rw [hr, History.memento_of_eligible? hS hfound]

/-- After an accepted launch those configurations are spent that were before, or leave their last list by
it. The launched configuration itself was not spent. -/
theorem spent_record (hS : S.Keyed) (hb : b.Tells log) {launch : Launch}
    (ha : b.answer S launch = .ok true) (hc : spent log b.history c = true → c.memento ≠ launch.memento) :
    spent (log ++ [launch]) (b.record S launch).history c = true ↔
      spent log b.history c = true ∨ leaves b.history (b.record S launch).history c = true := by
  have hs := hS.same_iff b.store
  have hself := History.listed_remember_self hs b.history launch
  have hlisted := History.listed_remember (h := b.history) (m := c.memento) hs launch
  have hlog : c.memento ∈ mementos (log ++ [launch]) ↔
      c.memento ∈ mementos log ∨ c.memento = launch.memento := by
    simp [mementos]
  rw [(record_of_answer hS ha).2, History.spent_iff, History.spent_iff, History.leaves_iff, hlog]
  constructor
  · rintro ⟨ht, hm, hafter⟩
    have hne : c.memento ≠ launch.memento := by
      intro he
      rw [he, hself] at hafter
      cases hafter
    rcases hbefore : b.history.listed c.memento with _ | _
    · exact .inl ⟨ht, hm.resolve_right hne, rfl⟩
    · exact .inr ⟨ht, rfl, hafter⟩
  · rintro (⟨ht, hm, hbefore⟩ | ⟨ht, hbefore, hafter⟩)
    · refine ⟨ht, .inl hm, ?_⟩
      rw [← Bool.not_eq_true]
      intro hafter
      rcases hlisted.1 (.inl hafter) with hl | he
      · rw [hbefore] at hl
        cases hl
      · exact hc (History.spent_iff.2 ⟨ht, hm, hbefore⟩) he
    · exact ⟨ht, .inl (hb.mem_log hbefore), hafter⟩

/-- A book whose store holds what another store held but for the spent configurations. -/
structure Accounts (S : Store σ) (s : σ) (log : List Launch) (b : Book σ) : Prop where
  tells : b.Tells log
  held : ∀ m, S.resolve b.store m = (S.resolve s m).map (Option.filter fun c => !spent log b.history c)

theorem Accounts.empty (S : Store σ) (s : σ) : (Book.mk s .empty).Accounts S s [] where
  tells := .empty s
  held := by
    intro m
    have hnone : ∀ c, spent [] .empty c = false := by
      intro c
      simp [spent, mementos]
    rcases S.resolve s m with e | _ | c <;> simp [Except.map, Option.filter, hnone]

theorem Accounts.record (hS : S.Obedient) (hb : b.Accounts S s log) (launch : Launch) :
    (b.answer S launch = .ok true ∧ (b.record S launch).Accounts S s (log ++ [launch])) ∨
      (b.answer S launch ≠ .ok true ∧ (b.record S launch).Accounts S s log) := by
  rcases hb.tells.record hS.toKeyed launch with ⟨ha, htells⟩ | ⟨ha, hnext⟩
  · refine .inl ⟨ha, htells, fun m => ?_⟩
    have hstep : S.resolve (b.record S launch).store m = (S.resolve b.store m).map
        (Option.filter fun c => !leaves b.history (b.record S launch).history c) :=
      History.resolve_record_eq hS hb.tells.wf launch m
    rw [hstep, hb.held m]
    rcases hres : S.resolve s m with e | _ | c
    · rfl
    · rfl
    have hm : c.memento = m := hS.memento_of_resolve hres
    subst hm
    have hspent : spent (log ++ [launch]) (b.record S launch).history c =
        (spent log b.history c || leaves b.history (b.record S launch).history c) := by
      rw [Bool.eq_iff_iff, Bool.or_eq_true]
      refine spent_record hS.toKeyed hb.tells ha fun hs he => ?_
      -- what is spent is not found any more, so it is not launched
      have hgone := hb.held c.memento
      rw [hres, he] at hgone
      obtain ⟨found, hfound⟩ := (record_of_answer hS.toKeyed ha).1
      rw [hfound] at hgone
      simp [Except.map, Option.filter, hs] at hgone
    simp only [Except.map, Option.filter_some, hspent]
    rcases spent log b.history c with _ | _ <;> simp [Option.filter_some]
  · refine .inr ⟨ha, ?_⟩
    rw [hnext]
    exact hb

theorem Accounts.recordAll (hS : S.Obedient) (launches : List Launch) (hb : b.Accounts S s log) :
    (b.recordAll S launches).Accounts S s (log ++ b.accepted S launches) :=
  recordAll_keeps (I := fun log b => b.Accounts S s log) (fun _ _ launch hb => hb.record hS launch) launches hb

/-- Automatic deletion is exact. With a database, from the empty history on, a series of launches leaves in
the store what was there in the beginning but for the spent configurations: the transient ones that were
launched and that no list remembers any more. A further record requests the deletion of a configuration
exactly if that is in the store and leaves its last list by it, and takes nothing else away. -/
theorem resolve_of_recordAll (d : Database) (launches : List Launch) :
    let b := (Book.mk d .empty).recordAll Database.store launches
    let log := (Book.mk d .empty).accepted Database.store launches
    (∀ m, Database.store.resolve b.store m =
      (Database.store.resolve d m).map (Option.filter fun c => !spent log b.history c)) ∧
    ∀ launch, let next := History.record Database.store b.store b.history launch
      (∀ c, next.requested = some c ↔
        Database.store.resolve b.store c.memento = .ok (some c) ∧ leaves b.history next.history c = true) ∧
      ∀ m, Database.store.resolve next.store m =
        (Database.store.resolve b.store m).map (Option.filter fun c => !leaves b.history next.history c) := by
  intro b log
  have hb : b.Accounts Database.store d log :=
    (Accounts.empty Database.store d).recordAll Database.obedient_store launches
  refine ⟨hb.held, fun launch => ⟨fun c => ?_, fun m => ?_⟩⟩
  · exact History.requested_eq_some_iff Database.keyed_store hb.tells.wf launch
  · exact History.resolve_record_eq Database.obedient_store hb.tells.wf launch m

end Book

end RecentLaunches
