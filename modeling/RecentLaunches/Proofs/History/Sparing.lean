/-
Which configurations are left alone by an eviction, where launches need not have the mementos of their
configurations. The configuration that goes is the one that the evicted entry resolves to; the other list is asked
for its content, and the launch that took the place is of another content. So where references to one
configuration count as the same content, none is taken away that the other list or the latest launch resolves to,
and none at all that is in use as long as contents are apart.
-/
import RecentLaunches.Proofs.History.Contents

namespace RecentLaunches

/-! ## References -/

namespace Store

variable {σ : Type}

/-- References that resolve to one configuration count as the same content. -/
def IsCoherent (S : Store σ) (s : σ) : Prop :=
  ∀ ⦃a b c⦄, S.resolve s a = .ok (some c) → S.resolve s b = .ok (some c) → S.same s a b = true

/-- A configuration that a reference resolves to is what its own memento resolves to. -/
def IsCanonical (S : Store σ) (s : σ) : Prop :=
  ∀ ⦃m c⦄, S.resolve s m = .ok (some c) → S.resolve s c.memento = .ok (some c)

end Store

/-! ## One record -/

namespace History

variable {σ : Type} {S : Store σ} {s : σ} {h : History} {entry : Launch} {c : Configuration}

/-- A request comes from a launch that is remembered. -/
theorem exists_remember_of_requested {launch : Launch} (hc : (record S s h launch).requested = some c) :
    ∃ entry, entry.mode = launch.mode ∧ (record S s h launch).history = remember (S.same s) h entry ∧
      requested? S s h entry = some c := by
  rcases record_cases S s h launch with ⟨-, hr⟩ | ⟨c', entry, -, rfl, hr⟩ <;> rw [hr] at hc ⊢
  · cases hc
  · exact ⟨{ launch with memento := c'.memento }, rfl, rfl, hc⟩

theorem length_list_remember {same : Recent.Sameness} (hl : ∀ m, (h.list m).length ≤ Recent.capacity)
    (entry : Launch) (m : Mode) : ((remember same h entry).list m).length ≤ Recent.capacity := by
  rw [list_remember]
  split_ifs
  · exact Recent.length_promote (hl entry.mode)
  · exact hl m

/-- The configuration that goes is neither what the launch is of nor what an entry of the other list resolves to. -/
theorem resolve_ne_of_requested? (hcoherent : S.IsCoherent s) (hl : ∀ m, (h.list m).length ≤ Recent.capacity)
    (hc : requested? S s h entry = some c) :
    S.resolve s entry.memento ≠ .ok (some c) ∧
      ∀ e ∈ h.list entry.mode.other, S.resolve s e.memento ≠ .ok (some c) := by
  obtain ⟨gone, ⟨-, hnew, hlast⟩, hother, hres, -⟩ := (requested?_eq_some_iff_released entry (hl entry.mode)).1 hc
  refine ⟨fun hentry => ?_, fun e he hres' => ?_⟩
  · have hsame := hcoherent hres hentry
    rw [hnew gone (List.mem_of_getLast? hlast)] at hsame
    cases hsame
  · have hsame := hcoherent hres' hres
    rw [hother e he] at hsame
    cases hsame

/-- Where contents are apart after the launch, the evicted one included, it is not what an entry of the list
resolves to either. -/
theorem resolve_ne_of_apart (hcoherent : S.IsCoherent s)
    (hapart : Recent.Apart (S.same s) ((Recent.promote (S.same s) entry (h.list entry.mode)).launches ++
      (Recent.promote (S.same s) entry (h.list entry.mode)).evicted.toList))
    (hc : requested? S s h entry = some c) :
    ∀ e ∈ (Recent.promote (S.same s) entry (h.list entry.mode)).launches, S.resolve s e.memento ≠ .ok (some c) := by
  obtain ⟨gone, hgone, hrel⟩ := Option.bind_eq_some_iff.1 hc
  obtain ⟨-, hres, -⟩ := released?_eq_some_iff.1 hrel
  intro e he hres'
  have hdiffer := (List.pairwise_append.1 hapart).2.2 e he gone (Option.mem_toList.2 hgone)
  rw [hcoherent hres' hres] at hdiffer
  cases hdiffer

end History

/-! ## Series of launches -/

namespace Book

variable {σ : Type} {S : Store σ} {b : Book σ} {same : Recent.Sameness} {launch : Launch}

/-- Whether a launch is recorded without a request to delete what another launch resolves to. -/
def Spares (S : Store σ) (b : Book σ) (launch e : Launch) : Prop :=
  ∀ c, (b.history.record S b.store launch).requested = some c → S.resolve b.store e.memento ≠ .ok (some c)

theorem length_list_record (hl : ∀ m, (b.history.list m).length ≤ Recent.capacity) (launch : Launch) (m : Mode) :
    ((b.record S launch).history.list m).length ≤ Recent.capacity := by
  show ((History.record S b.store b.history launch).history.list m).length ≤ _
  rcases History.record_cases S b.store b.history launch with ⟨-, hr⟩ | ⟨c, entry, -, -, hr⟩ <;> rw [hr]
  · exact hl m
  · exact History.length_list_remember hl entry m

theorem spares_other (hcoherent : S.IsCoherent b.store) (hl : ∀ m, (b.history.list m).length ≤ Recent.capacity)
    {e : Launch} (he : e ∈ (b.record S launch).history.list launch.mode.other ∨
      (b.record S launch).history.latest = some e) : b.Spares S launch e := by
  intro c hc
  obtain ⟨entry, hmode, hhistory, hreq⟩ := History.exists_remember_of_requested hc
  obtain ⟨hentry, hother⟩ := History.resolve_ne_of_requested? hcoherent hl hreq
  rw [show (b.record S launch).history = _ from hhistory, ← hmode] at he
  rcases he with he | he
  · rw [History.list_remember_other] at he
    exact hother e he
  · cases he
    exact hentry

theorem spares_of_contentWF (hs : Equivalence fun a b => same a b = true) (hsame : S.same b.store = same)
    (hcoherent : S.IsCoherent b.store) (hc : b.history.ContentWF same) {e : Launch}
    (he : e ∈ (b.record S launch).history.launches) : b.Spares S launch e := by
  subst hsame
  have hl : ∀ m, (b.history.list m).length ≤ Recent.capacity := fun m => (hc m).bounded
  rcases History.mem_launches.1 he with ⟨m, hm⟩ | hlatest
  · by_cases hmode : m = launch.mode
    · intro c hreq
      obtain ⟨entry, hentry, hhistory, hreq⟩ := History.exists_remember_of_requested hreq
      rw [show (b.record S launch).history = _ from hhistory, hmode, ← hentry, History.list_remember, if_pos rfl] at hm
      exact History.resolve_ne_of_apart hcoherent (Recent.apart_promote hs (hc entry.mode).apart) hreq e hm
    · rw [History.eq_other_of_ne hmode] at hm
      exact spares_other hcoherent hl (.inl hm)
  · exact spares_other hcoherent hl (.inr hlatest)

/-- Which configurations a series of launches leaves alone, on whatever history was restored. Beside a store where
references to one configuration count as the same content, none is deleted that an entry of the other list or the
latest launch resolves to. If one equivalence says all the time what counts as the same, and the document has no two
entries of one content in a mode, none is deleted that any launch resolves to. -/
theorem along_spares {document : String} {h : History} (hr : Document.restore document = .restored h) (s : σ)
    (launches : List Launch) (hcoherent : Along (record S) (fun b _ => S.IsCoherent b.store) ⟨s, h⟩ launches) :
    Along (record S)
      (fun b launch => ∀ e, e ∈ (b.record S launch).history.list launch.mode.other ∨
        (b.record S launch).history.latest = some e → b.Spares S launch e) ⟨s, h⟩ launches ∧
    ((Equivalence fun a b => same a b = true) →
      Along (record S) (fun b _ => S.same b.store = same) ⟨s, h⟩ launches →
      (∀ m, Recent.Apart same (h.list m)) →
      Along (record S) (fun b launch => ∀ e ∈ (b.record S launch).history.launches, b.Spares S launch e)
        ⟨s, h⟩ launches) := by
  have hw : h.WF := (Document.sound_of_read (Document.restore_eq_restored_iff.1 hr)).wf
  refine ⟨?_, fun hs hsame hapart => ?_⟩
  · have hl : ∀ m, (h.list m).length ≤ Recent.capacity := fun m => (hw m).bounded
    refine (hcoherent.keeps (I := fun b => ∀ m, (b.history.list m).length ≤ Recent.capacity)
      (fun b launch hl hco => ?_) hl).2
    exact ⟨length_list_record hl launch, fun e he => spares_other hco hl he⟩
  · have hc : h.ContentWF same := fun m => ⟨(hw m).bounded, (hw m).ownMode, hapart m⟩
    refine ((hsame.and hcoherent).keeps (I := fun b => b.history.ContentWF same) (fun b launch hc hb => ?_) hc).2
    exact ⟨contentWF_episode hs hb.1 hc (.record launch), fun e he => spares_of_contentWF hs hb.1 hb.2 hc he⟩

end Book

/-! ## Shelves with aliases -/

namespace Shelf

variable {s : Shelf} {m : Memento} {c : Configuration}

theorem resolve_eq_some (h : s.resolve m = .ok (some c)) : s.find? (s.target m) = some c := by
  unfold resolve at h
  split_ifs at h
  exact Except.ok.inj h

theorem memento_of_resolve (h : s.resolve m = .ok (some c)) : c.memento = s.target m := by
  have hfound := List.find?_some (resolve_eq_some h)
  simpa using hfound

/-- References are coherent where an alias counts as the same content as what it is an alias of. -/
theorem isCoherent (hs : Equivalence fun a b => s.equality.holds a b = true)
    (ha : ∀ x ∈ s.aliases, s.equality.holds x.1 x.2 = true) : store.IsCoherent s := by
  have htarget : ∀ m, s.equality.holds m (s.target m) = true := by
    intro m
    unfold target
    rcases hf : s.aliases.find? (·.1 == m) with _ | x <;> rw [hf]
    · exact hs.refl m
    · have hm : x.1 = m := by simpa using List.find?_some hf
      rw [← hm]
      exact ha x (List.mem_of_find?_eq_some hf)
  intro a b c hra hrb
  have hsame : s.target a = s.target b := (memento_of_resolve hra).symm.trans (memento_of_resolve hrb)
  exact hs.trans (hsame ▸ htarget a) (hs.symm (htarget b))

theorem isCanonical (h : ∀ c ∈ s.configurations, s.resolve c.memento = .ok (some c)) : store.IsCanonical s :=
  fun _ c hc => h c (List.mem_of_find?_eq_some (resolve_eq_some hc))

/-- Records leave aliases, and what counts as the same. -/
theorem along_record_coherent {q : Equality} (hs : Equivalence fun a b => q.holds a b = true)
    {aliases : List (Memento × Memento)} (ha : ∀ x ∈ aliases, q.holds x.1 x.2 = true) (launches : List Launch)
    (b : Book Shelf) (hq : b.store.equality = q) (hb : b.store.aliases = aliases) :
    Along (Book.record store) (fun b _ => store.IsCoherent b.store) b launches := by
  have hall : Along (Book.record store) (fun _ _ => True) b launches :=
    .of_forall (fun _ _ => trivial) launches b
  have haliases : ∀ (b : Book Shelf) (launch : Launch), (b.record store launch).store.aliases = b.store.aliases := by
    refine record_keeps Shelf.aliases fun s c => ?_
    unfold delete
    split <;> rfl
  refine (hall.keeps (I := fun b => b.store.equality = q ∧ b.store.aliases = aliases) (fun b launch hb _ => ?_)
    ⟨hq, hb⟩).2
  refine ⟨⟨(equality_record b launch).trans hb.1, (haliases b launch).trans hb.2⟩, isCoherent ?_ ?_⟩
  · rw [hb.1]
    exact hs
  · rw [hb.1, hb.2]
    exact ha

/-- A shelf where one configuration has an alias. -/
def aliased (q : Equality) : Shelf :=
  ⟨["A", "b", "c", "d", "e", "f", "g"].map Book.passing, q, [("A-copy", "A")], [], false, []⟩

/-- The configuration is the oldest in one list, and its alias is in the other. -/
def acrossLists : History where
  run := ["b", "c", "d", "e", "A"].map fun m => ⟨m, .run, m⟩
  debug := [⟨"A-copy", .debug, "A"⟩]

/-- The configuration is the oldest in the list that has its alias too. -/
def withinList : History where
  run := ["A-copy", "b", "c", "d", "A"].map fun m => ⟨m, .run, m⟩

/-- Two evictions: that of the configuration whose alias is in the other list deletes nothing. -/
theorem along_spares_aliased :
    Document.restore (Document.render acrossLists) = .restored acrossLists ∧
    Along (Book.record store) (fun b launch => ∀ e ∈ (b.record store launch).history.launches, b.Spares store launch e)
      ⟨aliased .copies, acrossLists⟩ [⟨"f", .run, "f"⟩, ⟨"g", .run, "g"⟩] ∧
    ((Book.mk (aliased .copies) acrossLists).recordAll store [⟨"f", .run, "f"⟩, ⟨"g", .run, "g"⟩]).store.deleted =
      ["e"] := by
  have hr : Document.restore (Document.render acrossLists) = .restored acrossLists :=
    Document.restore_render_of_isNamed (by decide) (by decide)
  have hapart : ∀ m, Recent.Apart Equality.copies.holds (acrossLists.list m) := by
    intro m
    cases m
    · unfold Recent.Apart
      decide +kernel
    · exact List.pairwise_singleton ..
  refine ⟨hr, (Book.along_spares hr (aliased .copies) _ ?_).2 equivalence_copies ?_ hapart, by decide +kernel⟩
  · exact along_record_coherent equivalence_copies (by decide +kernel) _ _ rfl rfl
  · exact along_record_same _ _ rfl

/-- Contents compared as on a shelf, but that one configuration counts as another one too. -/
def skewed : Store Shelf :=
  { store with same := fun s a b => s.equality.holds a b || (a == "b" && b == "A") }

/-- The alias is the oldest, and the configuration that counts as the other one stands before it. -/
def behindSkewed : History where
  run := ["c", "b", "d", "e", "A-copy"].map fun m => ⟨m, .run, m⟩

/-- An eviction deletes a configuration that is in use where its alias, in the other list, is of another content for
the store; where the alias is in the same list; and where the launch of it made another entry than the alias give
way, as what counts as the same is no equivalence. -/
theorem not_spares_of_aliased :
    (store.IsCanonical (aliased .exact) ∧ Document.restore (Document.render acrossLists) = .restored acrossLists ∧
      ∃ e ∈ ((Book.mk (aliased .exact) acrossLists).record store ⟨"f", .run, "f"⟩).history.debug,
        ¬(Book.mk (aliased .exact) acrossLists).Spares store ⟨"f", .run, "f"⟩ e) ∧
    (store.IsCanonical (aliased .copies) ∧ store.IsCoherent (aliased .copies) ∧
      Document.restore (Document.render withinList) = .restored withinList ∧
      ∃ e ∈ ((Book.mk (aliased .copies) withinList).record store ⟨"f", .run, "f"⟩).history.run,
        ¬(Book.mk (aliased .copies) withinList).Spares store ⟨"f", .run, "f"⟩ e) ∧
    (skewed.IsCanonical (aliased .copies) ∧ skewed.IsCoherent (aliased .copies) ∧
      Document.restore (Document.render behindSkewed) = .restored behindSkewed ∧
      Recent.Apart (skewed.same (aliased .copies)) behindSkewed.run ∧
      let b := (Book.mk (aliased .copies) behindSkewed).record skewed ⟨"A", .run, "A"⟩
      b.store = aliased .copies ∧
        ∃ e ∈ (b.record skewed ⟨"f", .run, "f"⟩).history.run, ¬b.Spares skewed ⟨"f", .run, "f"⟩ e) := by
  have hcanonical : ∀ q, store.IsCanonical (aliased q) := by
    intro q
    refine isCanonical (List.forall_mem_map.2 fun m hm => ?_)
    fin_cases hm <;> rfl
  have hcoherent : store.IsCoherent (aliased .copies) := isCoherent equivalence_copies (by decide +kernel)
  have hstore : ((Book.mk (aliased .copies) behindSkewed).record skewed ⟨"A", .run, "A"⟩).store = aliased .copies := by
    decide +kernel
  have hacross := Document.restore_render_of_isNamed (h := acrossLists) (by decide) (by decide)
  have hwithin := Document.restore_render_of_isNamed (h := withinList) (by decide) (by decide)
  have hbehind := Document.restore_render_of_isNamed (h := behindSkewed) (by decide) (by decide)
  refine ⟨⟨hcanonical _, hacross, ⟨"A-copy", .debug, "A"⟩, by decide +kernel, fun h => ?_⟩,
    ⟨hcanonical _, hcoherent, hwithin, ⟨"A-copy", .run, "A-copy"⟩, by decide +kernel, fun h => ?_⟩,
    ⟨hcanonical _, fun a b c ha hb => ?_, hbehind, ?_, hstore, ⟨"A", .run, "A"⟩, by decide +kernel, fun h => ?_⟩⟩
  · exact h (Book.passing "A") (by decide +kernel) rfl
  · exact h (Book.passing "A") (by decide +kernel) rfl
  · exact Bool.or_eq_true_iff.2 (.inl (hcoherent ha hb))
  · unfold Recent.Apart
    decide +kernel
  · refine h (Book.passing "A") (by decide +kernel) ?_
    rw [hstore]
    rfl

end Shelf

end RecentLaunches
