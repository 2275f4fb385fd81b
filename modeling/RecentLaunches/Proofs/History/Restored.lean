/-
Restored histories beside a store that compares contents. A document is held to different mementos only, so
a restored list can have entries of one content, and a launch can put its memento there a second time. A
series of launches is withstood exactly as long as no launch is recorded under a memento that is shadowed
in its list; where a document has no two entries of one content in a mode, every series is.
-/
import RecentLaunches.Proofs.History.Contents

namespace RecentLaunches

namespace History

variable {σ : Type} {S : Store σ} {s : σ} {h : History}

theorem wf_remember_iff {same : Recent.Sameness} (hw : h.WF) (entry : Launch) :
    (remember same h entry).WF ↔
      Recent.WF entry.mode (Recent.promote same entry (h.list entry.mode)).launches := by
  constructor
  · intro hr
    have := hr entry.mode
    rwa [list_remember, if_pos rfl] at this
  · intro hl m
    rw [list_remember]
    split_ifs with hm
    · rw [hm]
      exact hl
    · exact hw m

/-- Whether a launch is recorded under a memento that is shadowed in the list of its mode. -/
def MeetsShadow (S : Store σ) (s : σ) (h : History) (launch : Launch) : Prop :=
  ∃ c, eligible? S s launch.memento launch.mode = some c ∧
    Recent.Shadowed (S.same s) c.memento (h.list launch.mode)

/-- A record breaks the rules exactly if it meets a shadowed memento. -/
theorem wf_record_iff (hrefl : ∀ a, S.same s a a = true) (hw : h.WF) (launch : Launch) :
    (record S s h launch).history.WF ↔ ¬MeetsShadow S s h launch := by
  rcases record_cases S s h launch with ⟨hc, hr⟩ | ⟨c, entry, hc, rfl, hr⟩ <;> rw [hr]
  · refine iff_of_true hw ?_
    rintro ⟨c, hc', -⟩
    rw [hc] at hc'
    cases hc'
  · have hlist := Recent.wf_promote_iff (e := { launch with memento := c.memento }) hrefl (hw launch.mode) rfl
    refine ((wf_remember_iff hw _).trans hlist).trans (not_congr ?_)
    refine ⟨fun hm => ⟨c, hc, hm⟩, ?_⟩
    rintro ⟨c', hc', hm⟩
    rw [hc] at hc'
    cases hc'
    exact hm

end History

namespace Book

variable {σ : Type} {S : Store σ} {b : Book σ} {same : Recent.Sameness}

/-- Whether a launch is answered and leaves lists that keep the rules. -/
def Withstands (S : Store σ) (b : Book σ) (launch : Launch) : Prop :=
  (∃ r, b.answer S launch = .ok r) ∧ (b.record S launch).history.WF

/-- Whether a launch is recorded under a memento that is shadowed in the list of its mode. -/
def MeetsShadow (S : Store σ) (b : Book σ) (launch : Launch) : Prop :=
  b.history.MeetsShadow S b.store launch

theorem withstands_iff (hrefl : ∀ a, S.same b.store a a = true) (hw : b.history.WF) (launch : Launch) :
    b.Withstands S launch ↔ ¬b.MeetsShadow S launch := by
  have hiff : (b.record S launch).history.WF ↔ ¬b.MeetsShadow S launch :=
    History.wf_record_iff hrefl hw launch
  rw [← hiff]
  constructor
  · exact And.right
  · intro hr
    have hv : b.answer S launch = .ok (b.history.record S b.store launch).recorded :=
      History.Recording.verdict_of_wf hr
    exact ⟨⟨_, hv⟩, hr⟩

/-- What a restored history withstands. A series of launches is answered throughout, with no memento twice
in a list, exactly if none of them meets a shadowed memento. If the document has no two entries of one
content in a mode, this is so for every series. -/
theorem along_withstands_iff (hs : Equivalence fun a b => same a b = true) {document : String} {h : History}
    (hr : Document.restore document = .restored h) (s : σ) (launches : List Launch)
    (hsame : Along (record S) (fun b _ => S.same b.store = same) ⟨s, h⟩ launches) :
    (Along (record S) (Withstands S) ⟨s, h⟩ launches ↔
      Along (record S) (fun b launch => ¬b.MeetsShadow S launch) ⟨s, h⟩ launches) ∧
    ((∀ m, Recent.Apart same (h.list m)) → Along (record S) (Withstands S) ⟨s, h⟩ launches) := by
  have hw : h.WF := (Document.sound_of_read (Document.restore_eq_restored_iff.1 hr)).wf
  have hiff : ∀ (b : Book σ) (launch : Launch), S.same b.store = same → b.history.WF →
      (b.Withstands S launch ↔ ¬b.MeetsShadow S launch) := by
    intro b launch hb hw
    refine withstands_iff ?_ hw launch
    rw [hb]
    exact hs.refl
  -- up to the launch that breaks the rules they are the invariant, in both directions
  refine ⟨⟨fun ha => ?_, fun ha => ?_⟩, fun hapart => ?_⟩
  · refine ((hsame.and ha).keeps (I := fun b => b.history.WF) (fun b launch hw hp => ?_) hw).2
    exact ⟨hp.2.2, (hiff b launch hp.1 hw).1 hp.2⟩
  · refine ((hsame.and ha).keeps (I := fun b => b.history.WF) (fun b launch hw hp => ?_) hw).2
    have hwith := (hiff b launch hp.1 hw).2 hp.2
    exact ⟨hwith.2, hwith⟩
  · have hc : h.ContentWF same := fun m => ⟨(hw m).bounded, (hw m).ownMode, hapart m⟩
    refine (hsame.keeps (I := fun b => b.history.ContentWF same) (fun b launch hc hb => ?_) hc).2
    have hnext := contentWF_episode hs hb hc (.record launch)
    exact ⟨hnext, answer_of_contentWF hs hb hc launch, hnext.wf hs.refl⟩

/-- A history with one entry of each content. -/
def pair : History where
  run := [⟨"B", .run, "B"⟩, ⟨"A", .run, "A"⟩]

/-- It withstands launches of the copy and of the original. -/
theorem along_withstands_pair :
    Document.restore (Document.render pair) = .restored pair ∧
    Along (record Shelf.store) (Withstands Shelf.store) ⟨Shelf.copying, pair⟩
      [⟨"A-copy", .run, "again"⟩, ⟨"B", .run, "B"⟩, ⟨"A", .run, "A"⟩] := by
  have hw : pair.WF := History.violation?_eq_none_iff.1 (by decide)
  have hr : Document.restore (Document.render pair) = .restored pair :=
    Document.restore_of_read (Document.read_render hw (by decide))
  have hapart : ∀ m, Recent.Apart Equality.copies.holds (pair.list m) := by
    intro m
    cases m
    · unfold Recent.Apart
      decide +kernel
    · exact List.Pairwise.nil
  refine ⟨hr, (along_withstands_iff Shelf.equivalence_copies hr Shelf.copying _ ?_).2 hapart⟩
  exact Shelf.along_record_same _ _ rfl

/-- A history with the original and its copy behind another entry. -/
def twins : History where
  run := [⟨"B", .run, "B"⟩, ⟨"A", .run, "A"⟩, ⟨"A-copy", .run, "A-copy"⟩]

/-- It is restored, but a launch of the copy puts the copy in the list twice. -/
theorem answer_of_twins :
    (Equivalence fun a b => Shelf.store.same Shelf.copying a b = true) ∧
    Document.restore (Document.render twins) = .restored twins ∧
    Recent.mementos (((Book.mk Shelf.copying twins).record Shelf.store
      ⟨"A-copy", .run, "again"⟩).history.list .run) = ["A-copy", "B", "A-copy"] ∧
    (Book.mk Shelf.copying twins).answer Shelf.store ⟨"A-copy", .run, "again"⟩ =
      .error (.repeated .run "A-copy") := by
  have hw : twins.WF := History.violation?_eq_none_iff.1 (by decide)
  refine ⟨Shelf.equivalence_copies, ?_, by decide +kernel, by decide +kernel⟩
  exact Document.restore_of_read (Document.read_render hw (by decide))

end Book

end RecentLaunches
