/-
The latest launch and the head of its list. The pointer to the latest launch is kept apart from the lists,
and a launch of the configuration at the head leaves the older label there. Still the two stay together as
long as launches are forgotten by their mementos alone: while there is a latest launch, it is the last one
that was accepted, and the list of its mode begins with its memento.
-/
import RecentLaunches.Proofs.History.Contents
import RecentLaunches.Proofs.History.Departure

namespace RecentLaunches

open Recent (mementos)

/-! ## Heads of lists -/

namespace Recent

variable {same : Sameness} {e : Launch} {l : Recent}

/-- A promoted list begins with the memento of the launch, though perhaps under an older label. -/
theorem head?_promote (hs : ∀ a b, same a b = true ↔ a = b) :
    ((promote same e l).launches.head?).map (·.memento) = some e.memento := by
  rcases head_promote same e l with ⟨head, rest, rfl, hh, hp⟩ | ⟨rest, hp, -⟩ <;> rw [hp]
  · exact congrArg some ((hs _ _).1 hh)
  · rfl

end Recent

namespace History

variable {σ : Type} {S : Store σ} {h : History} {log : List Launch}

/-- Whether the list of a launch's mode begins with its memento. -/
def Leads (h : History) (e : Launch) : Prop :=
  ((h.list e.mode).head?).map (·.memento) = some e.memento

theorem leads_iff {e : Launch} :
    h.Leads e ↔ ∃ head rest, h.list e.mode = head :: rest ∧ head.memento = e.memento := by
  unfold Leads
  rcases h.list e.mode with _ | ⟨head, rest⟩
  · simp
  · simp

theorem leads_remember {same : Recent.Sameness} (hs : ∀ a b, same a b = true ↔ a = b) (h : History)
    (entry : Launch) : (remember same h entry).Leads entry := by
  unfold Leads
  rw [list_remember, if_pos rfl]
  exact Recent.head?_promote hs

/-- A launch that stays when launches are forgotten by their mementos leads as before: the entry at the
head has the same memento, so that it stays too. -/
theorem Leads.drop {e : Launch} {gone : Memento → Bool} (hl : h.Leads e) (he : gone e.memento = false) :
    (h.drop fun x => gone x.memento).Leads e := by
  obtain ⟨head, rest, hlist, hm⟩ := leads_iff.1 hl
  refine leads_iff.2 ⟨head, rest.filter fun x => !gone x.memento, ?_, hm⟩
  rw [list_drop, hlist, List.filter_cons_of_pos]
  rw [hm, he]
  rfl

/-! ## The last accepted launch -/

/-- What holds of the latest launch when some launches were accepted: it is the last of them, and it
leads the list of its mode. -/
def IsCurrent (log : List Launch) (h : History) : Prop :=
  ∀ e, h.latest = some e → h.Leads e ∧ log.getLast? = some e

theorem IsCurrent.empty (log : List Launch) : empty.IsCurrent log :=
  fun _ he => nomatch he

theorem IsCurrent.drop (hc : h.IsCurrent log) (gone : Memento → Bool) :
    (h.drop fun x => gone x.memento).IsCurrent log := by
  intro e he
  rw [latest_drop, Option.filter_eq_some_iff] at he
  obtain ⟨hlatest, hkept⟩ := he
  obtain ⟨hlead, hlast⟩ := hc e hlatest
  exact ⟨hlead.drop (by simpa using hkept), hlast⟩

theorem IsCurrent.remember {same : Recent.Sameness} (hs : ∀ a b, same a b = true ↔ a = b) (h : History)
    (log : List Launch) (entry : Launch) : (remember same h entry).IsCurrent (log ++ [entry]) := by
  intro e he
  cases he
  exact ⟨leads_remember hs h entry, List.getLast?_concat⟩

end History

namespace Book

variable {σ : Type} {S : Store σ} {b : Book σ} {log : List Launch}

/-- The launch that is answered with yes in an episode. -/
def accepted? (S : Store σ) (b : Book σ) : Episode σ → Option Launch
  | .record launch => if b.answer S launch = .ok true then some launch else none
  | _ => none

/-- The launches among some episodes that are answered with yes. -/
def acceptedIn (S : Store σ) : Book σ → List (Episode σ) → List Launch
  | _, [] => []
  | b, x :: xs => (b.accepted? S x).toList ++ acceptedIn S (b.episode S x) xs

theorem wf_episode (hS : S.Keyed) (hw : b.history.WF) (x : Episode σ) : (b.episode S x).history.WF := by
  cases x with
  | record launch => exact hw.record hS launch
  | removeEntry entry => exact hw.drop _
  | removeConfiguration m => exact hw.drop _
  | prune => exact hw.drop _
  | reload =>
    show b.history.reload.WF
    rw [History.reload_of_wf hw]
    exact hw
  | disturb s => exact hw

/-- An accepted launch becomes the latest one, and another changes nothing. -/
theorem latest_of_answer (hS : S.Keyed) (hw : b.history.WF) (launch : Launch) :
    (b.answer S launch = .ok true ∧
        (b.record S launch).history = History.remember (S.same b.store) b.history launch) ∨
      (b.answer S launch = .ok false ∧ (b.record S launch).history = b.history) := by
  have hv : b.answer S launch = .ok (b.history.record S b.store launch).recorded :=
    History.verdict_record hS hw launch
  rw [hv]
  show _ ∨ (_ ∧ (b.history.record S b.store launch).history = _)
  rcases History.record_cases S b.store b.history launch with ⟨-, hr⟩ | ⟨c, entry, hc, rfl, hr⟩
  · rw [hr]
    exact .inr ⟨rfl, rfl⟩
  · left
    show _ ∧ (b.history.record S b.store launch).history = _
    rw [hr, History.memento_of_eligible? hS hc]
    exact ⟨rfl, rfl⟩

/-- Every episode but the removal of one entry keeps the latest launch with the head of its list. -/
theorem isCurrent_episode (hS : S.Keyed) (hw : b.history.WF) (hc : b.history.IsCurrent log)
    {x : Episode σ} (hx : ∀ entry, x ≠ .removeEntry entry) :
    (b.episode S x).history.IsCurrent (log ++ (b.accepted? S x).toList) := by
  cases x with
  | record launch =>
    show (b.record S launch).history.IsCurrent
      (log ++ (if b.answer S launch = .ok true then some launch else none).toList)
    rcases latest_of_answer hS hw launch with ⟨ha, hr⟩ | ⟨ha, hr⟩ <;> rw [ha, hr]
    · exact .remember (hS.same_iff b.store) _ _ _
    · rw [if_neg (by simp), Option.toList_none, List.append_nil]
      exact hc
  | removeEntry entry => exact absurd rfl (hx entry)
  | removeConfiguration m =>
    show (b.history.removeConfiguration m).IsCurrent (log ++ [])
    rw [List.append_nil]
    exact hc.drop (· == m)
  | prune =>
    show (b.history.prune S b.store).IsCurrent (log ++ [])
    rw [List.append_nil]
    exact hc.drop (S.isGone b.store)
  | reload =>
    show b.history.reload.IsCurrent (log ++ [])
    rw [List.append_nil, History.reload_of_wf hw]
    exact hc
  | disturb s =>
    show b.history.IsCurrent (log ++ [])
    rw [List.append_nil]
    exact hc

/-- The same for episodes one after the other, by induction on them. -/
theorem isCurrent_live (hS : S.Keyed) (episodes : List (Episode σ)) (hw : b.history.WF)
    (hc : b.history.IsCurrent log) (hx : ∀ entry, Episode.removeEntry entry ∉ episodes) :
    (b.live S episodes).history.WF ∧
      (b.live S episodes).history.IsCurrent (log ++ b.acceptedIn S episodes) := by
  induction episodes generalizing b log with
  | nil =>
    rw [acceptedIn, List.append_nil]
    exact ⟨hw, hc⟩
  | cons x episodes ih =>
    have hfirst : ∀ entry, x ≠ .removeEntry entry := by
      rintro entry rfl
      exact hx entry (List.mem_cons_self ..)
    have hrest : ∀ entry, Episode.removeEntry entry ∉ episodes :=
      fun entry he => hx entry (List.mem_cons_of_mem _ he)
    rw [acceptedIn, ← List.append_assoc]
    exact ih (wf_episode hS hw x) (isCurrent_episode hS hw hc hfirst) hrest

/-! ## Databases -/

/-- The latest launch and the lists agree. With a database, from the empty history on, launches are
recorded, configurations forgotten, missing ones pruned, the history reloaded and the database changed by
others. Whenever there is a latest launch then, the list of its mode begins with an entry of its memento,
and it is, label and all, the launch that was accepted last. The next accepted launch takes its place. -/
theorem latest_of_live (d : Database) (episodes : List (Episode Database))
    (hx : ∀ entry, Episode.removeEntry entry ∉ episodes) :
    let start := Book.mk d .empty
    let b := start.live Database.store episodes
    (∀ e, b.history.latest = some e →
      (∃ head rest, b.history.list e.mode = head :: rest ∧ head.memento = e.memento) ∧
        (start.acceptedIn Database.store episodes).getLast? = some e) ∧
    ∀ launch, b.answer Database.store launch = .ok true →
      (b.record Database.store launch).history.latest = some launch := by
  intro start b
  obtain ⟨hw, hc⟩ := isCurrent_live (b := start) Database.keyed_store episodes .empty (.empty []) hx
  constructor
  · intro e he
    obtain ⟨hlead, hlast⟩ := hc e he
    exact ⟨History.leads_iff.1 hlead, hlast⟩
  · intro launch ha
    rcases latest_of_answer Database.keyed_store hw launch with ⟨-, hr⟩ | ⟨hb, -⟩
    · rw [hr]
      rfl
    · rw [ha] at hb
      cases hb

/-- A second launch of a configuration leaves the first label at the head, and the two stay together when
another configuration goes and the history is reloaded. -/
theorem latest_of_relabeled :
    let start := Book.mk (transients ["a", "b"]) .empty
    let episodes := [.record ⟨"b", .run, "B"⟩, .record ⟨"a", .run, "first"⟩, .record ⟨"a", .run, "again"⟩,
      .record ⟨"c", .run, "unknown"⟩, .disturb (transients ["a"]), .prune, .reload]
    let b := start.live Database.store episodes
    b.history = { run := [⟨"a", .run, "first"⟩], latest := some ⟨"a", .run, "again"⟩ } ∧
    (∃ head rest, b.history.list .run = head :: rest ∧ head.memento = "a") ∧
    (start.acceptedIn Database.store episodes).getLast? = some ⟨"a", .run, "again"⟩ := by
  intro start episodes b
  have hb : b.history = { run := [⟨"a", .run, "first"⟩], latest := some ⟨"a", .run, "again"⟩ } := by
    have hw : (start.live Database.store (episodes.take 6)).history.WF :=
      History.violation?_eq_none_iff.1 (by decide +kernel)
    show (start.live Database.store (episodes.take 6)).history.reload = _
    rw [History.reload_of_wf hw]
    decide +kernel
  refine ⟨hb, ?_⟩
  have h := (latest_of_live (transients ["a", "b"]) episodes (by simp [episodes])).1 ⟨"a", .run, "again"⟩
  exact h (congrArg History.latest hb)

/-- Where one entry is removed by all its parts, the list can lose the older label alone. -/
example :
    let b := (Book.mk (transients ["a"]) .empty).live Database.store
      [.record ⟨"a", .run, "first"⟩, .record ⟨"a", .run, "again"⟩, .removeEntry ⟨"a", .run, "first"⟩]
    b.history = { latest := some ⟨"a", .run, "again"⟩ } := by
  decide +kernel

end Book

end RecentLaunches
