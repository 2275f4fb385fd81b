/-
Lists under a store that compares contents. A promotion takes only the first entry of the launched
content out, so what it leads to depends on where entries of one content stand. Where no two entries of
a list have the same content, none ever will (`ContentWF.promote`). Where mementos alone are different,
the launched memento comes to stand in the list twice exactly if it is shadowed: it stands behind the
first entry of its content, and that entry is not the head (`wf_promote_iff`).
-/
import RecentLaunches.Proofs.Recent.Rules
import Mathlib.Data.List.TakeWhile

namespace RecentLaunches.Recent

variable {same : Sameness} {mode : Mode} {e : Launch} {l : Recent} {m : Memento}

/-! ## Lists without two entries of one content -/

/-- The rules for the list of a mode, with contents compared and not mementos. -/
structure ContentWF (same : Sameness) (mode : Mode) (l : Recent) : Prop where
  bounded : l.length ≤ capacity
  ownMode : ∀ e ∈ l, e.mode = mode
  apart : Apart same l

theorem Apart.nodup (hrefl : ∀ a, same a a = true) (h : Apart same l) : (mementos l).Nodup := by
  unfold mementos List.Nodup
  rw [List.pairwise_map]
  refine h.imp fun {a b} hab he => ?_
  rw [he, hrefl] at hab
  cases hab

theorem ContentWF.wf (hrefl : ∀ a, same a a = true) (hc : ContentWF same mode l) : WF mode l :=
  ⟨hc.bounded, hc.apart.nodup hrefl, hc.ownMode⟩

theorem ContentWF.nil (same : Sameness) (mode : Mode) : ContentWF same mode [] :=
  ⟨Nat.zero_le _, (fun _ h => nomatch h), List.Pairwise.nil⟩

theorem ContentWF.sublist {l' : Recent} (hc : ContentWF same mode l) (h : l'.Sublist l) :
    ContentWF same mode l' :=
  ⟨h.length_le.trans hc.bounded, fun e he => hc.ownMode e (h.subset he), hc.apart.sublist h⟩

theorem ContentWF.promote (hs : Equivalence fun a b => same a b = true) (hc : ContentWF same mode l)
    (he : e.mode = mode) : ContentWF same mode (promote same e l).launches := by
  refine ⟨length_promote hc.bounded, mode_promote hc.ownMode he, ?_⟩
  have hall := apart_promote (e := e) hs hc.apart
  exact (List.pairwise_append.1 hall).1

/-! ## Shadowed mementos -/

/-- Whether a memento stands in a list behind the first entry of its content, and that entry is not the
head. -/
def Shadowed (same : Sameness) (m : Memento) (l : Recent) : Prop :=
  (∀ head ∈ l.head?, same head.memento m = false) ∧
    m ∈ mementos (l.dropWhile fun e => !same e.memento m).tail

instance (same : Sameness) (m : Memento) (l : Recent) : Decidable (Shadowed same m l) :=
  inferInstanceAs (Decidable (_ ∧ _))

theorem not_shadowed_of_head {head : Launch} {rest : Recent} (h : same head.memento m = true) :
    ¬Shadowed same m (head :: rest) := by
  rintro ⟨hn, -⟩
  have := hn head rfl
  rw [h] at this
  cases this

theorem not_shadowed_of_forall (h : ∀ x ∈ l, same x.memento m = false) : ¬Shadowed same m l := by
  rintro ⟨-, hm⟩
  have hnil : l.dropWhile (fun e => !same e.memento m) = [] := by
    refine List.dropWhile_eq_nil_iff.2 fun x hx => ?_
    rw [h x hx]
    rfl
  rw [hnil] at hm
  cases hm

theorem shadowed_append_iff {before after : Recent} {old : Launch} (hne : before ≠ [])
    (hb : ∀ x ∈ before, same x.memento m = false) (ho : same old.memento m = true) :
    Shadowed same m (before ++ old :: after) ↔ m ∈ mementos after := by
  have hdrop : (before ++ old :: after).dropWhile (fun e => !same e.memento m) = old :: after := by
    rw [List.dropWhile_append_of_pos]
    · simp [ho]
    · intro x hx
      rw [hb x hx]
      rfl
  unfold Shadowed
  rw [hdrop, List.tail_cons]
  refine and_iff_right fun head hh => ?_
  obtain ⟨first, rest, rfl⟩ := List.exists_cons_of_ne_nil hne
  cases hh
  exact hb _ (List.mem_cons_self ..)

/-- A list that keeps the rules keeps them through a promotion exactly if the launched memento is not
shadowed in it. -/
theorem wf_promote_iff (hrefl : ∀ a, same a a = true) (hw : WF mode l) (he : e.mode = mode) :
    WF mode (promote same e l).launches ↔ ¬Shadowed same e.memento l := by
  -- only the mementos are in question
  have hiff : WF mode (promote same e l).launches ↔ (mementos (promote same e l).launches).Nodup :=
    ⟨WF.distinct, fun hd => ⟨length_promote hw.bounded, hd, mode_promote hw.ownMode he⟩⟩
  rw [hiff]
  have hd := hw.distinct
  rcases promote_cases same e l with
    ⟨head, rest, rfl, hs, hp⟩ | ⟨before, old, after, rfl, hne, hb, ho, hp⟩ | ⟨hn, hp⟩ <;> rw [hp]
  · exact iff_of_true hd (not_shadowed_of_head hs)
  · have hfit : (e :: (before ++ after)).length ≤ capacity := by
      have hlen := hw.bounded
      simp at hlen ⊢
      omega
    rw [bounded_eq_self hfit, shadowed_append_iff hne hb ho]
    have hrest : (mementos (before ++ after)).Nodup := by
      refine hd.sublist (List.Sublist.map _ ?_)
      exact List.Sublist.append_left (List.sublist_cons_self ..) _
    show (e.memento :: mementos (before ++ after)).Nodup ↔ _
    rw [List.nodup_cons, mementos_append, List.mem_append, and_iff_left (by rwa [← mementos_append])]
    exact not_congr (or_iff_right (notMem_mementos hrefl hb))
  · refine iff_of_true ?_ (not_shadowed_of_forall hn)
    have hall : (mementos (e :: l)).Nodup := List.nodup_cons.2 ⟨notMem_mementos hrefl hn, hd⟩
    rw [← bounded_append (e :: l), mementos_append] at hall
    exact (List.nodup_append.1 hall).1

end RecentLaunches.Recent
