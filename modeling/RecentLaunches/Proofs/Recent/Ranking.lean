/-
The list of recent launches as it would be without a capacity, and what it holds by the log of all the
launches that were recorded. Its mementos are those of the log in the order of their latest launches; an
entry is the first launch of the last unbroken block of launches of its memento. A list with a capacity
is the front of it: what falls off the end never comes back but by another launch.
-/
import RecentLaunches.Proofs.Recent.Rules
import Mathlib.Data.List.Dedup
import Mathlib.Data.List.DropRight

namespace RecentLaunches.Recent

variable {same : Sameness} {e : Launch} {l : Recent} {m : Memento} {log : List Launch}

/-! ## Lists without a capacity -/

/-- Puts a launch at the head of a list of any length. An entry with its memento makes room for it, and
stays as it is if it stands at the head. -/
def touch (l : Recent) (e : Launch) : Recent :=
  if (mementos l).head? = some e.memento then l else e :: l.filter (·.memento != e.memento)

/-- The list that a log of launches leads to, without a capacity. -/
def unbounded (log : List Launch) : Recent :=
  log.foldl touch []

theorem unbounded_concat (log : List Launch) (e : Launch) :
    unbounded (log ++ [e]) = touch (unbounded log) e := by
  simp [unbounded]

theorem mementos_filter (l : Recent) (m : Memento) :
    mementos (l.filter (·.memento != m)) = (mementos l).filter (· != m) := by
  unfold mementos
  rw [List.filter_map]
  rfl

theorem filter_of_notMem (h : m ∉ mementos l) : l.filter (·.memento != m) = l := by
  rw [List.filter_eq_self]
  intro x hx
  have hne : x.memento ≠ m := by
    rintro rfl
    exact h (List.mem_map_of_mem hx)
  simpa using hne

/-! ## The front of a list -/

/-- A list with a capacity is the front of the list without one. -/
theorem launches_promote (hs : ∀ a b, same a b = true ↔ a = b) (hd : (mementos l).Nodup)
    (hb : l.length ≤ capacity) : (promote same e l).launches = (touch l e).take capacity := by
  have hrefl : ∀ a, same a a = true := fun a => (hs a a).2 rfl
  rcases promote_cases same e l with
    ⟨head, rest, rfl, hh, hp⟩ | ⟨before, old, after, rfl, hnil, hn, ho, hp⟩ | ⟨hn, hp⟩ <;> rw [hp]
  · have hhead : (mementos (head :: rest)).head? = some e.memento := by
      rw [← (hs _ _).1 hh]
      rfl
    rw [touch, if_pos hhead, List.take_of_length_le hb]
  · obtain ⟨first, rest, rfl⟩ := List.exists_cons_of_ne_nil hnil
    have hhead : (mementos (first :: rest ++ old :: after)).head? ≠ some e.memento := by
      intro h
      have hfirst : first.memento = e.memento := Option.some.inj h
      refine notMem_mementos hrefl hn ?_
      rw [← hfirst]
      exact List.mem_cons_self ..
    have hold : old.memento = e.memento := (hs _ _).1 ho
    -- the entry that makes room is the only one with its memento
    have hafter : e.memento ∉ mementos after := by
      rw [mementos_append, List.nodup_append] at hd
      rw [← hold]
      exact (List.nodup_cons.1 hd.2.1).1
    have hfilter : (first :: rest ++ old :: after).filter (·.memento != e.memento) = first :: rest ++ after := by
      rw [List.filter_append, filter_of_notMem (notMem_mementos hrefl hn), List.filter_cons_of_neg (by simp [hold]),
        filter_of_notMem hafter]
    rw [touch, if_neg hhead, hfilter]
    refine launches_bounded ?_
    simp at hb ⊢
    omega
  · have hhead : (mementos l).head? ≠ some e.memento :=
      fun h => notMem_mementos hrefl hn (List.mem_of_head? h)
    rw [touch, if_neg hhead, filter_of_notMem (notMem_mementos hrefl hn)]
    exact launches_bounded (by simpa using hb)

/-- Taking one entry out moves at most one other to the front of a list. -/
theorem take_filter_take : ∀ (k : Nat) (l : Recent), (mementos l).Nodup →
    ((l.take (k + 1)).filter (·.memento != m)).take k = (l.filter (·.memento != m)).take k
  | _, [], _ => by simp
  | k, a :: l, hd => by
    obtain ⟨ha, hl⟩ := List.nodup_cons.1 hd
    rw [List.take_succ_cons]
    by_cases hm : a.memento = m
    · subst hm
      have hfront : a.memento ∉ mementos (l.take k) := by
        intro h
        exact ha ((List.take_sublist k l).map _ |>.subset h)
      rw [List.filter_cons_of_neg (by simp), List.filter_cons_of_neg (by simp), filter_of_notMem hfront,
        filter_of_notMem ha]
      simp
    · rw [List.filter_cons_of_pos (by simpa using hm), List.filter_cons_of_pos (by simpa using hm)]
      cases k with
      | zero => rfl
      | succ k => rw [List.take_succ_cons, List.take_succ_cons, take_filter_take k l hl]

theorem take_touch_take (hd : (mementos l).Nodup) (e : Launch) :
    (touch (l.take capacity) e).take capacity = (touch l e).take capacity := by
  have hhead : (mementos (l.take capacity)).head? = (mementos l).head? := by
    cases l <;> rfl
  unfold touch
  rw [hhead]
  split_ifs
  · rw [List.take_take, Nat.min_self]
  · show e :: List.take 4 _ = e :: List.take 4 _
    exact congrArg _ (take_filter_take 4 l hd)

/-! ## Mementos in the order of their latest launches -/

/-- The mementos of a log, each once, the one that was launched last first. -/
def ranking (log : List Launch) : List Memento :=
  (mementos log).dedup.reverse

theorem nodup_ranking (log : List Launch) : (ranking log).Nodup :=
  List.nodup_reverse.2 (List.nodup_dedup _)

theorem mem_ranking : m ∈ ranking log ↔ m ∈ mementos log := by
  unfold ranking
  rw [List.mem_reverse, List.mem_dedup]

theorem dedup_concat (a : Memento) : ∀ l : List Memento,
    (l ++ [a]).dedup = l.dedup.filter (· != a) ++ [a]
  | [] => by simp
  | b :: l => by
    have ih := dedup_concat a l
    by_cases hb : b ∈ l
    · rw [List.cons_append, List.dedup_cons_of_mem (List.mem_append_left _ hb), ih,
        List.dedup_cons_of_mem hb]
    · rw [List.dedup_cons_of_notMem hb]
      by_cases hba : b = a
      · subst hba
        rw [List.cons_append, List.dedup_cons_of_mem (by simp), ih, List.filter_cons_of_neg (by simp)]
      · rw [List.cons_append, List.dedup_cons_of_notMem (by simp [hb, hba]), ih,
          List.filter_cons_of_pos (by simpa using hba)]
        rfl

theorem ranking_concat (log : List Launch) (e : Launch) :
    ranking (log ++ [e]) = e.memento :: (ranking log).filter (· != e.memento) := by
  have hm : mementos (log ++ [e]) = mementos log ++ [e.memento] := mementos_append log [e]
  unfold ranking
  rw [hm, dedup_concat, List.reverse_append, List.filter_reverse]
  rfl

theorem head?_ranking (log : List Launch) : (ranking log).head? = log.getLast?.map (·.memento) := by
  rcases List.eq_nil_or_concat log with rfl | ⟨front, last, rfl⟩
  · rfl
  · rw [List.concat_eq_append, ranking_concat, List.getLast?_concat]
    rfl

/-- The list without a capacity has the mementos of its log in the order of their latest launches. -/
theorem mementos_unbounded (log : List Launch) : mementos (unbounded log) = ranking log := by
  induction log using List.reverseRecOn with
  | nil => rfl
  | append_singleton log e ih =>
    rw [unbounded_concat, ranking_concat, touch, ih]
    split_ifs with h
    · obtain ⟨rest, hrest⟩ : ∃ rest, ranking log = e.memento :: rest := by
        rw [List.head?_eq_some_iff] at h
        exact h
      have hnot : e.memento ∉ rest := by
        have hd := nodup_ranking log
        rw [hrest] at hd
        exact (List.nodup_cons.1 hd).1
      rw [ih, hrest, List.filter_cons_of_neg (by simp), List.filter_eq_self.2]
      intro a ha
      have hne : a ≠ e.memento := by
        rintro rfl
        exact hnot ha
      simpa using hne
    · show e.memento :: mementos ((unbounded log).filter (·.memento != e.memento)) = _
      rw [mementos_filter, ih]

/-! ## The last block of launches of a memento -/

/-- The last unbroken block of launches of a memento in a log. -/
def lastBlock (m : Memento) (log : List Launch) : List Launch :=
  (log.rdropWhile (·.memento != m)).rtakeWhile (·.memento == m)

theorem lastBlock_concat_of_ne (log : List Launch) (h : e.memento ≠ m) :
    lastBlock m (log ++ [e]) = lastBlock m log := by
  unfold lastBlock
  rw [List.rdropWhile_concat_pos _ _ _ (by simpa using h)]

theorem lastBlock_concat_self (log : List Launch) (e : Launch) :
    lastBlock e.memento (log ++ [e]) = log.rtakeWhile (·.memento == e.memento) ++ [e] := by
  unfold lastBlock
  rw [List.rdropWhile_concat_neg _ _ _ (by simp), List.rtakeWhile_concat_pos _ _ _ (by simp)]

/-- A launch right after one of its memento adds to the block. -/
theorem head?_lastBlock_of_same (h : log.getLast?.map (·.memento) = some e.memento) :
    (lastBlock e.memento (log ++ [e])).head? = (lastBlock e.memento log).head? := by
  rcases List.eq_nil_or_concat log with rfl | ⟨front, last, rfl⟩
  · cases h
  rw [List.concat_eq_append] at h ⊢
  rw [List.getLast?_concat] at h
  have hlast : last.memento = e.memento := Option.some.inj h
  rw [lastBlock_concat_self, ← hlast, lastBlock_concat_self, List.rtakeWhile_concat_pos _ _ _ (by simp)]
  rw [List.head?_append_of_ne_nil _ (by simp)]

/-- A launch after one of another memento begins a block. -/
theorem lastBlock_of_new (h : log.getLast?.map (·.memento) ≠ some e.memento) :
    lastBlock e.memento (log ++ [e]) = [e] := by
  rw [lastBlock_concat_self]
  rcases List.eq_nil_or_concat log with rfl | ⟨front, last, rfl⟩
  · rfl
  rw [List.concat_eq_append] at h ⊢
  rw [List.getLast?_concat] at h
  have hlast : last.memento ≠ e.memento := fun he => h (congrArg some he)
  rw [List.rtakeWhile_concat_neg _ _ _ (by simpa using hlast)]
  rfl

/-- An entry is the first launch of the last block of its memento. -/
theorem head?_lastBlock_of_mem (log : List Launch) :
    ∀ x ∈ unbounded log, (lastBlock x.memento log).head? = some x := by
  induction log using List.reverseRecOn with
  | nil => intro x hx; cases hx
  | append_singleton log e ih =>
    intro x hx
    rw [unbounded_concat, touch, mementos_unbounded, head?_ranking] at hx
    split_ifs at hx with h
    · by_cases hxe : x.memento = e.memento
      · rw [hxe, head?_lastBlock_of_same h, ← hxe]
        exact ih x hx
      · rw [lastBlock_concat_of_ne _ (Ne.symm hxe)]
        exact ih x hx
    · rcases List.mem_cons.1 hx with rfl | hx
      · rw [lastBlock_of_new h]
        rfl
      · obtain ⟨hx, hxe⟩ := List.mem_filter.1 hx
        have hxe : x.memento ≠ e.memento := by simpa using hxe
        rw [lastBlock_concat_of_ne _ (Ne.symm hxe)]
        exact ih x hx

example : (unbounded [⟨"a", .run, "1"⟩, ⟨"a", .run, "2"⟩, ⟨"b", .run, "3"⟩, ⟨"a", .run, "4"⟩,
    ⟨"a", .run, "5"⟩]).map (·.label) = ["4", "3"] := by
  decide

/-! ## The list with a capacity -/

/-- A promotion of the front of the list is the front of the list after one more launch. -/
theorem launches_promote_unbounded (hs : ∀ a b, same a b = true ↔ a = b) (log : List Launch) (e : Launch) :
    (promote same e ((unbounded log).take capacity)).launches =
      (unbounded (log ++ [e])).take capacity := by
  have hd : (mementos (unbounded log)).Nodup := by
    rw [mementos_unbounded]
    exact nodup_ranking log
  have hfront : (mementos ((unbounded log).take capacity)).Nodup :=
    hd.sublist ((List.take_sublist _ _).map _)
  rw [launches_promote hs hfront (List.length_take_le ..), take_touch_take hd, unbounded_concat]

end RecentLaunches.Recent
