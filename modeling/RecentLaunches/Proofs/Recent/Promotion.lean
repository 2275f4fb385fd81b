/-
What putting a launch at the head of a list can do, said once: the list stays as it is, or the first
entry of the same configuration makes room, or the launch is new; and a list that is too long loses its
last entry. From this follow what a promotion keeps: where the entries come from, and, for a sameness
that is an equivalence, that no two of them are the same, the evicted one included; and which entry is lost.
-/
import RecentLaunches.Recent
import Mathlib.Tactic

namespace RecentLaunches.Recent

variable {same same' : Sameness} {e gone : Launch} {l : Recent}

theorem remembers_eq_false_iff {m : Memento} :
    remembers same m l = false ↔ ∀ x ∈ l, same x.memento m = false := by
  unfold remembers
  simp

/-! ## Cutting to the capacity -/

/-- Nothing is lost when a list is cut: the entry that fell off stood at its end. -/
theorem bounded_append (l : Recent) : (bounded l).launches ++ (bounded l).evicted.toList = l := by
  unfold bounded
  split_ifs with h
  · rcases List.eq_nil_or_concat l with rfl | ⟨front, last, rfl⟩
    · simp at h
    · simp
  · simp

/-- A list within the capacity is not cut. -/
theorem bounded_eq_self (h : l.length ≤ capacity) : bounded l = ⟨l, none⟩ :=
  if_neg (Nat.not_lt.2 h)

theorem launches_bounded (h : l.length ≤ capacity + 1) : (bounded l).launches = l.take capacity := by
  unfold bounded
  split_ifs with hc
  · have hlen : l.length - 1 = capacity := by omega
    rw [← hlen, List.dropLast_eq_take]
  · rw [List.take_of_length_le (Nat.le_of_not_lt hc)]

theorem length_bounded (h : l.length ≤ capacity + 1) : (bounded l).launches.length ≤ capacity := by
  rw [launches_bounded h]
  exact List.length_take_le ..

/-- The first two entries of a list are kept when the list is cut. -/
theorem bounded_cons (e : Launch) (l : Recent) :
    ∃ rest, (bounded (e :: l)).launches = e :: rest ∧ rest.head? = l.head? := by
  unfold bounded
  split_ifs with h
  · rcases l with _ | ⟨a, _ | ⟨b, l⟩⟩
    · simp [capacity] at h
    · simp [capacity] at h
    · exact ⟨a :: (b :: l).dropLast, rfl, rfl⟩
  · exact ⟨l, rfl, rfl⟩

/-! ## The three cases -/

/-- All that a promotion does, by the first entry that counts as a launch of the same configuration. -/
theorem promote_cases (same : Sameness) (e : Launch) (l : Recent) :
    (∃ head rest, l = head :: rest ∧ same head.memento e.memento = true ∧ promote same e l = ⟨l, none⟩) ∨
    (∃ before old after, l = before ++ old :: after ∧ before ≠ [] ∧
      (∀ x ∈ before, same x.memento e.memento = false) ∧ same old.memento e.memento = true ∧
      promote same e l = bounded (e :: (before ++ after))) ∨
    ((∀ x ∈ l, same x.memento e.memento = false) ∧ promote same e l = bounded (e :: l)) := by
  rcases hp : position? same e.memento l with _ | i
  · refine .inr (.inr ⟨?_, by rw [promote, hp]⟩)
    rw [position?, List.findIdx?_eq_none_iff] at hp
    exact hp
  · obtain ⟨hi, hsame, hfirst⟩ := List.findIdx?_eq_some_iff_getElem.1 hp
    cases i with
    | zero =>
      obtain ⟨head, rest, rfl⟩ := List.exists_cons_of_length_pos hi
      exact .inl ⟨head, rest, rfl, hsame, by rw [promote, hp]⟩
    | succ i =>
      refine .inr (.inl ⟨l.take (i + 1), l[i + 1], l.drop (i + 2), ?_, ?_, ?_, hsame, ?_⟩)
      · rw [List.getElem_cons_drop, List.take_append_drop]
      · intro h
        rw [List.take_eq_nil_iff] at h
        rcases h with h | rfl
        · omega
        · simp at hi
      · intro x hx
        obtain ⟨j, hj, rfl⟩ := List.mem_take_iff_getElem.1 hx
        simpa using hfirst j (by omega)
      · rw [promote, hp]
        simp only
        rw [List.eraseIdx_eq_take_drop_succ]

/-- A list whose head counts as a launch of the configuration stays as it is. -/
theorem promote_of_head {head : Launch} {rest : Recent} (h : same head.memento e.memento = true) :
    promote same e (head :: rest) = ⟨head :: rest, none⟩ := by
  unfold promote position?
  rw [List.findIdx?_cons, if_pos h]

theorem position?_congr {m : Memento} (h : ∀ x ∈ l, same x.memento m = same' x.memento m) :
    position? same m l = position? same' m l := by
  unfold position?
  induction l with
  | nil => rfl
  | cons x l ih =>
    rw [List.findIdx?_cons, List.findIdx?_cons, h x List.mem_cons_self, ih fun y hy => h y (List.mem_cons_of_mem _ hy)]

/-- A promotion asks what the entries of the list have to do with the launch, and nothing else. -/
theorem promote_congr (h : ∀ x ∈ l, same x.memento e.memento = same' x.memento e.memento) :
    promote same e l = promote same' e l := by
  unfold promote
  rw [position?_congr h]

/-! ## What is kept -/

/-- Every entry of a promoted list, and the evicted one, is an old one or the new one. -/
theorem mem_promote {x : Launch}
    (h : x ∈ (promote same e l).launches ++ (promote same e l).evicted.toList) : x ∈ l ∨ x = e := by
  rcases promote_cases same e l with
    ⟨head, rest, rfl, -, hp⟩ | ⟨before, old, after, rfl, -, -, -, hp⟩ | ⟨-, hp⟩ <;> rw [hp] at h
  · exact .inl (by simpa using h)
  · rw [bounded_append] at h
    simp only [List.mem_cons, List.mem_append] at h ⊢
    tauto
  · rw [bounded_append, List.mem_cons] at h
    exact h.symm

theorem mode_promote {mode : Mode} (hl : ∀ x ∈ l, x.mode = mode) (he : e.mode = mode) :
    ∀ x ∈ (promote same e l).launches, x.mode = mode := by
  intro x hx
  rcases mem_promote (List.mem_append_left _ hx) with hx | rfl
  · exact hl x hx
  · exact he

/-- A promotion keeps the list with its head, or puts the launch before it. -/
theorem head_promote (same : Sameness) (e : Launch) (l : Recent) :
    (∃ head rest, l = head :: rest ∧ same head.memento e.memento = true ∧ (promote same e l).launches = l) ∨
      ∃ rest, (promote same e l).launches = e :: rest ∧ rest.head? = l.head? := by
  rcases promote_cases same e l with
    ⟨head, rest, rfl, hs, hp⟩ | ⟨before, old, after, rfl, hb, -, -, hp⟩ | ⟨-, hp⟩ <;> rw [hp]
  · exact .inl ⟨head, rest, rfl, hs, rfl⟩
  · obtain ⟨rest, hl, hhead⟩ := bounded_cons e (before ++ after)
    refine .inr ⟨rest, hl, ?_⟩
    obtain ⟨first, before, rfl⟩ := List.exists_cons_of_ne_nil hb
    exact hhead
  · exact .inr (bounded_cons e l)

/-- A promoted list has an entry of the configuration. -/
theorem exists_mem_promote (hrefl : same e.memento e.memento = true) :
    ∃ x ∈ (promote same e l).launches, same x.memento e.memento = true := by
  rcases head_promote same e l with ⟨head, rest, rfl, hs, hp⟩ | ⟨rest, hp, -⟩ <;> rw [hp]
  · exact ⟨head, List.mem_cons_self, hs⟩
  · exact ⟨e, List.mem_cons_self, hrefl⟩

theorem length_promote (h : l.length ≤ capacity) : (promote same e l).launches.length ≤ capacity := by
  rcases promote_cases same e l with
    ⟨head, rest, rfl, -, hp⟩ | ⟨before, old, after, rfl, -, -, -, hp⟩ | ⟨-, hp⟩ <;> rw [hp]
  · exact h
  · refine length_bounded ?_
    simp at h ⊢; omega
  · refine length_bounded ?_
    simp; omega

/-! ## What falls off -/

theorem evicted_bounded_eq_some_iff :
    (bounded l).evicted = some gone ↔ capacity < l.length ∧ l.getLast? = some gone := by
  unfold bounded
  split_ifs with h
  · exact (and_iff_right h).symm
  · simp [h]

/-- An entry is evicted if it is the last one of a full list that has none of the launched configuration. -/
theorem evicted_promote_eq_some_iff (hl : l.length ≤ capacity) :
    (promote same e l).evicted = some gone ↔
      l.length = capacity ∧ (∀ x ∈ l, same x.memento e.memento = false) ∧ l.getLast? = some gone := by
  rcases promote_cases same e l with
    ⟨head, rest, rfl, hh, hp⟩ | ⟨before, old, after, rfl, -, -, ho, hp⟩ | ⟨hn, hp⟩ <;> rw [hp]
  · refine iff_of_false (by simp) ?_
    rintro ⟨-, hn, -⟩
    have := hn head List.mem_cons_self
    rw [hh] at this
    cases this
  · rw [evicted_bounded_eq_some_iff]
    constructor
    · -- the entry that makes room leaves the list within its capacity
      rintro ⟨hlong, -⟩
      simp at hl hlong
      omega
    · rintro ⟨-, hn, -⟩
      have := hn old (by simp)
      rw [ho] at this
      cases this
  · rw [evicted_bounded_eq_some_iff, List.length_cons]
    constructor
    · rintro ⟨hlong, hlast⟩
      have hfull : l.length = capacity := by omega
      obtain ⟨first, rest, rfl⟩ := List.exists_cons_of_length_pos (hfull ▸ (by decide : 0 < capacity))
      rw [List.getLast?_cons_cons] at hlast
      exact ⟨hfull, hn, hlast⟩
    · rintro ⟨hfull, -, hlast⟩
      obtain ⟨first, rest, rfl⟩ := List.exists_cons_of_length_pos (hfull ▸ (by decide : 0 < capacity))
      rw [List.getLast?_cons_cons]
      exact ⟨by omega, hlast⟩

/-! ## Entries that are not the same -/

/-- No two entries of a list count as launches of the same configuration. -/
def Apart (same : Sameness) (l : Recent) : Prop :=
  l.Pairwise fun a b => same a.memento b.memento = false

/-- A promotion takes every entry of the launched configuration away, as only one can be there: after
it the entries are apart again, and the evicted one is apart from all that stay. -/
theorem apart_promote (hs : Equivalence fun a b => same a b = true) (hl : Apart same l) :
    Apart same ((promote same e l).launches ++ (promote same e l).evicted.toList) := by
  -- an entry that is not a launch of `e` in one order of arguments is none in the other
  have flip : ∀ a b : Memento, same a b = false → same b a = false := by
    intro a b h
    by_contra hb
    rw [Bool.not_eq_false] at hb
    rw [hs.symm hb] at h
    cases h
  rcases promote_cases same e l with
    ⟨head, rest, rfl, -, hp⟩ | ⟨before, old, after, rfl, -, hb, ho, hp⟩ | ⟨hn, hp⟩ <;> rw [hp]
  · simpa using hl
  · rw [bounded_append]
    obtain ⟨h1, h2, h3⟩ := List.pairwise_append.1 hl
    obtain ⟨h4, h5⟩ := List.pairwise_cons.1 h2
    refine List.pairwise_cons.2 ⟨?_, List.pairwise_append.2 ⟨h1, h5, ?_⟩⟩
    · intro x hx
      rcases List.mem_append.1 hx with hx | hx
      · exact flip _ _ (hb x hx)
      · -- were `x` a launch of `e`, it would be the same as the first one found
        by_contra hex
        rw [Bool.not_eq_false] at hex
        have := h4 x hx
        rw [hs.trans ho hex] at this
        cases this
    · intro a ha b hb'
      exact h3 a ha b (List.mem_cons_of_mem _ hb')
  · rw [bounded_append]
    exact List.pairwise_cons.2 ⟨fun x hx => flip _ _ (hn x hx), hl⟩

end RecentLaunches.Recent
