/-
The rules of a list of recent launches. Looking for a breach finds none exactly where the rules hold;
taking entries away, adding at the end and promoting keep the rules. Promoting does so because a store
that tells configurations apart by their mementos lets no two entries with one memento in.
-/
import RecentLaunches.Violation
import RecentLaunches.Proofs.Recent.Promotion

namespace RecentLaunches.Recent

variable {mode : Mode} {l : Recent}

/-! ## Looking for a breach -/

/-- No entry is bad exactly if all mementos are new and different and all modes are right. -/
theorem firstBreach?_eq_none_iff (mode : Mode) : ∀ (l : Recent) (seen : List Memento),
    firstBreach? mode seen l = none ↔
      (∀ e ∈ l, e.memento ∉ seen ∧ e.mode = mode) ∧ (mementos l).Nodup
  | [], seen => by simp [firstBreach?, mementos]
  | e :: l, seen => by
    rw [firstBreach?]
    by_cases h1 : seen.contains e.memento = true
    · rw [if_pos h1]
      refine ⟨(fun h => by cases h), fun h => ?_⟩
      exact absurd (List.contains_iff_mem.1 h1) (h.1 e (List.mem_cons_self ..)).1
    rw [if_neg h1]
    by_cases h2 : e.mode = mode
    · rw [List.contains_iff_mem] at h1
      rw [if_neg (not_not.2 h2)]
      rw [firstBreach?_eq_none_iff mode l (e.memento :: seen)]
      simp only [mementos, List.map_cons, List.nodup_cons, List.mem_map, List.mem_cons, not_or,
        forall_eq_or_imp]
      constructor
      · rintro ⟨h3, h4⟩
        refine ⟨⟨⟨h1, h2⟩, fun a ha => ⟨(h3 a ha).1.2, (h3 a ha).2⟩⟩, ?_, h4⟩
        rintro ⟨a, ha, he⟩
        exact (h3 a ha).1.1 he
      · rintro ⟨⟨-, h3⟩, h4, h5⟩
        exact ⟨fun a ha => ⟨⟨fun he => h4 ⟨a, ha, he⟩, (h3 a ha).1⟩, (h3 a ha).2⟩, h5⟩
    · rw [if_pos h2]
      refine ⟨(fun h => by cases h), fun h => ?_⟩
      exact absurd (h.1 e (List.mem_cons_self ..)).2 h2

/-- Looking for a breach finds none exactly where the rules hold. -/
theorem violation?_eq_none_iff : violation? mode l = none ↔ WF mode l := by
  unfold violation?
  by_cases h : capacity < l.length
  · rw [if_pos h]
    exact ⟨(fun h => by cases h), fun hw => absurd hw.bounded (Nat.not_le.2 h)⟩
  · rw [if_neg h, firstBreach?_eq_none_iff]
    constructor
    · rintro ⟨h1, h2⟩
      exact ⟨Nat.le_of_not_lt h, h2, fun e he => (h1 e he).2⟩
    · rintro ⟨-, h2, h3⟩
      exact ⟨fun e he => ⟨List.not_mem_nil, h3 e he⟩, h2⟩

/-! ## What keeps the rules -/

theorem WF.nil (mode : Mode) : WF mode [] :=
  ⟨Nat.zero_le _, List.nodup_nil, fun _ h => nomatch h⟩

/-- Taking entries away keeps the rules. -/
theorem WF.sublist {l' : Recent} (hw : WF mode l) (h : l'.Sublist l) : WF mode l' :=
  ⟨h.length_le.trans hw.bounded, hw.distinct.sublist (h.map _), fun e he => hw.ownMode e (h.subset he)⟩

/-- What is added at the end: nothing, or an entry with a new memento where there is room. -/
theorem append_cases (l : Recent) (e : Launch) :
    append l e = l ∨ (e.memento ∉ mementos l ∧ l.length < capacity ∧ append l e = l ++ [e]) := by
  unfold append
  split_ifs with h
  · exact .inl rfl
  · rw [Bool.or_eq_true, not_or, List.contains_iff_mem, decide_eq_true_eq, Nat.not_le] at h
    exact .inr ⟨h.1, h.2, rfl⟩

theorem mementos_append (a b : Recent) : mementos (a ++ b) = mementos a ++ mementos b :=
  List.map_append

/-- Adding at the end keeps the rules. -/
theorem WF.append {e : Launch} (hw : WF mode l) (he : e.mode = mode) : WF mode (append l e) := by
  rcases append_cases l e with h | ⟨h1, h2, h⟩ <;> rw [h]
  · exact hw
  · refine ⟨by simpa using h2, ?_, fun x hx => ?_⟩
    · rw [mementos_append]
      refine List.nodup_append.2 ⟨hw.distinct, List.nodup_singleton _, fun a ha b hb hab => ?_⟩
      rw [hab, List.mem_singleton.1 hb] at ha
      exact h1 ha
    · rcases List.mem_append.1 hx with hx | hx
      · exact hw.ownMode x hx
      · rw [List.mem_singleton.1 hx]; exact he

/-- The next entry of a list that keeps the rules is added to those before it. -/
theorem WF.append_eq {front rest : Recent} {e : Launch} (hw : WF mode (front ++ e :: rest)) :
    Recent.append front e = front ++ [e] := by
  rcases append_cases front e with h | ⟨-, -, h⟩
  · -- the entry would have been refused for its memento or for want of room
    exfalso
    have hlen := hw.bounded
    have hd := hw.distinct
    rw [mementos_append, List.nodup_append] at hd
    unfold Recent.append at h
    split_ifs at h with hc
    · rw [Bool.or_eq_true, List.contains_iff_mem, decide_eq_true_eq] at hc
      rcases hc with hc | hc
      · exact hd.2.2 _ hc _ (by simp [mementos]) rfl
      · simp at hlen; omega
    · simp at h
  · exact h

/-- An entry with a memento counts as a launch of it. -/
theorem notMem_mementos {same : Sameness} {m : Memento} (hrefl : ∀ a, same a a = true)
    (h : ∀ x ∈ l, same x.memento m = false) : m ∉ mementos l := by
  intro hm
  obtain ⟨x, hx, rfl⟩ := List.mem_map.1 hm
  have hx := h x hx
  rw [hrefl] at hx
  cases hx

/-! ## Mementos as the sameness -/

/-- Where mementos tell configurations apart, entries are apart exactly if their mementos differ. -/
theorem apart_iff_nodup {same : Sameness} (hs : ∀ a b, same a b = true ↔ a = b) :
    Apart same l ↔ (mementos l).Nodup := by
  unfold Apart mementos List.Nodup
  rw [List.pairwise_map]
  refine List.Pairwise.iff fun {a b} => ?_
  rw [← Bool.not_eq_true, hs]

theorem equivalence_of_exact {same : Sameness} (hs : ∀ a b, same a b = true ↔ a = b) :
    Equivalence fun a b => same a b = true := by
  refine ⟨fun a => (hs a a).2 rfl, fun {a b} h => ?_, fun {a b c} h1 h2 => ?_⟩
  · exact (hs b a).2 ((hs a b).1 h).symm
  · exact (hs a c).2 (((hs a b).1 h1).trans ((hs b c).1 h2))

/-- What is left of a list after a promotion is of other configurations than the evicted entry. -/
theorem ne_of_evicted {same : Sameness} (hs : ∀ a b, same a b = true ↔ a = b) {e gone x : Launch}
    (hw : WF mode l) (hgone : (promote same e l).evicted = some gone)
    (hx : x ∈ (promote same e l).launches) : x.memento ≠ gone.memento := by
  have hapart := apart_promote (e := e) (equivalence_of_exact hs) ((apart_iff_nodup hs).2 hw.distinct)
  have hmem : gone ∈ (promote same e l).evicted.toList := by
    rw [hgone]
    exact List.mem_singleton.2 rfl
  intro he
  have hfalse := (List.pairwise_append.1 hapart).2.2 x hx gone hmem
  rw [(hs _ _).2 he] at hfalse
  cases hfalse

/-- A promotion loses no memento but that of the evicted entry. -/
theorem mem_mementos_promote {same : Sameness} (hs : ∀ a b, same a b = true ↔ a = b) {e : Launch}
    {m : Memento} :
    m ∈ mementos ((promote same e l).launches ++ (promote same e l).evicted.toList) ↔
      m ∈ mementos l ∨ m = e.memento := by
  rcases promote_cases same e l with
    ⟨head, rest, rfl, hh, hp⟩ | ⟨before, old, after, rfl, -, -, ho, hp⟩ | ⟨-, hp⟩ <;> rw [hp]
  · have hhead : head.memento = e.memento := (hs _ _).1 hh
    simp only [Option.toList_none, List.append_nil]
    refine ⟨.inl, ?_⟩
    rintro (hm | rfl)
    · exact hm
    · rw [← hhead]
      exact List.mem_cons_self ..
  · have hold : old.memento = e.memento := (hs _ _).1 ho
    rw [bounded_append]
    simp only [mementos, List.map_cons, List.map_append, List.mem_cons, List.mem_append, hold]
    tauto
  · rw [bounded_append]
    simp only [mementos, List.map_cons, List.mem_cons]
    tauto

/-- Promoting keeps the rules. -/
theorem WF.promote {same : Sameness} (hs : ∀ a b, same a b = true ↔ a = b) {e : Launch}
    (hw : WF mode l) (he : e.mode = mode) : WF mode (promote same e l).launches := by
  refine ⟨length_promote hw.bounded, ?_, mode_promote hw.ownMode he⟩
  rw [← apart_iff_nodup hs]
  have := apart_promote (e := e) (equivalence_of_exact hs) ((apart_iff_nodup hs).2 hw.distinct)
  exact (List.pairwise_append.1 this).1

end RecentLaunches.Recent
