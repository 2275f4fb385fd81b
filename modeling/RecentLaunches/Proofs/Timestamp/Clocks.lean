/-
Times of day and what is shown of them. A leap second at the end of a minute is shown as such; after any other second it
is shown like the second that follows, and read as that. So every time of day has a canonical one, which is shown alike
and is read; and as numbers are shown, so do the canonical times of day follow each other.
-/
import RecentLaunches.Timestamp
import Mathlib.Tactic

namespace RecentLaunches

theorem Calendar.isTime_iff {hour minute second nano : Nat} :
    isTime hour minute second nano = true ↔ hour < 24 ∧ minute < 60 ∧ second < 60 ∧ nano < 2000000000 := by
  simp only [isTime, Bool.and_eq_true, decide_eq_true_eq, and_assoc]

namespace Clock

variable {c d : Clock} {hour minute second nano : Nat}

theorem bounds (c : Clock) : c.hour < 24 ∧ c.minute < 60 ∧ c.second < 60 ∧ c.nano < 2000000000 :=
  Calendar.isTime_iff.1 c.isTime

theorem eq_iff : c = d ↔ c.hour = d.hour ∧ c.minute = d.minute ∧ c.second = d.second ∧ c.nano = d.nano := by
  obtain ⟨h, m, s, n, hc⟩ := c
  obtain ⟨h', m', s', n', hd⟩ := d
  simp

theorem of?_eq_some_iff :
    of? hour minute second nano = some c ↔
      c.hour = hour ∧ c.minute = minute ∧ c.second = second ∧ c.nano = nano := by
  unfold of?
  constructor
  · intro h
    split_ifs at h
    cases h
    exact ⟨rfl, rfl, rfl, rfl⟩
  · rintro ⟨rfl, rfl, rfl, rfl⟩
    rw [dif_pos c.isTime]

theorem of?_self (c : Clock) : of? c.hour c.minute c.second c.nano = some c :=
  of?_eq_some_iff.2 ⟨rfl, rfl, rfl, rfl⟩

/-! ## Canonical times of day -/

/-- Whether a time of day is in no leap second, or in one at the end of its minute. -/
def IsCanonical (c : Clock) : Prop :=
  c.nano < 1000000000 ∨ c.second = 59

instance (c : Clock) : Decidable c.IsCanonical :=
  inferInstanceAs (Decidable (_ ∨ _))

/-- There is a next second in the minute where a leap second is not at its end. -/
theorem isTime_succ (c : Clock) (h : ¬c.IsCanonical) :
    Calendar.isTime c.hour c.minute (c.second + 1) (c.nano - 1000000000) = true := by
  obtain ⟨hhour, hminute, hsecond, hnano⟩ := c.bounds
  unfold IsCanonical at h
  exact Calendar.isTime_iff.2 ⟨hhour, hminute, by omega, by omega⟩

/-- The time of day that is shown like a time of day and that is read. -/
def canonical (c : Clock) : Clock :=
  if h : c.IsCanonical then c else ⟨c.hour, c.minute, c.second + 1, c.nano - 1000000000, c.isTime_succ h⟩

theorem canonical_of_isCanonical (h : c.IsCanonical) : c.canonical = c :=
  dif_pos h

theorem canonical_of_not (h : ¬c.IsCanonical) :
    c.canonical = ⟨c.hour, c.minute, c.second + 1, c.nano - 1000000000, c.isTime_succ h⟩ :=
  dif_neg h

theorem isCanonical_canonical (c : Clock) : c.canonical.IsCanonical := by
  by_cases h : c.IsCanonical
  · rw [canonical_of_isCanonical h]
    exact h
  · obtain ⟨-, -, -, hnano⟩ := c.bounds
    rw [canonical_of_not h]
    exact .inl (by show c.nano - 1000000000 < 1000000000; omega)

theorem canonical_eq_self_iff : c.canonical = c ↔ c.IsCanonical :=
  ⟨fun h => h ▸ c.isCanonical_canonical, canonical_of_isCanonical⟩

theorem hour_canonical (c : Clock) : c.canonical.hour = c.hour := by
  unfold canonical
  split_ifs <;> rfl

theorem minute_canonical (c : Clock) : c.canonical.minute = c.minute := by
  unfold canonical
  split_ifs <;> rfl

/-! ## What is shown -/

theorem shownSecond_le (c : Clock) : c.shownSecond ≤ 60 := by
  obtain ⟨-, -, hsecond, hnano⟩ := c.bounds
  unfold shownSecond
  omega

theorem shownNano_lt (c : Clock) : c.shownNano < 1000000000 :=
  Nat.mod_lt _ (by decide)

theorem shown_canonical (c : Clock) :
    c.canonical.shownSecond = c.shownSecond ∧ c.canonical.shownNano = c.shownNano := by
  by_cases h : c.IsCanonical
  · rw [canonical_of_isCanonical h]
    exact ⟨rfl, rfl⟩
  · rw [canonical_of_not h]
    unfold IsCanonical at h
    unfold shownSecond shownNano
    simp only
    omega

/-- What is shown of a time of day is read as its canonical one. -/
theorem ofShown?_shown (c : Clock) : ofShown? c.hour c.minute c.shownSecond c.shownNano = some c.canonical := by
  have hnano := c.shownNano_lt
  obtain ⟨hsecond, hrest⟩ := c.shown_canonical
  rw [← c.hour_canonical, ← c.minute_canonical, ← hsecond, ← hrest]
  rw [← hrest] at hnano
  have hcanonical := c.isCanonical_canonical
  generalize c.canonical = c at *
  obtain ⟨-, -, hlast, hleap⟩ := c.bounds
  unfold IsCanonical at hcanonical
  unfold ofShown?
  rw [if_neg (by omega)]
  -- the second that is shown is 60 in a leap second, and only there
  split_ifs with h <;> refine of?_eq_some_iff.2 ⟨rfl, rfl, ?_, ?_⟩ <;> unfold shownSecond shownNano at * <;> omega

/-- What is read is canonical. -/
theorem isCanonical_of_ofShown? (h : ofShown? hour minute second nano = some c) : c.IsCanonical := by
  unfold ofShown? at h
  unfold IsCanonical
  split_ifs at h with hnano hsecond <;> obtain ⟨-, -, hs, hn⟩ := of?_eq_some_iff.1 h <;> omega

/-- Of canonical times of day in one minute, the seconds and their rests are in the order in which they are shown. -/
theorem shown_lt_shown_iff (hc : c.IsCanonical) (hd : d.IsCanonical) :
    (c.shownSecond < d.shownSecond ∨ c.shownSecond = d.shownSecond ∧ c.shownNano < d.shownNano) ↔
      (c.second < d.second ∨ c.second = d.second ∧ c.nano < d.nano) := by
  obtain ⟨-, -, hc3, hc4⟩ := c.bounds
  obtain ⟨-, -, hd3, hd4⟩ := d.bounds
  unfold IsCanonical at hc hd
  unfold shownSecond shownNano
  omega

end Clock

/-! ## Moments -/

namespace Timestamp

variable {t : Timestamp}

/-- Whether a moment has a canonical time of day. -/
def IsCanonical (t : Timestamp) : Prop :=
  t.clock.IsCanonical

instance (t : Timestamp) : Decidable t.IsCanonical :=
  inferInstanceAs (Decidable t.clock.IsCanonical)

/-- The moment that is shown like a moment and that is read. -/
def canonical (t : Timestamp) : Timestamp :=
  ⟨t.date, t.clock.canonical⟩

theorem isCanonical_canonical (t : Timestamp) : t.canonical.IsCanonical :=
  t.clock.isCanonical_canonical

theorem canonical_eq_self_iff : t.canonical = t ↔ t.IsCanonical := by
  obtain ⟨date, clock⟩ := t
  rw [canonical, Timestamp.mk.injEq]
  exact (and_iff_right rfl).trans Clock.canonical_eq_self_iff

end Timestamp

end RecentLaunches
