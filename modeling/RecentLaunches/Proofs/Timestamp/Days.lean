/-
Days by number. A day is numbered by the days of the years before its year, of the months before its month, and of
its month. The numbers are in the order of year, month and day, and the day that is some days after the first of 1970
has the number that is as much greater.
-/
import RecentLaunches.Timestamp.Counted
import Mathlib.Tactic

namespace RecentLaunches

namespace Calendar

variable {year year' : Int} {month month' : Nat}

/-! ## Years -/

/-- The days from the beginning of the year 0 to that of a year. -/
def daysBefore (year : Int) : Int :=
  365 * year + (year + 3) / 4 - (year + 99) / 100 + (year + 399) / 400

/-- The days of a year. -/
def daysOf (year : Int) : Nat :=
  if isLeap year then 366 else 365

theorem isLeap_iff : isLeap year = true ↔ year % 4 = 0 ∧ (year % 100 ≠ 0 ∨ year % 400 = 0) := by
  unfold isLeap
  simp

theorem daysBefore_succ (year : Int) : daysBefore (year + 1) = daysBefore year + daysOf year := by
  unfold daysBefore daysOf
  split_ifs with h
  · rw [isLeap_iff] at h
    push_cast
    omega
  · rw [isLeap_iff] at h
    push_cast
    omega

/-- Every four hundred years have 146097 days. -/
theorem daysBefore_cycle (cycle : Int) (h0 : 0 ≤ year) (h1 : year ≤ 399) :
    daysBefore (year + cycle * 400 + 1) = 146097 * cycle + 365 * year + year / 4 - year / 100 + 366 := by
  have hfour : (year + cycle * 400 + 1 + 3) / 4 = year / 4 + 100 * cycle + 1 := by omega
  have hcentury : (year + cycle * 400 + 1 + 99) / 100 = year / 100 + 4 * cycle + 1 := by omega
  have hcycle : (year + cycle * 400 + 1 + 399) / 400 = cycle + 1 := by omega
  unfold daysBefore
  rw [hfour, hcentury, hcycle]
  ring

/-- Every year has begun and ended before a later one begins. -/
theorem daysBefore_add_le (h : year < year') : daysBefore year + daysOf year ≤ daysBefore year' := by
  rw [← daysBefore_succ]
  unfold daysBefore
  omega

/-! ## Months -/

/-- The days from the beginning of a year to that of a month. -/
def daysBeforeMonth (year : Int) : Nat → Nat
  | 0 => 0
  | 1 => 0
  | m + 2 => daysBeforeMonth year (m + 1) + daysIn year (m + 1)

theorem daysBeforeMonth_succ (year : Int) (h : 1 ≤ month) :
    daysBeforeMonth year (month + 1) = daysBeforeMonth year month + daysIn year month := by
  obtain ⟨m, rfl⟩ := Nat.exists_eq_add_of_le' h
  rfl

/-- Every month has begun and ended before a later one begins. -/
theorem daysBeforeMonth_add_le (year : Int) (h : 1 ≤ month) (hlt : month < month') :
    daysBeforeMonth year month + daysIn year month ≤ daysBeforeMonth year month' := by
  rw [← daysBeforeMonth_succ year h]
  induction month', hlt using Nat.le_induction with
  | base => exact le_rfl
  | succ m hm ih =>
    have hnext := daysBeforeMonth_succ year (show 1 ≤ m by omega)
    omega

/-- The months make up the year. -/
theorem daysBeforeMonth_december (year : Int) : daysBeforeMonth year 12 + daysIn year 12 = daysOf year := by
  unfold daysOf
  rcases h : isLeap year with _ | _ <;> simp [daysBeforeMonth, daysIn, h]

/-- From March on, months begin after days that five of them to 153 days give. -/
theorem daysBeforeMonth_add_three (year : Int) (h : month ≤ 9) :
    daysBeforeMonth year (month + 3) + 306 = daysOf year + (153 * month + 2) / 5 := by
  unfold daysOf
  rcases hleap : isLeap year with _ | _ <;> interval_cases month <;> simp [daysBeforeMonth, daysIn, hleap]

end Calendar

namespace Date

open Calendar

variable {d e : Date}

theorem bounds (d : Date) : 1 ≤ d.month ∧ d.month ≤ 12 ∧ 1 ≤ d.day ∧ d.day ≤ daysIn d.year d.month := by
  have h := d.isDate
  simp only [Calendar.isDate, Bool.and_eq_true, decide_eq_true_eq] at h
  exact ⟨h.1.1.1.2, h.1.1.2, h.1.2, h.2⟩

/-- The number of a day; that of the first day of the year 0 is 1. -/
def number (d : Date) : Int :=
  daysBefore d.year + daysBeforeMonth d.year d.month + d.day

theorem daysBefore_lt_number (d : Date) : daysBefore d.year < d.number := by
  obtain ⟨-, -, h, -⟩ := d.bounds
  unfold number
  omega

theorem daysBeforeMonth_add_le_daysOf (d : Date) :
    daysBeforeMonth d.year d.month + daysIn d.year d.month ≤ daysOf d.year := by
  obtain ⟨h1, h12, -, -⟩ := d.bounds
  rw [← daysBeforeMonth_december]
  rcases h12.eq_or_lt with h | h
  · rw [h]
  · exact (daysBeforeMonth_add_le d.year h1 h).trans (Nat.le_add_right ..)

theorem number_le (d : Date) : d.number ≤ daysBefore d.year + daysOf d.year := by
  have hmonth := d.daysBeforeMonth_add_le_daysOf
  obtain ⟨-, -, -, hday⟩ := d.bounds
  unfold number
  omega

/-! ## The order of days -/

/-- The order of year, month and day. -/
def Precedes (d e : Date) : Prop :=
  d.year < e.year ∨ d.year = e.year ∧ (d.month < e.month ∨ d.month = e.month ∧ d.day < e.day)

theorem Precedes.number_lt (h : d.Precedes e) : d.number < e.number := by
  rcases h with h | ⟨hy, h | ⟨hm, h⟩⟩
  · have hyears := daysBefore_add_le h
    have hd := d.number_le
    have he := e.daysBefore_lt_number
    omega
  · obtain ⟨hm, -, -, hd⟩ := d.bounds
    obtain ⟨-, -, he, -⟩ := e.bounds
    have hmonths := daysBeforeMonth_add_le d.year hm h
    unfold number
    rw [← hy]
    omega
  · unfold number
    rw [← hy, ← hm]
    omega

theorem eq_iff : d = e ↔ d.year = e.year ∧ d.month = e.month ∧ d.day = e.day := by
  obtain ⟨y, m, k, h⟩ := d
  obtain ⟨y', m', k', h'⟩ := e
  simp

/-- Days of which neither precedes the other are the same. -/
theorem precedes_trichotomy (d e : Date) : d.Precedes e ∨ d = e ∨ e.Precedes d := by
  rw [eq_iff]
  unfold Precedes
  omega

theorem number_lt_iff : d.number < e.number ↔ d.Precedes e := by
  refine ⟨fun h => ?_, Precedes.number_lt⟩
  rcases d.precedes_trichotomy e with hlt | rfl | hgt
  · exact hlt
  · exact absurd h (lt_irrefl _)
  · exact absurd hgt.number_lt h.asymm

theorem number_inj : d.number = e.number ↔ d = e := by
  refine ⟨fun h => ?_, congrArg _⟩
  rcases d.precedes_trichotomy e with hlt | heq | hgt
  · exact absurd h hlt.number_lt.ne
  · exact heq
  · exact absurd h hgt.number_lt.ne'

/-! ## Days from the first of 1970 -/

/-- In four hundred years from a March on, the year of a day is found by leaving the leap days out, and what is left
are days of that year. -/
theorem ofYear_bounds {day year : Int} (h0 : 0 ≤ day) (h1 : day ≤ 146096)
    (hy : year = (day - day / 1460 + day / 36524 - day / 146096) / 365) :
    0 ≤ year ∧ year ≤ 399 ∧ 0 ≤ day - (365 * year + year / 4 - year / 100) ∧
      day - (365 * year + year / 4 - year / 100) ≤ 365 := by
  rcases h1.eq_or_lt with rfl | h1
  · norm_num at hy
    subst hy
    norm_num
  -- otherwise take the day apart into centuries, cycles of four years and the rest
  obtain ⟨c, s, hc, hs0, hs1⟩ : ∃ c s, day = 36524 * c + s ∧ 0 ≤ s ∧ s < 36524 :=
    ⟨day / 36524, day % 36524, by omega, by omega, by omega⟩
  obtain ⟨q, t, hq, ht0, ht1⟩ : ∃ q t, s = 1461 * q + t ∧ 0 ≤ t ∧ t < 1461 :=
    ⟨s / 1461, s % 1461, by omega, by omega, by omega⟩
  have hcbounds : 0 ≤ c ∧ c ≤ 3 := by omega
  have hqbounds : 0 ≤ q ∧ q ≤ 24 := by omega
  have hcentury : day / 36524 = c := by omega
  have hlast : day / 146096 = 0 := by omega
  have hfour : day / 1460 = 25 * c + q + (24 * c + q + t) / 1460 := by omega
  rw [hcentury, hlast, hfour] at hy
  obtain ⟨z, hz⟩ : ∃ z, z = (t - (24 * c + q + t) / 1460) / 365 := ⟨_, rfl⟩
  have hyear : year = 100 * c + 4 * q + z := by omega
  have hzbounds : 0 ≤ z ∧ z ≤ 3 := by omega
  have hleap : year / 4 = 25 * c + q := by omega
  have hcenturies : year / 100 = c := by omega
  omega

/-- The day that is counted from the first of 1970 has the number that is counted from the number of that one. -/
theorem number_ofDay? {days : Int} (h : ofDay? days = some d) : d.number = days + 719529 := by
  unfold ofDay? at h
  simp only at h
  obtain ⟨cycle, hcycle⟩ : ∃ c, c = (days + 719468) / 146097 := ⟨_, rfl⟩
  obtain ⟨day, hday⟩ : ∃ r, r = (days + 719468) % 146097 := ⟨_, rfl⟩
  rw [← hcycle, ← hday] at h
  obtain ⟨year, hyear⟩ : ∃ y, y = (day - day / 1460 + day / 36524 - day / 146096) / 365 := ⟨_, rfl⟩
  rw [← hyear] at h
  obtain ⟨hy0, hy1, hof0, hof1⟩ := ofYear_bounds (by omega) (by omega) hyear
  obtain ⟨ofYear, hofYear⟩ : ∃ k, k = day - (365 * year + year / 4 - year / 100) := ⟨_, rfl⟩
  rw [← hofYear] at h hof0 hof1
  obtain ⟨month, hmonth⟩ : ∃ m : Nat, (m : Int) = (5 * ofYear + 2) / 153 := ⟨((5 * ofYear + 2) / 153).toNat, by omega⟩
  rw [← hmonth] at h
  obtain ⟨hdy, hdm, hdd⟩ := of?_eq_some.1 h
  obtain ⟨-, -, hpos, -⟩ := d.bounds
  have hmarch := daysBefore_cycle cycle hy0 hy1
  unfold number
  by_cases hearly : (10 : Int) ≤ month
  · rw [if_pos hearly] at hdy hdm
    have hjanuary : (daysBeforeMonth d.year d.month : Int) = (153 * month + 2) / 5 - 306 := by
      have htwo : month = 10 ∨ month = 11 := by omega
      rcases htwo with rfl | rfl <;> rw [hdm] <;> rfl
    rw [hjanuary, hdy, hmarch]
    omega
  · rw [if_neg hearly] at hdy hdm
    have hm : d.month = month + 3 := by omega
    have hlater := daysBeforeMonth_add_three d.year (show month ≤ 9 by omega)
    have hnext := daysBefore_succ d.year
    have hyear' : d.year + 1 = year + cycle * 400 + 1 := by omega
    rw [hyear', hmarch] at hnext
    rw [hm]
    omega

end Date

end RecentLaunches
