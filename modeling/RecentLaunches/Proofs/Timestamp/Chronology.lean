/-
Stored moments in the order of time. Numbers of one width compare as their digits do, and a fraction is written in
groups of three digits up to the last one that is not zero, so that where one text breaks off the other goes on with a
character that is greater than the sign of the suffix. As a whole the texts of moments in years of four digits compare
as their canonical forms follow each other, leap seconds at the end of their minutes; and a leap second at any other place
is out of its order.
-/
import RecentLaunches.Proofs.Text.Order
import RecentLaunches.Proofs.Timestamp.Stored

namespace RecentLaunches.Timestamp

variable {a b r s : List Char} {width m n : Nat} {t u : Timestamp}

/-! ## Time -/

/-- The minutes up to a moment, from the beginning of the day before the year 0. -/
def minutes (t : Timestamp) : Int :=
  t.date.number * minutesPerDay + (t.clock.hour * 60 + t.clock.minute)

/-- The order of time: minutes follow each other, however many seconds they have, then seconds, and the nanoseconds
count within, those of a leap second after all others of the second before it. -/
def Precedes (t u : Timestamp) : Prop :=
  t.minutes < u.minutes ∨ t.minutes = u.minutes ∧ (t.clock.second < u.clock.second ∨
    t.clock.second = u.clock.second ∧ t.clock.nano < u.clock.nano)

instance (t u : Timestamp) : Decidable (t.Precedes u) :=
  inferInstanceAs (Decidable (_ ∨ _))

/-- Moments that a clock gives are in no leap second. -/
theorem isCanonical_of_ofNanos? {i : Int} (ht : ofNanos? i = some t) : t.IsCanonical := by
  obtain ⟨date, -, ht⟩ := Option.bind_eq_some_iff.1 ht
  obtain ⟨clock, hclock, ht⟩ := Option.bind_eq_some_iff.1 ht
  cases ht
  obtain ⟨-, -, -, hnano⟩ := Clock.of?_eq_some_iff.1 hclock
  exact .inl (by show clock.nano < _; omega)

/-- Moments that a clock gives follow each other as the nanoseconds that it counts. -/
theorem precedes_ofNanos? {i j : Int} (ht : ofNanos? i = some t) (hu : ofNanos? j = some u) :
    t.Precedes u ↔ i < j := by
  have hcount : ∀ {i : Int} {t : Timestamp}, ofNanos? i = some t →
      t.minutes = i / 60000000000 + 719529 * 1440 ∧ (t.clock.second : Int) = i / 1000000000 % 60 ∧
        (t.clock.nano : Int) = i % 1000000000 := by
    intro i t ht
    obtain ⟨date, hdate, ht⟩ := Option.bind_eq_some_iff.1 ht
    obtain ⟨clock, hclock, ht⟩ := Option.bind_eq_some_iff.1 ht
    cases ht
    have hnumber := Date.number_ofDay? hdate
    obtain ⟨hhour, hminute, hsecond, hnano⟩ := Clock.of?_eq_some_iff.1 hclock
    unfold minutes minutesPerDay
    simp only
    rw [hnumber, hhour, hminute, hsecond, hnano]
    refine ⟨?_, ?_, ?_⟩ <;> push_cast <;> omega
  obtain ⟨ht1, ht2, ht3⟩ := hcount ht
  obtain ⟨hu1, hu2, hu3⟩ := hcount hu
  unfold Precedes
  omega

/-- The order of time is that of the numbers of a moment, from the day on. -/
theorem precedes_iff :
    t.Precedes u ↔ t.date.Precedes u.date ∨ t.date = u.date ∧ (t.clock.hour < u.clock.hour ∨
      t.clock.hour = u.clock.hour ∧ (t.clock.minute < u.clock.minute ∨
        t.clock.minute = u.clock.minute ∧ (t.clock.second < u.clock.second ∨
          t.clock.second = u.clock.second ∧ t.clock.nano < u.clock.nano))) := by
  obtain ⟨ht1, ht2, -, -⟩ := t.clock.bounds
  obtain ⟨hu1, hu2, -, -⟩ := u.clock.bounds
  rw [← Date.number_inj, ← Date.number_lt_iff]
  unfold Precedes minutes minutesPerDay
  omega

/-- Canonical forms are in the order of what is shown of them. -/
theorem precedes_canonical_iff :
    t.canonical.Precedes u.canonical ↔ t.date.Precedes u.date ∨ t.date = u.date ∧ (t.clock.hour < u.clock.hour ∨
      t.clock.hour = u.clock.hour ∧ (t.clock.minute < u.clock.minute ∨
        t.clock.minute = u.clock.minute ∧ (t.clock.shownSecond < u.clock.shownSecond ∨
          t.clock.shownSecond = u.clock.shownSecond ∧ t.clock.shownNano < u.clock.shownNano))) := by
  have hclocks := Clock.shown_lt_shown_iff t.clock.isCanonical_canonical u.clock.isCanonical_canonical
  obtain ⟨hts, htn⟩ := t.clock.shown_canonical
  obtain ⟨hus, hun⟩ := u.clock.shown_canonical
  rw [hts, htn, hus, hun] at hclocks
  rw [precedes_iff]
  simp only [canonical, Clock.hour_canonical, Clock.minute_canonical, ← hclocks]

/-- A leap second that is not at the end of its minute comes before the second that it is stored like. -/
theorem exists_precedes_of_not_isCanonical (h : ¬t.IsCanonical) :
    ∃ u : Timestamp, u.date = t.date ∧ u.IsCanonical ∧ t.Precedes u ∧ ¬t.canonical.Precedes u.canonical := by
  have hnext := Calendar.isTime_iff.1 (t.clock.isTime_succ h)
  let u : Timestamp := ⟨t.date, ⟨t.clock.hour, t.clock.minute, t.clock.second + 1, 0, Calendar.isTime_iff.2
    ⟨hnext.1, hnext.2.1, hnext.2.2.1, by decide⟩⟩⟩
  have hu : u.IsCanonical := .inl (by show 0 < 1000000000; decide)
  refine ⟨u, rfl, hu, .inr ⟨rfl, .inl (Nat.lt_succ_self _)⟩, ?_⟩
  rw [canonical_eq_self_iff.2 hu]
  unfold canonical
  rw [Clock.canonical_of_not h]
  unfold Precedes minutes
  simp only
  show ¬_
  rintro (hlt | ⟨-, hlt | ⟨-, hlt⟩⟩)
  · exact lt_irrefl _ hlt
  · exact lt_irrefl _ hlt
  · exact Nat.not_lt_zero _ hlt

/-! ## Digits -/

theorem isDigit_iff {c : Char} : c.isDigit = true ↔ 48 ≤ c.toNat ∧ c.toNat ≤ 57 := by
  simp only [Char.isDigit, Bool.and_eq_true, decide_eq_true_eq, ge_iff_le, UInt32.le_iff_toNat_le]
  rfl

theorem char_lt_iff {c d : Char} : c < d ↔ c.toNat < d.toNat := by
  rw [Char.lt_def, UInt32.lt_iff_toNat_lt]
  rfl

theorem char_eq_iff {c d : Char} : c = d ↔ c.toNat = d.toNat :=
  Char.toNat_inj.symm

/-- Digits that are read after others, in two texts of one length: what was read before decides, then the digits. -/
theorem foldl_lt_foldl_iff (hl : a.length = b.length) (ha : ∀ c ∈ a, c.isDigit = true) (hb : ∀ c ∈ b, c.isDigit = true)
    (x y : Nat) :
    a.foldl (fun n c => n * 10 + (c.toNat - 48)) x < b.foldl (fun n c => n * 10 + (c.toNat - 48)) y ↔
      x < y ∨ (x = y ∧ a < b) := by
  induction a generalizing b x y with
  | nil =>
    rw [List.eq_nil_of_length_eq_zero hl.symm]
    simp
  | cons c a ih =>
    obtain ⟨d, b, rfl⟩ := List.exists_cons_of_length_pos (hl ▸ Nat.succ_pos _ : 0 < b.length)
    rw [List.foldl_cons, List.foldl_cons, ih (Nat.succ.inj hl) (fun e he => ha e (List.mem_cons_of_mem _ he))
      (fun e he => hb e (List.mem_cons_of_mem _ he)), List.cons_lt_cons_iff, char_lt_iff, char_eq_iff]
    have hc := isDigit_iff.1 (ha c List.mem_cons_self)
    have hd := isDigit_iff.1 (hb d List.mem_cons_self)
    by_cases hab : a < b <;> simp only [hab, and_true, and_false, or_false] <;> omega

theorem numberOf_lt_numberOf_iff (hl : a.length = b.length) (ha : ∀ c ∈ a, c.isDigit = true)
    (hb : ∀ c ∈ b, c.isDigit = true) : numberOf a < numberOf b ↔ a < b := by
  unfold numberOf
  rw [foldl_lt_foldl_iff hl ha hb]
  simp

/-- Digits are known by their number and how many they are. -/
theorem eq_of_numberOf_eq (hl : a.length = b.length) (ha : ∀ c ∈ a, c.isDigit = true)
    (hb : ∀ c ∈ b, c.isDigit = true) (h : numberOf a = numberOf b) : a = b := by
  rcases Std.lt_trichotomy a b with hlt | heq | hlt
  · rw [← numberOf_lt_numberOf_iff hl ha hb] at hlt
    omega
  · exact heq
  · rw [← numberOf_lt_numberOf_iff hl.symm hb ha] at hlt
    omega

/-- Numbers of one width decide before what follows them. -/
theorem padded_append_lt_iff (hw : 0 < width) (hm : m < 10 ^ width) (hn : n < 10 ^ width) :
    padded width m ++ r < padded width n ++ s ↔ m < n ∨ m = n ∧ r < s := by
  have hl : (padded width m).length = (padded width n).length := by
    rw [length_padded hw hm, length_padded hw hn]
  have heq : padded width m = padded width n ↔ m = n := by
    refine ⟨fun h => ?_, congrArg _⟩
    rw [← numberOf_padded width m, h, numberOf_padded]
  rw [Text.append_lt_append_iff hl, heq, ← numberOf_lt_numberOf_iff hl (fun c => isDigit_of_mem_padded)
    (fun c => isDigit_of_mem_padded), numberOf_padded, numberOf_padded]

/-- The digits of a number may be written in two parts. -/
theorem padded_add {v w : Nat} (hv : 0 < v) (hw : 0 < w) (hn : n < 10 ^ (v + w)) :
    padded (v + w) n = padded v (n / 10 ^ w) ++ padded w (n % 10 ^ w) := by
  have hpos : 0 < 10 ^ w := Nat.pow_pos (by decide)
  have hhigh : n / 10 ^ w < 10 ^ v := by
    rw [Nat.div_lt_iff_lt_mul hpos, ← pow_add]
    exact hn
  have hlow : n % 10 ^ w < 10 ^ w := Nat.mod_lt _ hpos
  refine eq_of_numberOf_eq ?_ (fun c => isDigit_of_mem_padded) (fun c hc => ?_) ?_
  · rw [List.length_append, length_padded hv hhigh, length_padded hw hlow, length_padded (by omega) hn]
  · rcases List.mem_append.1 hc with hc | hc <;> exact isDigit_of_mem_padded hc
  · have hsecond := numberOf_padded w (n % 10 ^ w)
    have hfirst := numberOf_padded v (n / 10 ^ w)
    rw [numberOf_eq] at hsecond hfirst
    rw [numberOf_padded, numberOf_eq, Nat.ofDigitChars_append, hfirst, Nat.ofDigitChars_eq_ofDigitChars_zero,
      length_padded hw hlow, hsecond, Nat.div_add_mod]

/-! ## Fractions -/

/-- The digits of a fraction in groups of three, up to the last one that is not zero. -/
def groups : Nat → Nat → List Char
  | 0, _ => []
  | k + 1, x => if x = 0 then [] else padded 3 (x / 1000 ^ k) ++ groups k (x % 1000 ^ k)

theorem groups_zero (k : Nat) : groups k 0 = [] := by
  cases k <;> rfl

theorem groups_succ {k x : Nat} (hx : x ≠ 0) :
    groups (k + 1) x = padded 3 (x / 1000 ^ k) ++ groups k (x % 1000 ^ k) := by
  rw [groups, if_neg hx]

theorem fractionText_eq {nano : Nat} (h : nano < 1000000000) :
    fractionText nano = if nano = 0 then [] else '.' :: groups 3 nano := by
  have hnine : padded 9 nano = padded 3 (nano / 1000000) ++ padded 6 (nano % 1000000) :=
    padded_add (v := 3) (w := 6) (by decide) (by decide) h
  have hsix : ∀ {x : Nat}, x < 1000000 → padded 6 x = padded 3 (x / 1000) ++ padded 3 (x % 1000) :=
    fun hx => padded_add (v := 3) (w := 3) (by decide) (by decide) hx
  unfold fractionText
  split_ifs with h0 h3 h6
  · rfl
  · rw [groups_succ h0, show 1000 ^ 2 = 1000000 from rfl, h3, groups_zero, List.append_nil]
  · have hhigh : nano / 1000 / 1000 = nano / 1000000 := by omega
    have hlow : nano / 1000 % 1000 = nano % 1000000 / 1000 := by omega
    have hnone : nano % 1000000 % 1000 = 0 := by omega
    rw [groups_succ h0, show 1000 ^ 2 = 1000000 from rfl, groups_succ h3, Nat.pow_one, hnone, groups_zero,
      List.append_nil, hsix (by omega), hhigh, hlow]
  · rw [groups_succ h0, show 1000 ^ 2 = 1000000 from rfl, groups_succ h3, Nat.pow_one,
      groups_succ (x := nano % 1000000 % 1000) (by omega), Nat.pow_zero, Nat.div_one, Nat.mod_one, groups_zero,
      List.append_nil, hnine, hsix (by omega)]

theorem lt_iff_div_mod (b : Nat) : m < n ↔ m / b < n / b ∨ m / b = n / b ∧ m % b < n % b := by
  have hm := Nat.div_add_mod m b
  have hn := Nat.div_add_mod n b
  constructor
  · intro h
    rcases (Nat.div_le_div_right h.le : m / b ≤ n / b).lt_or_eq with hlt | heq
    · exact .inl hlt
    · rw [heq] at hm
      exact .inr ⟨heq, by omega⟩
  · rintro (h | ⟨heq, h⟩)
    · exact Nat.lt_of_div_lt_div h
    · rw [heq] at hm
      omega

/-- A number of some digits begins with a digit, which is greater than the sign. -/
theorem sign_lt_padded (hw : 0 < width) (hn : n < 10 ^ width) (r s : List Char) : '+' :: r < padded width n ++ s := by
  have hpos : 0 < (padded width n).length := by
    rw [length_padded hw hn]
    exact hw
  obtain ⟨c, cs, hc⟩ := List.exists_cons_of_length_pos hpos
  have hdigit := isDigit_iff.1 (isDigit_of_mem_padded (hc ▸ List.mem_cons_self : c ∈ padded width n))
  rw [hc, List.cons_append, List.cons_lt_cons_iff, char_lt_iff]
  exact .inl (Nat.lt_of_lt_of_le (by decide) hdigit.1)

/-- A fraction that breaks off is followed by the sign, where another one goes on with a digit. -/
theorem groups_append_lt_iff (k : Nat) (hm : m < 1000 ^ k) (hn : n < 1000 ^ k) :
    groups k m ++ '+' :: r < groups k n ++ '+' :: r ↔ m < n := by
  induction k generalizing m n with
  | zero =>
    refine iff_of_false (List.lt_irrefl _) ?_
    rw [Nat.pow_zero] at hn
    omega
  | succ k ih =>
    have hpos : 0 < 1000 ^ k := Nat.pow_pos (by decide)
    have hhigh : ∀ {x : Nat}, x < 1000 ^ (k + 1) → x / 1000 ^ k < 10 ^ 3 := by
      intro x hx
      rw [Nat.div_lt_iff_lt_mul hpos, Nat.mul_comm]
      exact hx
    rcases Nat.eq_zero_or_pos m with rfl | hm0 <;> rcases Nat.eq_zero_or_pos n with rfl | hn0
    · exact iff_of_false (List.lt_irrefl _) (Nat.lt_irrefl 0)
    · rw [groups_zero, groups_succ hn0.ne', List.append_assoc]
      exact iff_of_true (sign_lt_padded (by decide) (hhigh hn) _ _) hn0
    · rw [groups_zero, groups_succ hm0.ne', List.append_assoc]
      exact iff_of_false (List.lt_asymm (sign_lt_padded (by decide) (hhigh hm) _ _)) (Nat.not_lt_zero m)
    · rw [groups_succ hm0.ne', groups_succ hn0.ne', List.append_assoc, List.append_assoc,
        padded_append_lt_iff (by decide) (hhigh hm) (hhigh hn), ih (Nat.mod_lt _ hpos) (Nat.mod_lt _ hpos)]
      exact (lt_iff_div_mod (1000 ^ k)).symm

theorem fractionText_append_lt_iff (hm : m < 1000000000) (hn : n < 1000000000) :
    fractionText m ++ '+' :: r < fractionText n ++ '+' :: r ↔ m < n := by
  rw [fractionText_eq hm, fractionText_eq hn]
  -- the sign is less than the point too
  split_ifs with hm0 hn0 hn0
  · subst hm0 hn0
    exact iff_of_false (List.lt_irrefl _) (Nat.lt_irrefl 0)
  · rw [List.nil_append, List.cons_append, List.cons_lt_cons_iff]
    exact iff_of_true (.inl (by decide)) (by omega)
  · rw [List.nil_append, List.cons_append, List.cons_lt_cons_iff]
    refine iff_of_false ?_ (by omega)
    rintro (h | ⟨h, -⟩) <;> exact absurd h (by decide)
  · rw [List.cons_append, List.cons_append, List.cons_lt_cons_iff, groups_append_lt_iff 3 hm hn]
    simp

/-! ## Stored moments -/

theorem cons_lt_cons_self_iff (c : Char) : c :: r < c :: s ↔ r < s := by
  rw [List.cons_lt_cons_iff]
  simp

/-- Moments in years of four digits are stored as texts in the order of their canonical forms. -/
theorem stored_lt_stored_iff (ht : t.HasFourDigitYear) (hu : u.HasFourDigitYear) :
    t.stored < u.stored ↔ t.canonical.Precedes u.canonical := by
  obtain ⟨ht1, ht2⟩ := bounds_date t.date
  obtain ⟨hu1, hu2⟩ := bounds_date u.date
  obtain ⟨ht3, ht4, -, -⟩ := t.clock.bounds
  obtain ⟨hu3, hu4, -, -⟩ := u.clock.bounds
  have ht5 := t.clock.shownSecond_le
  have hu5 := u.clock.shownSecond_le
  have hyears : t.date.year.toNat < u.date.year.toNat ↔ t.date.year < u.date.year := by
    have := ht.1
    have := hu.1
    omega
  have hyears' : t.date.year.toNat = u.date.year.toNat ↔ t.date.year = u.date.year := by
    have := ht.1
    have := hu.1
    omega
  have hty : t.date.year.toNat < 10 ^ 4 := by
    have := ht.2
    omega
  have huy : u.date.year.toNat < 10 ^ 4 := by
    have := hu.2
    omega
  rw [precedes_canonical_iff,
    Date.eq_iff, String.lt_iff, toList_stored ht.1 ht.2, toList_stored hu.1 hu.2,
    padded_append_lt_iff (by decide) hty huy, cons_lt_cons_self_iff, padded_append_lt_iff (by decide) ht1 hu1,
    cons_lt_cons_self_iff, padded_append_lt_iff (by decide) ht2 hu2, cons_lt_cons_self_iff,
    padded_append_lt_iff (by decide) (by omega) (by omega), cons_lt_cons_self_iff,
    padded_append_lt_iff (by decide) (by omega) (by omega), cons_lt_cons_self_iff,
    padded_append_lt_iff (by decide) (by omega) (by omega),
    fractionText_append_lt_iff t.clock.shownNano_lt u.clock.shownNano_lt, hyears, hyears']
  simp only [Date.Precedes, and_or_left, or_assoc, and_assoc]

end RecentLaunches.Timestamp
