/-
Moments that come back. A number is read as it was written, with its full width, and so is the shortest exact
fraction; what is stored of a moment in a year of four digits is read as the canonical moment that is stored alike. A
year with a sign is written and never read again.
-/
import RecentLaunches.Proofs.Timestamp.Clocks
import RecentLaunches.Proofs.Timestamp.Days
import RecentLaunches.Timestamp.Printer
import RecentLaunches.Timestamp.Reader

namespace RecentLaunches.Timestamp

/-! ## Numbers -/

variable {width n : Nat} {r : List Char}

theorem numberOf_eq (digits : List Char) : numberOf digits = Nat.ofDigitChars 10 digits 0 := by
  rw [Nat.ofDigitChars_eq_foldl]
  unfold numberOf
  congr 1
  funext m c
  rw [Nat.mul_comm]
  rfl

theorem numberOf_padded (width n : Nat) : numberOf (padded width n) = n := by
  unfold padded
  rw [numberOf_eq, Nat.ofDigitChars_append, Nat.ofDigitChars_replicate_zero, Nat.mul_zero,
    Nat.ofDigitChars_ten_toDigits]

theorem isDigit_of_mem_padded {c : Char} (h : c ∈ padded width n) : c.isDigit = true := by
  rcases List.mem_append.1 h with h | h
  · rw [List.eq_of_mem_replicate h]
    rfl
  · exact Nat.isDigit_of_mem_toDigits (by decide) (by decide) h

theorem length_padded (hw : 0 < width) (hn : n < 10 ^ width) : (padded width n).length = width := by
  have hle := (Nat.length_toDigits_le_iff (by decide) hw).2 hn
  simp only [padded, List.length_append, List.length_replicate]
  omega

theorem takeWhile_padded (h : ∀ c ∈ r.head?, c.isDigit = false) :
    (padded width n ++ r).takeWhile Char.isDigit = padded width n := by
  rw [List.takeWhile_append_of_pos fun c => isDigit_of_mem_padded]
  cases r with
  | nil => exact List.append_nil _
  | cons c r => rw [List.takeWhile_cons_of_neg (by rw [h c rfl]; decide), List.append_nil]

/-- A number of its full width is read as it was written, whatever follows. -/
theorem number_padded (hw : 0 < width) (hn : n < 10 ^ width) (r : List Char) :
    number width width (padded width n ++ r) = some (n, r) := by
  have hlen := length_padded hw hn
  have htake : (padded width n ++ r).take width = padded width n := List.take_left' hlen
  have hdigits : (padded width n).takeWhile Char.isDigit = padded width n := by
    have h := @takeWhile_padded width n [] fun c hc => by cases hc
    rwa [List.append_nil] at h
  unfold number
  simp only [htake, hdigits]
  rw [if_neg (by omega), numberOf_padded, List.drop_left]

/-- A number of two digits behind a mark, in whatever way the mark is read. -/
theorem bind_two {β : Type} {c : Char} {read : List Char → Option (List Char)}
    (hread : ∀ r, read (c :: r) = some r) (hn : n < 100) (r : List Char) (next : Nat × List Char → Option β) :
    ((read (c :: (padded 2 n ++ r))).bind fun s => (number 2 2 s).bind next) = next (n, r) := by
  rw [hread, Option.bind_some, number_padded (by decide) hn, Option.bind_some]

theorem mark_cons (c : Char) (r : List Char) : mark c (c :: r) = some r := by
  show (if c = c then some r else none) = some r
  rw [if_pos rfl]

theorem divider_cons (r : List Char) : divider ('T' :: r) = some r :=
  rfl

theorem isEmpty_padded (hw : 0 < width) (hn : n < 10 ^ width) : (padded width n).isEmpty = false := by
  rw [List.isEmpty_eq_false_iff_exists_mem]
  exact List.exists_mem_of_length_pos (by rw [length_padded hw hn]; exact hw)

/-! ## Moments -/

theorem fraction_padded {k : Nat} (hk : 0 < k) (hk9 : k ≤ 9) (hn : n < 10 ^ k) (r : List Char) :
    fraction ('.' :: padded k n ++ '+' :: r) = some (n * 10 ^ (9 - k), '+' :: r) := by
  have hlen := length_padded hk hn
  have hdigits : (padded k n ++ '+' :: r).takeWhile Char.isDigit = padded k n :=
    takeWhile_padded fun c hc => by cases hc; rfl
  have htake : (padded k n).take 9 = padded k n := List.take_of_length_le (by omega)
  rw [List.cons_append]
  unfold fraction
  simp only [hdigits, htake]
  rw [if_neg (by rw [isEmpty_padded hk hn]; decide), numberOf_padded, hlen, List.drop_left' hlen]
  rfl

/-- The shortest exact fraction stands for all nanoseconds. -/
theorem fraction_fractionText {nano : Nat} (h : nano < 1000000000) (r : List Char) :
    fraction (fractionText nano ++ '+' :: r) = some (nano, '+' :: r) := by
  unfold fractionText
  split_ifs with h0 h3 h6
  · rw [h0]
    rfl
  · rw [fraction_padded (by decide) (by decide) (by omega)]
    have hnano : nano / 1000000 * 1000000 = nano := Nat.div_mul_cancel (Nat.dvd_of_mod_eq_zero h3)
    exact congrArg (fun n => some (n, '+' :: r)) hnano
  · rw [fraction_padded (by decide) (by decide) (by omega)]
    have hnano : nano / 1000 * 1000 = nano := Nat.div_mul_cancel (Nat.dvd_of_mod_eq_zero h6)
    exact congrArg (fun n => some (n, '+' :: r)) hnano
  · rw [fraction_padded (by decide) (by decide) (by omega)]
    exact congrArg (fun n => some (n, '+' :: r)) (Nat.mul_one nano)

theorem bounds_date (d : Date) : d.month < 100 ∧ d.day < 100 := by
  obtain ⟨-, hmonth, -, hday⟩ := d.bounds
  have hdays : Calendar.daysIn d.year d.month ≤ 31 := by
    unfold Calendar.daysIn
    split_ifs <;> omega
  omega

/-- A clock that is not ahead shows universal time. -/
theorem ofLocal?_zero (t : Timestamp) : ofLocal? t.date t.clock 0 = some t := by
  obtain ⟨hh, hm, -, -⟩ := t.clock.bounds
  have hday : ((t.clock.hour * 60 + t.clock.minute - 0 : Int) % 1440).toNat = t.clock.hour * 60 + t.clock.minute := by
    omega
  have hhour : (t.clock.hour * 60 + t.clock.minute) / 60 = t.clock.hour := by omega
  have hminute : (t.clock.hour * 60 + t.clock.minute) % 60 = t.clock.minute := by omega
  unfold ofLocal? minutesPerDay
  simp only
  rw [if_neg (by omega), if_neg (by omega), hday, hhour, hminute, Clock.of?_self]
  rfl

/-- What is stored of a moment in a year of four digits, part by part. -/
theorem toList_stored {t : Timestamp} (hy : 0 ≤ t.date.year) (hy' : t.date.year ≤ 9999) :
    t.stored.toList = padded 4 t.date.year.toNat ++ '-' :: (padded 2 t.date.month ++
      '-' :: (padded 2 t.date.day ++ 'T' :: (padded 2 t.clock.hour ++ ':' :: (padded 2 t.clock.minute ++
      ':' :: (padded 2 t.clock.shownSecond ++ (fractionText t.clock.shownNano ++
      ['+', '0', '0', ':', '0', '0'])))))) := by
  unfold stored text yearText
  rw [if_pos ⟨hy, hy'⟩, String.toList_ofList]
  simp only [List.append_assoc, List.cons_append]
  rfl

/-- Moments with one canonical form are stored alike. -/
theorem stored_canonical (t : Timestamp) : t.canonical.stored = t.stored := by
  obtain ⟨hsecond, hnano⟩ := t.clock.shown_canonical
  unfold stored text canonical
  simp only
  rw [t.clock.hour_canonical, t.clock.minute_canonical, hsecond, hnano]

/-- What is stored of a moment in a year of four digits is read as its canonical form. -/
theorem readStored_stored {t : Timestamp} (hy : 0 ≤ t.date.year) (hy' : t.date.year ≤ 9999) :
    readStored t.stored = some t.canonical := by
  obtain ⟨hmonth, hday⟩ := bounds_date t.date
  obtain ⟨hhour, hminute, -, -⟩ := t.clock.bounds
  have hsecond := t.clock.shownSecond_le
  have hyear : ((t.date.year.toNat : Nat) : Int) = t.date.year := Int.toNat_of_nonneg hy
  have hdate : Date.of? t.date.year t.date.month t.date.day = some t.date :=
    Date.of?_eq_some.2 ⟨rfl, rfl, rfl⟩
  have hzone : offset (mark ':') ['+', '0', '0', ':', '0', '0'] = some (0, []) := by decide
  unfold readStored
  simp only [Option.bind_eq_bind]
  rw [toList_stored hy hy', number_padded (by decide) (by omega), Option.bind_some, bind_two (mark_cons '-') hmonth,
    bind_two (mark_cons '-') hday, bind_two divider_cons (by omega), bind_two (mark_cons ':') (by omega),
    bind_two (mark_cons ':') (by omega), fraction_fractionText t.clock.shownNano_lt, Option.bind_some, hzone]
  show assemble t.date.year.toNat t.date.month t.date.day t.clock.hour t.clock.minute t.clock.shownSecond
    t.clock.shownNano 0 = some t.canonical
  unfold assemble
  rw [hyear, hdate, t.clock.ofShown?_shown]
  exact ofLocal?_zero t.canonical

/-- The minutes of a wall clock depend on its offset, its seconds do not. -/
theorem clock_of_ofLocal? {date : Date} {clock : Clock} {ahead : Int} {t : Timestamp}
    (h : ofLocal? date clock ahead = some t) : t.clock.second = clock.second ∧ t.clock.nano = clock.nano := by
  unfold ofLocal? at h
  simp only at h
  -- the day is the one before, the one after or the same
  split_ifs at h
  all_goals
    obtain ⟨day, -, h⟩ := Option.bind_eq_some_iff.1 h
    obtain ⟨time, htime, h⟩ := Option.bind_eq_some_iff.1 h
    cases h
    obtain ⟨-, -, hsecond, hnano⟩ := Clock.of?_eq_some_iff.1 htime
    exact ⟨hsecond, hnano⟩

theorem isCanonical_of_assemble {year ahead : Int} {month day hour minute second nano : Nat} {t : Timestamp}
    (h : assemble year month day hour minute second nano ahead = some t) : t.IsCanonical := by
  obtain ⟨date, -, h⟩ := Option.bind_eq_some_iff.1 h
  obtain ⟨clock, hclock, h⟩ := Option.bind_eq_some_iff.1 h
  split_ifs at h
  obtain ⟨hsecond, hnano⟩ := clock_of_ofLocal? h
  have hcanonical := Clock.isCanonical_of_ofShown? hclock
  unfold IsCanonical Clock.IsCanonical at *
  rwa [hsecond, hnano]

/-- What is exchanged stands for canonical moments only. -/
theorem isCanonical_of_readExchanged {text : String} {t : Timestamp} (h : readExchanged text = some t) :
    t.IsCanonical := by
  unfold readExchanged at h
  -- the parts of the text, up to the end of what follows the offset
  iterate 14 obtain ⟨_, -, h⟩ := Option.bind_eq_some_iff.1 h
  exact isCanonical_of_assemble h

/-- Whether a moment is in a year of four digits. -/
def HasFourDigitYear (t : Timestamp) : Prop :=
  0 ≤ t.date.year ∧ t.date.year ≤ 9999

instance (t : Timestamp) : Decidable t.HasFourDigitYear :=
  inferInstanceAs (Decidable (0 ≤ t.date.year ∧ t.date.year ≤ 9999))

theorem number_of_not_isDigit {c : Char} (hc : c.isDigit = false) (least most : Nat) (r : List Char) :
    number (least + 1) most (c :: r) = none := by
  have hdigits : ((c :: r).take most).takeWhile Char.isDigit = [] := by
    cases most with
    | zero => rfl
    | succ most => rw [List.take_succ_cons, List.takeWhile_cons_of_neg (by rw [hc]; decide)]
  unfold number
  simp only [hdigits]
  rw [if_pos (by simp)]

/-- Every other year begins with its sign. -/
theorem exists_yearText {t : Timestamp} (h : ¬ t.HasFourDigitYear) :
    ∃ c r, yearText t.date.year = c :: r ∧ c.isDigit = false := by
  unfold HasFourDigitYear at h
  unfold yearText
  rw [if_neg h]
  split_ifs
  · exact ⟨'-', _, rfl, rfl⟩
  · exact ⟨'+', _, rfl, rfl⟩

/-- A moment in any other year is stored, and never read again. -/
theorem readStored_stored_of_not {t : Timestamp} (h : ¬ t.HasFourDigitYear) : readStored t.stored = none := by
  obtain ⟨c, r, hyear, hc⟩ := exists_yearText h
  unfold readStored stored text
  rw [String.toList_ofList, hyear]
  simp only [List.cons_append, List.append_assoc, number_of_not_isDigit hc]
  rfl

end RecentLaunches.Timestamp
