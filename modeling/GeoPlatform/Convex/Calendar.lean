import GeoPlatform.Convex.Queries
import GeoPlatform.Convex.QuotaPeriods

/-! UTC days in order. A day is numbered from the first of 1969, and day strings compare as the
numbers do. -/
namespace GeoPlatform.Convex

/-- The days of the years before `y`, from 1969 on. -/
def yearStart (y : ℕ) : ℕ := ((List.range (y - 1969)).map fun k => daysInYear (1969 + k)).sum

def daysBeforeMonth (y m : ℕ) : ℕ := ((monthLengths y).take m).sum

def UtcDate.number (a : UtcDate) : ℕ :=
  yearStart a.fullYear + daysBeforeMonth a.fullYear a.month + (a.date - 1)

/-- A day that is in its month. -/
structure UtcDate.Valid (a : UtcDate) : Prop where
  year : 1969 ≤ a.fullYear
  date : 1 ≤ a.date
  fits : daysBeforeMonth a.fullYear a.month + (a.date - 1) <
    daysBeforeMonth a.fullYear (a.month + 1)

theorem yearStart_succ {y : ℕ} (h : 1969 ≤ y) : yearStart (y + 1) = yearStart y + daysInYear y := by
  have hcount : y + 1 - 1969 = y - 1969 + 1 := by omega
  have hlast : 1969 + (y - 1969) = y := by omega
  simp only [yearStart, hcount, List.range_succ, List.map_append, List.sum_append, List.map_cons,
    List.map_nil, List.sum_cons, List.sum_nil, hlast, Nat.add_zero]

theorem yearStart_mono {y z : ℕ} (h : y ≤ z) : yearStart y ≤ yearStart z := by
  have hpre : List.range (y - 1969) <+: List.range (z - 1969) := by
    have hmin : min (y - 1969) (z - 1969) = y - 1969 := min_eq_left (Nat.sub_le_sub_right h 1969)
    rw [List.prefix_iff_eq_take, List.take_range, List.length_range, hmin]
  exact (hpre.sublist.map _).sum_le_sum fun _ _ => Nat.zero_le _

theorem daysBeforeMonth_mono (y : ℕ) {m n : ℕ} (h : m ≤ n) :
    daysBeforeMonth y m ≤ daysBeforeMonth y n :=
  (List.take_prefix_take_left h).sublist.sum_le_sum fun _ _ => Nat.zero_le _

theorem daysBeforeMonth_le (y m : ℕ) : daysBeforeMonth y m ≤ daysInYear y := by
  rw [← sum_monthLengths]
  exact (List.take_prefix m _).sublist.sum_le_sum fun _ _ => Nat.zero_le _

/-- Days in order have numbers in order. -/
theorem UtcDate.number_le {a b : UtcDate} (ha : a.Valid) (h : a.le b = true) :
    a.number ≤ b.number := by
  have hfits := ha.fits
  simp only [UtcDate.le, Bool.or_eq_true, Bool.and_eq_true, decide_eq_true_eq] at h
  unfold number
  rcases h with hyear | ⟨hyear, hmonth | ⟨hmonth, hdate⟩⟩
  · have hend := daysBeforeMonth_le a.fullYear (a.month + 1)
    have hnext := yearStart_succ ha.year
    have hlater := yearStart_mono (Nat.succ_le_of_lt hyear)
    rw [Nat.succ_eq_add_one] at hlater
    omega
  · have hlater := daysBeforeMonth_mono a.fullYear (Nat.succ_le_of_lt hmonth)
    rw [Nat.succ_eq_add_one] at hlater
    rw [← hyear]
    omega
  · rw [← hyear, ← hmonth]
    omega

theorem UtcDate.le_refl (a : UtcDate) : a.le a = true := by simp [UtcDate.le]

theorem UtcDate.le_total (a b : UtcDate) : a.le b = true ∨ b.le a = true := by
  simp only [UtcDate.le, Bool.or_eq_true, Bool.and_eq_true, decide_eq_true_eq]
  omega

/-! ### Dates of instants -/

theorem monthOfDay_fits {ms : List ℕ} {d : ℕ} (h : d < ms.sum) :
    d < (ms.take ((monthOfDay ms d).1 + 1)).sum := by
  induction ms generalizing d with
  | nil => exact absurd h (Nat.not_lt_zero d)
  | cons m ms ih =>
    by_cases hd : d < m
    · simp [monthOfDay, hd]
    · rw [List.sum_cons] at h
      have hrest := @ih (d - m) (by omega)
      simp only [monthOfDay, hd, if_false, List.take_succ_cons, List.sum_cons] at hrest ⊢
      omega

/-- The day `d` of the year `y`, both counted from the start. -/
theorem number_of_day {y d : ℕ} (hy : 1969 ≤ y) (hd : d < daysInYear y) :
    let date : UtcDate :=
      ⟨y, (monthOfDay (monthLengths y) d).1, (monthOfDay (monthLengths y) d).2 + 1⟩
    date.Valid ∧ date.number = yearStart y + d := by
  rw [← sum_monthLengths] at hd
  obtain ⟨-, -, hsum⟩ := monthOfDay_spec hd
  have hfits := monthOfDay_fits hd
  refine ⟨⟨hy, Nat.le_add_left _ _, ?_⟩, ?_⟩
  · simp only [daysBeforeMonth, Nat.add_sub_cancel]
    omega
  · simp only [UtcDate.number, daysBeforeMonth, Nat.add_sub_cancel]
    omega

/-- From 1970 on the days of the years before count as `dateUTC` counts them. -/
theorem yearStart_eq {y : ℕ} (h : 1970 ≤ y) :
    yearStart y = 365 + ((List.range (y - 1970)).map fun k => daysInYear (1970 + k)).sum := by
  have hcount : y - 1969 = y - 1970 + 1 := by omega
  have hshift : (fun k => daysInYear (1969 + k)) ∘ Nat.succ = fun k => daysInYear (1970 + k) := by
    funext k
    have hyear : 1969 + (k + 1) = 1970 + k := by omega
    rw [Function.comp_apply, Nat.succ_eq_add_one, hyear]
  rw [yearStart, hcount, List.range_succ_eq_map, List.map_cons, List.map_map, List.sum_cons, hshift]
  rfl

theorem utcDate_number (t : ℕ) :
    (utcDate t).Valid ∧ (utcDate t).number = t / DAY_MS + 365 := by
  obtain ⟨hyear, hlt, hyears⟩ := @yearOfDay_spec (t / DAY_MS) 1970 (t / DAY_MS) le_rfl
  have hpast : 1969 ≤ (yearOfDay (t / DAY_MS) 1970 (t / DAY_MS)).1 := by omega
  obtain ⟨hvalid, hnumber⟩ := number_of_day hpast hlt
  refine ⟨hvalid, hnumber.trans ?_⟩
  have hstart := yearStart_eq hyear
  omega

theorem utcDate_congr {s t : ℕ} (h : s / DAY_MS = t / DAY_MS) : utcDate s = utcDate t := by
  unfold utcDate
  rw [h]

/-- The day `k` days back, as far as the first of 1969. -/
theorem utcDayBefore_number {now k : ℕ} (h : k ≤ now / DAY_MS + 365) :
    (utcDayBefore now k).Valid ∧ (utcDayBefore now k).number + k = now / DAY_MS + 365 := by
  unfold utcDayBefore
  split_ifs with hk
  · obtain ⟨hvalid, hnumber⟩ := utcDate_number (now - k * DAY_MS)
    refine ⟨hvalid, ?_⟩
    rw [hnumber, mul_comm, Nat.sub_mul_div]
    omega
  · have hyear : daysInYear 1969 = 365 := rfl
    obtain ⟨hvalid, hnumber⟩ := @number_of_day 1969 (365 - (k - now / DAY_MS)) le_rfl (by omega)
    refine ⟨hvalid, ?_⟩
    rw [hnumber]
    show 0 + (365 - (k - now / DAY_MS)) + k = now / DAY_MS + 365
    omega

theorem utcDayBefore_le_iff {now i j : ℕ} (hi : i ≤ now / DAY_MS + 365)
    (hj : j ≤ now / DAY_MS + 365) :
    (utcDayBefore now i).le (utcDayBefore now j) = true ↔ j ≤ i := by
  obtain ⟨hvi, hni⟩ := utcDayBefore_number hi
  obtain ⟨hvj, hnj⟩ := utcDayBefore_number hj
  constructor
  · intro hle
    have hnum := UtcDate.number_le hvi hle
    omega
  · intro hle
    rcases UtcDate.le_total (utcDayBefore now i) (utcDayBefore now j) with h | h
    · exact h
    · have hnum := UtcDate.number_le hvj h
      obtain rfl : i = j := by omega
      exact UtcDate.le_refl _

/-- The day of an earlier instant is some days back. -/
theorem utcDate_eq_before {t now : ℕ} (h : t ≤ now) :
    utcDate t = utcDayBefore now (now / DAY_MS - t / DAY_MS) := by
  have hle : t / DAY_MS ≤ now / DAY_MS := Nat.div_le_div_right h
  rw [utcDayBefore, if_pos (Nat.sub_le _ _)]
  apply utcDate_congr
  rw [mul_comm, Nat.sub_mul_div, Nat.sub_sub_self hle]

theorem utcDayBefore_zero (now : ℕ) : utcDayBefore now 0 = utcDate now := by
  rw [utcDayBefore, if_pos (Nat.zero_le _), Nat.zero_mul, Nat.sub_zero]

/-! ### When a quota period is over -/

/-- The days before the month `m` of the year `y`. -/
def monthNumber (y m : ℕ) : ℕ := yearStart y + daysBeforeMonth y m

/-- A month is over before a later one begins. -/
theorem monthNumber_le {y m y' m' : ℕ} (hy : 1969 ≤ y) (h : y < y' ∨ y = y' ∧ m < m') :
    monthNumber y (m + 1) ≤ monthNumber y' m' := by
  unfold monthNumber
  rcases h with hyear | ⟨rfl, hmonth⟩
  · have hend := daysBeforeMonth_le y (m + 1)
    have hnext := yearStart_succ hy
    have hlater := yearStart_mono (Nat.succ_le_of_lt hyear)
    rw [Nat.succ_eq_add_one] at hlater
    omega
  · have hlater := daysBeforeMonth_mono y (Nat.succ_le_of_lt hmonth)
    rw [Nat.succ_eq_add_one] at hlater
    omega

/-- The month an instant falls into. -/
theorem month_of_instant (t : ℕ) :
    1970 ≤ (utcDate t).fullYear ∧ (utcDate t).month < 12 ∧
      monthNumber (utcDate t).fullYear (utcDate t).month ≤ t / DAY_MS + 365 ∧
      t / DAY_MS + 365 < monthNumber (utcDate t).fullYear ((utcDate t).month + 1) := by
  obtain ⟨hyear, hlt, -⟩ := @yearOfDay_spec (t / DAY_MS) 1970 (t / DAY_MS) le_rfl
  rw [← sum_monthLengths] at hlt
  have hmonth : (utcDate t).month < 12 := (monthOfDay_spec hlt).1
  obtain ⟨hvalid, hnumber⟩ := utcDate_number t
  have hfits := hvalid.fits
  simp only [UtcDate.number] at hnumber
  unfold monthNumber
  exact ⟨hyear, hmonth, by omega, by omega⟩

theorem dateUTC_month {y m : ℕ} (hy : 1970 ≤ y) (hm : m ≤ 12) :
    dateUTC y m 1 + 365 * DAY_MS = monthNumber y m * DAY_MS := by
  rcases Nat.lt_or_eq_of_le hm with hlt | rfl
  · have hstart := yearStart_eq hy
    simp only [dateUTC, monthNumber, daysBeforeMonth, Nat.div_eq_of_lt hlt, Nat.mod_eq_of_lt hlt,
      Nat.add_zero, hstart, Nat.sub_self]
    ring
  · have hnext := yearStart_succ (show 1969 ≤ y by omega)
    have hstart := yearStart_eq (show 1970 ≤ y + 1 by omega)
    have hwhole : daysBeforeMonth y 12 = daysInYear y := sum_monthLengths y
    have hdays : dateUTC y 12 1 =
        ((List.range (y + 1 - 1970)).map fun k => daysInYear (1970 + k)).sum * DAY_MS := by
      simp only [dateUTC, Nat.div_self (show 0 < 12 by decide), Nat.mod_self, List.take_zero,
        List.sum_nil, Nat.sub_self, Nat.add_zero]
    rw [hdays, ← Nat.add_mul, monthNumber, hwhole, ← hnext, hstart, Nat.add_comm]

theorem quotaPeriod_day (now : ℕ) : (quotaPeriod now .day).start = now / DAY_MS * DAY_MS ∧
    (quotaPeriod now .day).reset = now / DAY_MS * DAY_MS + DAY_MS := by
  obtain ⟨-, hdate⟩ := dateUTC_utcDate now (utcDate now).date
  have hstart : (quotaPeriod now .day).start = now / DAY_MS * DAY_MS := by
    simp only [quotaPeriod]
    omega
  exact ⟨hstart, congrArg (· + DAY_MS) hstart⟩

theorem quotaPeriod_month (now : ℕ) :
    (quotaPeriod now .month).start + 365 * DAY_MS =
        monthNumber (utcDate now).fullYear (utcDate now).month * DAY_MS ∧
      (quotaPeriod now .month).reset + 365 * DAY_MS =
        monthNumber (utcDate now).fullYear ((utcDate now).month + 1) * DAY_MS := by
  obtain ⟨hyear, hmonth, -⟩ := month_of_instant now
  exact ⟨dateUTC_month hyear hmonth.le, dateUTC_month hyear hmonth⟩

theorem div_day_lt_iff {t n : ℕ} : t / DAY_MS < n ↔ t < n * DAY_MS :=
  Nat.div_lt_iff_lt_mul (by decide)

theorem lt_month_reset_iff {now t : ℕ} : t < (quotaPeriod now .month).reset ↔
    t / DAY_MS + 365 < monthNumber (utcDate now).fullYear ((utcDate now).month + 1) := by
  have hreset := (quotaPeriod_month now).2
  have hdays := @div_day_lt_iff (t + 365 * DAY_MS)
    (monthNumber (utcDate now).fullYear ((utcDate now).month + 1))
  rw [Nat.add_mul_div_right _ _ (by decide)] at hdays
  rw [hdays, ← hreset, Nat.add_lt_add_iff_right]

theorem month_start_iff {now t : ℕ} :
    (quotaPeriod t .month).start = (quotaPeriod now .month).start ↔
      monthNumber (utcDate t).fullYear (utcDate t).month =
        monthNumber (utcDate now).fullYear (utcDate now).month := by
  have hnow := (quotaPeriod_month now).1
  have ht := (quotaPeriod_month t).1
  constructor
  · intro hsame
    have hmul := (congrArg (· + 365 * DAY_MS) hsame).trans hnow
    exact Nat.eq_of_mul_eq_mul_right (show 0 < DAY_MS by decide) (ht.symm.trans hmul)
  · intro hsame
    have hmul := (congrArg (· * DAY_MS) hsame).trans hnow.symm
    exact Nat.add_right_cancel (ht.trans hmul)

/-- A quota period is current up to its reset. -/
theorem quotaPeriod_current_iff {now t : ℕ} (h : now ≤ t) (period : Period) :
    (quotaPeriod t period).start = (quotaPeriod now period).start ↔
      t < (quotaPeriod now period).reset := by
  have hlater : now / DAY_MS ≤ t / DAY_MS := Nat.div_le_div_right h
  cases period with
  | day =>
    rw [(quotaPeriod_day t).1, (quotaPeriod_day now).1, (quotaPeriod_day now).2,
      Nat.mul_left_inj (by decide), ← Nat.succ_mul, ← div_day_lt_iff, Nat.lt_succ_iff]
    exact ⟨le_of_eq, fun hle => le_antisymm hle hlater⟩
  | month =>
    obtain ⟨hnowYear, -, hnowStart, hnowEnd⟩ := month_of_instant now
    obtain ⟨htYear, -, htStart, htEnd⟩ := month_of_instant t
    rw [month_start_iff, lt_month_reset_iff]
    -- Two months are the same or one is over before the other begins.
    rcases Nat.lt_trichotomy (utcDate now).fullYear (utcDate t).fullYear with hlt | heq | hgt
    · have hover := @monthNumber_le _ (utcDate now).month _ (utcDate t).month
        (by omega) (Or.inl hlt)
      omega
    · rcases Nat.lt_trichotomy (utcDate now).month (utcDate t).month with hlt | hsame | hgt
      · have hover := monthNumber_le (by omega) (Or.inr ⟨heq, hlt⟩)
        omega
      · rw [heq, hsame] at hnowEnd ⊢
        exact ⟨fun _ => htEnd, fun _ => rfl⟩
      · have hover := monthNumber_le (by omega) (Or.inr ⟨heq.symm, hgt⟩)
        omega
    · have hover := @monthNumber_le _ (utcDate t).month _ (utcDate now).month
        (by omega) (Or.inl hgt)
      omega

/-- A day is over no later than its month. -/
theorem day_reset_le_month (now : ℕ) :
    (quotaPeriod now .day).reset ≤ (quotaPeriod now .month).reset := by
  obtain ⟨-, -, -, hend⟩ := month_of_instant now
  have hmonth := (quotaPeriod_month now).2
  have hle : (now / DAY_MS + 365 + 1) * DAY_MS ≤
      monthNumber (utcDate now).fullYear ((utcDate now).month + 1) * DAY_MS :=
    Nat.mul_le_mul_right _ hend
  rw [← hmonth, Nat.add_mul, Nat.add_mul] at hle
  rw [(quotaPeriod_day now).2]
  omega

end GeoPlatform.Convex
