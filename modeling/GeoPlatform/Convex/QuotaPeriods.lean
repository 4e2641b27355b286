import GeoPlatform.Convex.Quota

/-! The instants of a quota period. A date read off an instant leads back to its day, so a period
begins at most thirty-one days before any instant in it. -/
namespace GeoPlatform.Convex

theorem daysInYear_pos (y : ℕ) : 0 < daysInYear y := by
  unfold daysInYear
  split_ifs <;> decide

/-- Whole years and the day of the last one add up to the day counted from the first. -/
theorem yearOfDay_spec {fuel y d : ℕ} (h : d ≤ fuel) :
    y ≤ (yearOfDay fuel y d).1 ∧ (yearOfDay fuel y d).2 < daysInYear (yearOfDay fuel y d).1 ∧
      ((List.range ((yearOfDay fuel y d).1 - y)).map fun k => daysInYear (y + k)).sum +
        (yearOfDay fuel y d).2 = d := by
  induction fuel generalizing y d with
  | zero =>
    obtain rfl : d = 0 := by omega
    have hpos := daysInYear_pos y
    simpa [yearOfDay] using hpos
  | succ fuel ih =>
    by_cases hd : d < daysInYear y
    · simp [yearOfDay, hd]
    · have hpos := daysInYear_pos y
      have hrest : d - daysInYear y ≤ fuel := by omega
      obtain ⟨hle, hlt, hsum⟩ := @ih (y + 1) _ hrest
      simp only [yearOfDay, hd, if_false]
      generalize yearOfDay fuel (y + 1) (d - daysInYear y) = r at hle hlt hsum ⊢
      refine ⟨by omega, hlt, ?_⟩
      have hyears : r.1 - y = r.1 - (y + 1) + 1 := by omega
      have hshift : (fun k => daysInYear (y + k)) ∘ Nat.succ = fun k => daysInYear (y + 1 + k) := by
        funext k
        rw [Function.comp_apply, Nat.succ_eq_add_one, Nat.add_comm k 1, ← Nat.add_assoc]
      rw [hyears, List.range_succ_eq_map, List.map_cons, List.map_map, List.sum_cons, hshift,
        Nat.add_zero]
      omega

theorem monthOfDay_spec {ms : List ℕ} {d : ℕ} (h : d < ms.sum) :
    (monthOfDay ms d).1 < ms.length ∧ (∃ m ∈ ms, (monthOfDay ms d).2 < m) ∧
      (ms.take (monthOfDay ms d).1).sum + (monthOfDay ms d).2 = d := by
  induction ms generalizing d with
  | nil => exact absurd h (Nat.not_lt_zero d)
  | cons m ms ih =>
    by_cases hd : d < m
    · simp [monthOfDay, hd]
    · rw [List.sum_cons] at h
      obtain ⟨hlt, ⟨n, hn, hday⟩, hsum⟩ := @ih (d - m) (by omega)
      simp only [monthOfDay, hd, if_false, List.length_cons, List.take_succ_cons, List.sum_cons]
      exact ⟨by omega, ⟨n, List.mem_cons_of_mem _ hn, hday⟩, by omega⟩

theorem sum_monthLengths (y : ℕ) : (monthLengths y).sum = daysInYear y := by
  unfold monthLengths daysInYear
  split_ifs <;> rfl

theorem monthLengths_le {y m : ℕ} (h : m ∈ monthLengths y) : m ≤ 31 := by
  unfold monthLengths at h
  split_ifs at h <;> simp at h <;> omega

/-- The date of an instant leads back to the start of its day. -/
theorem dateUTC_utcDate (now d : ℕ) :
    (utcDate now).date ≤ 31 ∧
      dateUTC (utcDate now).fullYear (utcDate now).month d + ((utcDate now).date - 1) * DAY_MS =
        now / DAY_MS * DAY_MS + (d - 1) * DAY_MS := by
  obtain ⟨-, hlt, hyears⟩ := @yearOfDay_spec (now / DAY_MS) 1970 (now / DAY_MS) le_rfl
  simp only [utcDate]
  generalize yearOfDay (now / DAY_MS) 1970 (now / DAY_MS) = r at hlt hyears ⊢
  obtain ⟨hmonth, ⟨n, hn, hday⟩, hmonths⟩ :=
    @monthOfDay_spec (monthLengths r.1) r.2 (by rw [sum_monthLengths]; exact hlt)
  generalize monthOfDay (monthLengths r.1) r.2 = q at hmonth hday hmonths ⊢
  have hlong := monthLengths_le hn
  have htwelve : q.1 < 12 := by simpa [monthLengths] using hmonth
  refine ⟨by omega, ?_⟩
  have hsum : ((List.range (r.1 - 1970)).map fun k => daysInYear (1970 + k)).sum +
      ((monthLengths r.1).take q.1).sum + q.2 = now / DAY_MS := by omega
  simp only [dateUTC, Nat.div_eq_of_lt htwelve, Nat.mod_eq_of_lt htwelve, Nat.add_zero,
    Nat.add_sub_cancel]
  rw [← Nat.add_mul, ← Nat.add_mul, ← hsum]
  apply congrArg (· * DAY_MS)
  omega

/-- A quota period begins at most thirty-one days back. -/
theorem lt_quotaPeriod_add (now : ℕ) (period : Period) :
    now < (quotaPeriod now period).start + 31 * DAY_MS := by
  have hnow := Nat.lt_div_mul_add (a := now) (show 0 < DAY_MS by decide)
  cases period with
  | day =>
    obtain ⟨-, hdate⟩ := dateUTC_utcDate now (utcDate now).date
    simp only [quotaPeriod]
    omega
  | month =>
    obtain ⟨hlong, hdate⟩ := dateUTC_utcDate now 1
    have hday : ((utcDate now).date - 1) * DAY_MS ≤ 30 * DAY_MS :=
      Nat.mul_le_mul_right _ (by omega)
    simp only [quotaPeriod]
    omega

end GeoPlatform.Convex
