import Mathlib.Data.Set.Card
import Mathlib.Order.Interval.Finset.Nat
import Mathlib.Tactic

/-! A subscription that every renewal extends by one period, from the expiry in force or from the
renewal itself, whichever is later. However the renewals are spaced, each buys one period. -/
namespace Renewals

/-- The expiry after a renewal at `now`. -/
def renew (period expiry now : ℕ) : ℕ := max expiry now + period

/-- The expiry at `t`, after the renewals made by then. -/
def expiryAt (period first : ℕ) (renewals : List ℕ) (t : ℕ) : ℕ :=
  (renewals.filter fun s => s ≤ t).foldl (renew period) first

/-- The instants from `start` on at which the subscription runs. -/
def covered (period first start : ℕ) (renewals : List ℕ) : Set ℕ :=
  {t | start ≤ t ∧ t < expiryAt period first renewals t}

variable {period first start : ℕ} {renewals : List ℕ}

theorem expiryAt_of_le {t : ℕ} (h : ∀ s ∈ renewals, s ≤ t) :
    expiryAt period first renewals t = renewals.foldl (renew period) first := by
  rw [expiryAt, List.filter_eq_self.mpr fun s hs => decide_eq_true (h s hs)]

theorem expiryAt_append_of_lt {s t : ℕ} (h : t < s) :
    expiryAt period first (renewals ++ [s]) t = expiryAt period first renewals t := by
  have hlate : [s].filter (fun r => r ≤ t) = [] := by simp [h]
  rw [expiryAt, List.filter_append, hlate, List.append_nil, expiryAt]

/-- A set of instants, before and from an instant on. -/
theorem covered_split {s : ℕ} (hstart : start ≤ s) {expiry : ℕ}
    (hfrom : ∀ t, s ≤ t → expiryAt period first renewals t = expiry) :
    covered period first start renewals =
      (covered period first start renewals ∩ Set.Iio s) ∪ Set.Ico s expiry := by
  ext t
  simp only [covered, Set.mem_union, Set.mem_inter_iff, Set.mem_ofPred_eq, Set.mem_Iio, Set.mem_Ico]
  rcases lt_or_ge t s with hlt | hge
  · omega
  · rw [hfrom t hge]
    omega

theorem encard_split (A : Set ℕ) (s expiry : ℕ) :
    ((A ∩ Set.Iio s) ∪ Set.Ico s expiry).encard = (A ∩ Set.Iio s).encard + (expiry - s : ℕ) := by
  have hdisjoint : Disjoint (A ∩ Set.Iio s) (Set.Ico s expiry) := by
    rw [Set.disjoint_left]
    rintro t ⟨-, hlt⟩ ⟨hge, -⟩
    exact absurd hlt (not_lt.mpr hge)
  have hico : (Set.Ico s expiry).encard = (expiry - s : ℕ) := by
    rw [← Finset.coe_Ico, Set.encard_coe_eq_coe_finsetCard, Nat.card_Ico]
  rw [Set.encard_union_eq hdisjoint, hico]

/-- Renewals in order of time buy one period each. -/
theorem encard_covered (hsorted : renewals.Pairwise (· ≤ ·)) (hstart : ∀ s ∈ renewals, start ≤ s)
    (hfirst : first ≤ start) :
    (covered period first start renewals).encard = (renewals.length * period : ℕ) := by
  induction renewals using List.reverseRecOn with
  | nil =>
    have hempty : covered period first start [] = ∅ := by
      ext t
      simp only [covered, expiryAt, Set.mem_ofPred_eq, List.filter_nil, List.foldl_nil,
        Set.mem_empty_iff_false, iff_false, not_and, not_lt]
      exact fun ht => hfirst.trans ht
    simp [hempty]
  | append_singleton earlier s ih =>
    obtain ⟨hearlier, -, hlast⟩ := List.pairwise_append.mp hsorted
    have hle : ∀ r ∈ earlier, r ≤ s := fun r hr => hlast r hr s (List.mem_singleton_self s)
    have hs : start ≤ s := hstart s (by simp)
    let expiry := earlier.foldl (renew period) first
    have hbefore : ∀ t, s ≤ t → expiryAt period first earlier t = expiry := fun t ht =>
      expiryAt_of_le fun r hr => (hle r hr).trans ht
    have hafter : ∀ t, s ≤ t →
        expiryAt period first (earlier ++ [s]) t = max expiry s + period := by
      intro t ht
      have hall : ∀ r ∈ earlier ++ [s], r ≤ t := by
        intro r hr
        rcases List.mem_append.mp hr with hr | hr
        · exact (hle r hr).trans ht
        · exact (List.mem_singleton.mp hr).trans_le ht
      rw [expiryAt_of_le hall, List.foldl_append]
      rfl
    -- Up to the last renewal nothing changes; from it on, what was left grows by one period.
    have hsame : covered period first start (earlier ++ [s]) ∩ Set.Iio s =
        covered period first start earlier ∩ Set.Iio s := by
      ext t
      simp only [covered, Set.mem_inter_iff, Set.mem_ofPred_eq, Set.mem_Iio]
      refine and_congr_left fun hlt => ?_
      rw [expiryAt_append_of_lt hlt]
    have hcount := ih hearlier fun r hr => hstart r (List.mem_append_left _ hr)
    rw [covered_split hs hbefore, encard_split] at hcount
    rw [covered_split hs hafter, encard_split, hsame]
    calc (covered period first start earlier ∩ Set.Iio s).encard +
          ((max expiry s + period - s : ℕ) : ℕ∞)
        = (covered period first start earlier ∩ Set.Iio s).encard + ((expiry - s : ℕ) : ℕ∞) +
            (period : ℕ∞) := by
          have hleft : max expiry s + period - s = (expiry - s) + period := by omega
          rw [hleft, Nat.cast_add, add_assoc]
      _ = ((earlier.length * period : ℕ) : ℕ∞) + (period : ℕ∞) := by rw [hcount]
      _ = (((earlier ++ [s]).length * period : ℕ) : ℕ∞) := by
          rw [← Nat.cast_add, List.length_append, List.length_singleton, Nat.succ_mul]

end Renewals
