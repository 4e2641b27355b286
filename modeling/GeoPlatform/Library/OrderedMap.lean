import Mathlib.Data.List.Basic
import Mathlib.Tactic

/-! Maps that iterate in insertion order; setting a present key keeps its place. -/
namespace OrderedMap
variable {κ ν : Type*} [DecidableEq κ]

def get? (m : List (κ × ν)) (k : κ) : Option ν := (m.find? fun e => e.1 = k).map Prod.snd

def set : List (κ × ν) → κ → ν → List (κ × ν)
  | [], k, v => [(k, v)]
  | e :: m, k, v => if e.1 = k then (k, v) :: m else e :: set m k v

/-- The map without the entry of `k`. -/
def erase (m : List (κ × ν)) (k : κ) : List (κ × ν) := m.filter fun e => e.1 ≠ k

theorem get?_nil (k : κ) : get? ([] : List (κ × ν)) k = none := rfl

theorem get?_set (m : List (κ × ν)) (k j : κ) (v : ν) :
    get? (set m k v) j = if j = k then some v else get? m j := by
  induction m with
  | nil => by_cases h : j = k <;> simp [set, get?, h, eq_comm]
  | cons e m ih =>
    unfold get? at ih
    by_cases he : e.1 = k
    · by_cases hj : j = k
      · simp [set, get?, he, hj]
      · simp [set, get?, he, Ne.symm hj, hj]
    · by_cases hj : j = k
      · simp only [set, he, if_false, get?, List.find?_cons, hj] at ih ⊢
        simpa using ih
      · by_cases hk : e.1 = j
        · simp [set, get?, hk, hj]
        · simp only [set, he, if_false, get?, List.find?_cons, hk, decide_false, hj] at ih ⊢
          exact ih

theorem mem_set {m : List (κ × ν)} {k : κ} {v : ν} {e : κ × ν} (h : e ∈ set m k v) :
    e = (k, v) ∨ e ∈ m := by
  induction m with
  | nil => exact Or.inl (List.mem_singleton.mp h)
  | cons e' m ih =>
    unfold set at h
    split_ifs at h
    · rcases List.mem_cons.mp h with rfl | h
      · exact Or.inl rfl
      · exact Or.inr (List.mem_cons_of_mem _ h)
    · rcases List.mem_cons.mp h with rfl | h
      · exact Or.inr (List.mem_cons_self ..)
      · rcases ih h with rfl | h
        · exact Or.inl rfl
        · exact Or.inr (List.mem_cons_of_mem _ h)

theorem keys_set (m : List (κ × ν)) (k : κ) (v : ν) :
    (set m k v).map Prod.fst =
      if k ∈ m.map Prod.fst then m.map Prod.fst else m.map Prod.fst ++ [k] := by
  induction m with
  | nil => simp [set]
  | cons e m ih =>
    by_cases he : e.1 = k
    · simp [set, he]
    · simp only [set, he, if_false, List.map_cons, ih, List.mem_cons, Ne.symm he, false_or]
      split_ifs <;> rfl

theorem nodup_set {m : List (κ × ν)} (h : (m.map Prod.fst).Nodup) (k : κ) (v : ν) :
    ((set m k v).map Prod.fst).Nodup := by
  rw [keys_set]
  split_ifs with hk
  · exact h
  · rw [List.nodup_append]
    refine ⟨h, List.nodup_singleton k, fun a ha b hb hab => hk ?_⟩
    rw [List.mem_singleton] at hb
    exact hb ▸ hab ▸ ha

/-- Setting a key replaces the weight of its old value, if it had one. -/
theorem sum_set (m : List (κ × ν)) (k : κ) (v : ν) (w : κ × ν → ℕ) :
    ((set m k v).map w).sum + ((get? m k).map fun u => w (k, u)).getD 0 =
      (m.map w).sum + w (k, v) := by
  induction m with
  | nil => simp [set, get?]
  | cons e m ih =>
    unfold get? at ih ⊢
    by_cases he : e.1 = k
    · have hfound : List.find? (fun e => decide (e.1 = k)) (e :: m) = some e := by
        simp [he]
      have hentry : (k, e.2) = e := by rw [← he]
      simp only [set, he, if_true, List.map_cons, List.sum_cons, hfound, Option.map_some,
        Option.getD_some, hentry]
      omega
    · have hskip : List.find? (fun e => decide (e.1 = k)) (e :: m) =
          List.find? (fun e => decide (e.1 = k)) m := by
        simp [he]
      simp only [set, he, if_false, List.map_cons, List.sum_cons, hskip]
      omega

/-! ### Taking entries out, and reading a map in two parts -/

theorem get?_append (m m' : List (κ × ν)) (k : κ) :
    get? (m ++ m') k = (get? m k).or (get? m' k) := by
  unfold get?
  rw [List.find?_append]
  cases m.find? fun e => decide (e.1 = k) <;> rfl

theorem get?_eq_none {m : List (κ × ν)} {k : κ} (h : ∀ e ∈ m, e.1 ≠ k) : get? m k = none := by
  unfold get?
  rw [Option.map_eq_none_iff, List.find?_eq_none]
  intro e he
  simpa using h e he

theorem mem_erase {m : List (κ × ν)} {k : κ} {e : κ × ν} :
    e ∈ erase m k ↔ e ∈ m ∧ e.1 ≠ k := by
  simp [erase, List.mem_filter]

theorem erase_sublist (m : List (κ × ν)) (k : κ) : (erase m k).Sublist m := List.filter_sublist

theorem keys_erase (m : List (κ × ν)) (k : κ) :
    (erase m k).map Prod.fst = (m.map Prod.fst).filter (· ≠ k) := by
  rw [List.filter_map]
  rfl

theorem get?_eq_some {m : List (κ × ν)} {k : κ} {v : ν} (h : get? m k = some v) : (k, v) ∈ m := by
  obtain ⟨e, he, rfl⟩ := Option.map_eq_some_iff.mp h
  have hkey : e.1 = k := by simpa using List.find?_some he
  exact hkey ▸ List.mem_of_find?_eq_some he

theorem get?_of_mem {m : List (κ × ν)} (hkeys : (m.map Prod.fst).Nodup) {k : κ} {v : ν}
    (h : (k, v) ∈ m) : get? m k = some v := by
  induction m with
  | nil => cases h
  | cons e m ih =>
    rw [List.map_cons, List.nodup_cons] at hkeys
    rcases List.mem_cons.mp h with rfl | h
    · simp [get?]
    · have hne : e.1 ≠ k := by
        intro heq
        exact hkeys.1 (List.mem_map.mpr ⟨(k, v), h, heq.symm⟩)
      have hrest := ih hkeys.2 h
      unfold get? at hrest ⊢
      simpa [hne] using hrest

theorem get?_isSome {m : List (κ × ν)} {k : κ} (h : k ∈ m.map Prod.fst) :
    ∃ v, get? m k = some v := by
  rw [← Option.isSome_iff_exists, get?, Option.isSome_map, List.find?_isSome]
  obtain ⟨e, he, hkey⟩ := List.mem_map.mp h
  exact ⟨e, he, by simpa using hkey⟩

theorem get?_erase (m : List (κ × ν)) (k j : κ) :
    get? (erase m k) j = if j = k then none else get? m j := by
  split_ifs with h
  · subst h
    exact get?_eq_none fun e he => (mem_erase.mp he).2
  · unfold get? erase
    rw [List.find?_filter]
    congr 1
    refine List.find?_congr fun e _ => ?_
    by_cases he : e.1 = j
    · simp [he, h]
    · simp [he]

theorem get?_filter {m : List (κ × ν)} (hkeys : (m.map Prod.fst).Nodup) (keep : κ × ν → Bool)
    (k : κ) : get? (m.filter keep) k = (get? m k).filter fun v => keep (k, v) := by
  induction m with
  | nil => rfl
  | cons e m ih =>
    rw [List.map_cons, List.nodup_cons] at hkeys
    have hrest := ih hkeys.2
    by_cases hk : e.1 = k
    · have hfound : get? (e :: m) k = some e.2 := by simp [get?, hk]
      have hnone : get? m k = none :=
        get?_eq_none fun e' he' heq => hkeys.1 (hk ▸ heq ▸ List.mem_map_of_mem he')
      rw [hnone] at hrest
      rw [hfound]
      cases hkeep : keep e
      · rw [List.filter_cons_of_neg (by simp [hkeep]), hrest]
        simp [Option.filter, ← hk, hkeep]
      · rw [List.filter_cons_of_pos hkeep]
        simp [get?, Option.filter, ← hk, hkeep]
    · have hskip : ∀ l : List (κ × ν), get? (e :: l) k = get? l k := fun l => by simp [get?, hk]
      rw [hskip, ← hrest]
      cases hkeep : keep e
      · rw [List.filter_cons_of_neg (by simp [hkeep])]
      · rw [List.filter_cons_of_pos hkeep, hskip]

end OrderedMap
