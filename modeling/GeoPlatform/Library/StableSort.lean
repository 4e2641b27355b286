import Mathlib.Data.List.Sort

/-! Insertion sort by a key leaves elements with the same key in the order they came in. -/
namespace StableSort

variable {α : Type*} {key : α → ℕ} {R : α → α → Prop}

/-- `a` comes before `b` in a stable sort by `key` of a list in `R`-order. -/
def StablyBefore (key : α → ℕ) (R : α → α → Prop) (a b : α) : Prop :=
  key a < key b ∨ key a = key b ∧ R a b

theorem stablyBefore_orderedInsert {x : α} {l : List α} (hl : l.Pairwise (StablyBefore key R))
    (hx : ∀ y ∈ l, R x y) :
    (l.orderedInsert (fun a b => key a ≤ key b) x).Pairwise (StablyBefore key R) := by
  have hbefore : ∀ y ∈ l, key x ≤ key y → StablyBefore key R x y := by
    intro y hy hle
    rcases lt_or_eq_of_le hle with hlt | heq
    · exact Or.inl hlt
    · exact Or.inr ⟨heq, hx y hy⟩
  induction l with
  | nil => simp
  | cons y l ih =>
    obtain ⟨hy, hl'⟩ := List.pairwise_cons.mp hl
    by_cases hxy : key x ≤ key y
    · rw [List.orderedInsert_cons, if_pos hxy]
      refine List.pairwise_cons.mpr ⟨fun z hz => hbefore z hz ?_, hl⟩
      rcases List.mem_cons.mp hz with rfl | hz
      · exact hxy
      · rcases hy z hz with hlt | ⟨heq, -⟩ <;> omega
    · rw [List.orderedInsert_cons, if_neg hxy]
      refine List.pairwise_cons.mpr ⟨fun z hz => ?_, ?_⟩
      · rcases List.mem_cons.mp ((List.perm_orderedInsert _ x l).mem_iff.mp hz) with rfl | hz
        · exact Or.inl (not_le.mp hxy)
        · exact hy z hz
      · exact ih hl' (fun z hz => hx z (List.mem_cons_of_mem _ hz))
          fun z hz => hbefore z (List.mem_cons_of_mem _ hz)

/-- Insertion sort keeps the order of elements with the same key. -/
theorem insertionSort_stable {l : List α} (hl : l.Pairwise R) :
    (l.insertionSort fun a b => key a ≤ key b).Pairwise (StablyBefore key R) := by
  induction l with
  | nil => simp
  | cons x l ih =>
    obtain ⟨hx, hl⟩ := List.pairwise_cons.mp hl
    exact stablyBefore_orderedInsert (ih hl) fun y hy =>
      hx y ((List.perm_insertionSort _ l).mem_iff.mp hy)

/-! ### The first element -/

/-- What an insertion sort puts first. -/
def first (r : α → α → Prop) [DecidableRel r] : α → List α → α
  | a, [] => a
  | a, b :: l => if r a (first r b l) then a else first r b l

theorem first_nil (r : α → α → Prop) [DecidableRel r] (a : α) : first r a [] = a := rfl

theorem first_cons (r : α → α → Prop) [DecidableRel r] (a b : α) (l : List α) :
    first r a (b :: l) = if r a (first r b l) then a else first r b l := rfl

theorem head?_insertionSort (r : α → α → Prop) [DecidableRel r] (a : α) (l : List α) :
    ((a :: l).insertionSort r).head? = some (first r a l) := by
  induction l generalizing a with
  | nil => rfl
  | cons b l ih =>
    have hb := ih b
    rw [List.insertionSort_cons]
    cases hsorted : (b :: l).insertionSort r with
    | nil =>
      rw [hsorted] at hb
      cases hb
    | cons c cs =>
      rw [hsorted, List.head?_cons, Option.some.injEq] at hb
      rw [List.orderedInsert_cons, first_cons, ← hb]
      split_ifs <;> rfl

theorem first_mem (r : α → α → Prop) [DecidableRel r] (a : α) (l : List α) :
    first r a l ∈ a :: l := by
  induction l generalizing a with
  | nil => exact List.mem_cons_self ..
  | cons b l ih =>
    rw [first_cons]
    split_ifs
    · exact List.mem_cons_self ..
    · exact List.mem_cons_of_mem _ (ih b)

/-- When the elements that meet `p` go before all others, the first of the list that meets it
goes first. -/
theorem find?_eq_first {r : α → α → Prop} [DecidableRel r] {p : α → Bool} {a : α} {l : List α}
    (hp : ∀ x ∈ a :: l, ∀ y ∈ a :: l, p x = true → r x y)
    (hnot : ∀ x ∈ a :: l, ∀ y ∈ a :: l, p x = false → p y = true → ¬ r x y)
    (h : ∃ x ∈ a :: l, p x = true) : (a :: l).find? p = some (first r a l) := by
  induction l generalizing a with
  | nil =>
    obtain ⟨x, hx, hpx⟩ := h
    obtain rfl := List.mem_singleton.mp hx
    simp [first_nil, hpx]
  | cons b l ih =>
    have hfirst := List.mem_cons_of_mem a (first_mem r b l)
    cases hpa : p a with
    | true =>
      rw [List.find?_cons_of_pos hpa, first_cons, if_pos
        (hp a (List.mem_cons_self ..) _ hfirst hpa)]
    | false =>
      obtain ⟨x, hx, hpx⟩ := h
      have hlater : x ∈ b :: l := by
        rcases List.mem_cons.mp hx with rfl | hx
        · rw [hpa] at hpx
          cases hpx
        · exact hx
      have hrest := ih
        (fun x hx y hy => hp x (List.mem_cons_of_mem _ hx) y (List.mem_cons_of_mem _ hy))
        (fun x hx y hy => hnot x (List.mem_cons_of_mem _ hx) y (List.mem_cons_of_mem _ hy))
        ⟨x, hlater, hpx⟩
      have hmeets : p (first r b l) = true := List.find?_some hrest
      rw [List.find?_cons_of_neg (by simp [hpa]), hrest, first_cons,
        if_neg (hnot a (List.mem_cons_self ..) _ hfirst hpa hmeets)]

theorem first_congr {r r' : α → α → Prop} [DecidableRel r] [DecidableRel r'] {a : α} {l : List α}
    (h : ∀ x ∈ a :: l, ∀ y ∈ a :: l, r x y ↔ r' x y) : first r a l = first r' a l := by
  induction l generalizing a with
  | nil => rfl
  | cons b l ih =>
    have hrest := ih fun x hx y hy => h x (List.mem_cons_of_mem _ hx) y (List.mem_cons_of_mem _ hy)
    have hhead := h a (List.mem_cons_self ..) _ (List.mem_cons_of_mem _ (first_mem r' b l))
    rw [first_cons, first_cons, hrest]
    simp only [hhead]

theorem first_map {β : Type*} (r : β → β → Prop) [DecidableRel r] (f : α → β) (a : α)
    (l : List α) : first r (f a) (l.map f) = f (first (fun x y => r (f x) (f y)) a l) := by
  induction l generalizing a with
  | nil => rfl
  | cons b l ih =>
    rw [List.map_cons, first_cons, first_cons, ih]
    split_ifs <;> rfl

/-- A scan that keeps what it has as long as it goes before the next element. -/
theorem foldl_eq_first (r : α → α → Prop) [DecidableRel r] (htotal : ∀ x y, r x y ∨ r y x)
    (htrans : ∀ x y z, r x y → r y z → r x z) (a : α) (l : List α) :
    l.foldl (fun b x => if r b x then b else x) a = first r a l := by
  induction l generalizing a with
  | nil => rfl
  | cons b l ih =>
    rw [List.foldl_cons, ih]
    cases l with
    | nil => rfl
    | cons c l =>
      simp only [first_cons]
      by_cases hab : r a b
      · by_cases hbm : r b (first r c l)
        · simp [hab, hbm, htrans a b _ hab hbm]
        · simp [hab, hbm]
      · have hba := (htotal a b).resolve_left hab
        by_cases hbm : r b (first r c l)
        · simp [hab, hbm]
        · have ham : ¬ r a (first r c l) := fun h => hbm (htrans b a _ hba h)
          simp [hab, hbm, ham]

end StableSort
