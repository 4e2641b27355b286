import GeoPlatform.Library.Table

/-! Tables that hold at most one document under each key. The lookups by key then never find
several, and a document inserted where its lookup found none keeps it so. -/
namespace Docs.Table

variable {α κ : Type*} {p : κ → α → Bool} {t t' : Table α}

/-- `p k` tests for the key `k`. -/
def AtMostOne (p : κ → α → Bool) (t : Table α) : Prop := ∀ k, (t.query (p k)).length ≤ 1

/-- A document meets the test of one key only. -/
def Separates (p : κ → α → Bool) : Prop := ∀ j k a, p j a = true → p k a = true → j = k

theorem atMostOne_empty (p : κ → α → Bool) : AtMostOne p (empty : Table α) :=
  fun _ => Nat.zero_le _

theorem AtMostOne.cases (h : AtMostOne p t) (k : κ) :
    t.unique (p k) = .none ∨ ∃ d, t.unique (p k) = .one d := by
  have hk := h k
  match hq : t.query (p k) with
  | [] => exact Or.inl (unique_eq_none.mpr hq)
  | [d] => exact Or.inr ⟨d, unique_eq_one.mpr hq⟩
  | d :: e :: l => simp [hq] at hk

theorem AtMostOne.not_several (h : AtMostOne p t) (k : κ) : t.unique (p k) ≠ .several := by
  intro hs
  have hlen := unique_eq_several.mp hs
  have hk := h k
  omega

theorem AtMostOne.rewritten (h : AtMostOne p t) {f : ℕ → α → α} (hf : Rewritten f t t')
    (hp : ∀ k i a, p k (f i a) = p k a) : AtMostOne p t' := by
  intro k
  have hle := hf.query_length_le (p := p k) fun i a ha => by
    rw [hp] at ha
    exact ha
  exact hle.trans (h k)

theorem AtMostOne.patch (h : AtMostOne p t) {f : α → α} (hf : ∀ k a, p k (f a) = p k a)
    (i : ℕ) : AtMostOne p (t.patch i f) := by
  intro k
  rw [query_patch (hf k), List.length_map]
  exact h k

theorem AtMostOne.keep (h : AtMostOne p t) (q : Doc α → Bool) : AtMostOne p (t.keep q) := by
  intro k
  exact (List.filter_sublist.filter _).length_le.trans (h k)

/-- A key whose lookup found none may take one document. -/
theorem AtMostOne.insert (h : AtMostOne p t) (hp : Separates p) {k : κ} {a : α}
    (ha : p k a = true) (hnone : t.unique (p k) = .none) : AtMostOne p (t.insert a) := by
  intro j
  by_cases hj : j = k
  · rw [hj, query_insert, unique_none hnone, ha]
    exact le_rfl
  · have hother : p j a = false := by
      rw [Bool.eq_false_iff]
      exact fun hja => hj (hp j k a hja ha)
    rw [query_insert_of_not hother]
    exact h j

end Docs.Table
