import GeoPlatform.Library.OrderedMap
import Mathlib.Data.Finset.Card
import Mathlib.Data.List.TakeWhile
import Mathlib.Tactic

/-! Lists of keys in the order of their last touch. A key can leave such a list at its old end
only if as many other keys have been touched since. -/
namespace Recency
variable {κ : Type*} [DecidableEq κ]

/-- The keys touched since the last touch of `k`. -/
def since (touches : List κ) (k : κ) : Finset κ :=
  (touches.reverse.takeWhile (· ≠ k)).toFinset

variable {touches keys : List κ} {j k : κ}

@[simp] theorem since_touch_self : since (touches ++ [k]) k = ∅ := by
  simp [since]

theorem since_touch (h : j ≠ k) : since (touches ++ [j]) k = insert j (since touches k) := by
  simp [since, h]

theorem notMem_since : k ∉ since touches k := by
  intro h
  simpa using List.mem_takeWhile_imp (List.mem_toFinset.mp h)

theorem since_subset_touch (h : j ≠ k) : since touches k ⊆ since (touches ++ [j]) k := by
  rw [since_touch h]
  exact Finset.subset_insert _ _

/-- The keys stand in the order of their last touch. -/
def Recent (touches keys : List κ) : Prop := keys.Pairwise fun k j => j ∈ since touches k

theorem recent_nil : Recent touches [] := List.Pairwise.nil

theorem Recent.nodup (h : Recent touches keys) : keys.Nodup := by
  refine h.imp fun {k j} hj heq => ?_
  subst heq
  exact notMem_since hj

theorem Recent.sublist {keys' : List κ} (h : Recent touches keys) (hsub : keys'.Sublist keys) :
    Recent touches keys' := List.Pairwise.sublist hsub h

/-- A touched key goes to the end. -/
theorem Recent.touch (h : Recent touches keys) (j : κ) :
    Recent (touches ++ [j]) (keys.filter (· ≠ j) ++ [j]) := by
  have hkept := h.sublist (keys.filter_sublist (p := (· ≠ j)))
  have hne : ∀ k ∈ keys.filter (· ≠ j), j ≠ k := by
    intro k hk
    have hkj : k ≠ j := by simpa using (List.mem_filter.mp hk).2
    exact hkj.symm
  rw [Recent, List.pairwise_append]
  refine ⟨?_, List.pairwise_singleton _ _, ?_⟩
  · refine List.Pairwise.imp_of_mem ?_ hkept
    intro k i hk _ hi
    exact since_subset_touch (hne k hk) hi
  · intro k hk i hi
    rw [List.mem_singleton.mp hi, since_touch (hne k hk)]
    exact Finset.mem_insert_self _ _

/-- What is cut off at the old end has `max` younger keys. -/
theorem Recent.mem_drop {max : ℕ} (h : Recent touches keys) (hk : k ∈ keys)
    (hfew : (since touches k).card < max) : k ∈ keys.drop (keys.length - max) := by
  obtain ⟨old, young, rfl⟩ := List.append_of_mem hk
  obtain ⟨-, htail, -⟩ := List.pairwise_append.mp h
  obtain ⟨hyoung, -⟩ := List.pairwise_cons.mp htail
  have hnodup : young.Nodup := (List.nodup_cons.mp (List.nodup_append.mp h.nodup).2.1).2
  have hle : young.length ≤ (since touches k).card := by
    rw [← List.toFinset_card_of_nodup hnodup]
    exact Finset.card_le_card fun j hj => hyoung j (List.mem_toFinset.mp hj)
  rw [List.drop_append_of_le_length]
  · exact List.mem_append_right _ (List.mem_cons_self ..)
  · rw [List.length_append, List.length_cons]
    omega

/-- A map in the order of the last touches keeps an entry where few keys are younger. -/
theorem Recent.get?_drop {ν : Type*} {m : List (κ × ν)} {max : ℕ}
    (h : Recent touches (m.map Prod.fst)) {v : ν} (hmem : (k, v) ∈ m)
    (hfew : (since touches k).card < max) :
    OrderedMap.get? (m.drop (m.length - max)) k = some v := by
  have hsub := List.drop_sublist (m.length - max) m
  have hkept := h.mem_drop (List.mem_map_of_mem hmem) hfew
  rw [List.length_map, ← List.map_drop] at hkept
  obtain ⟨e, he, rfl⟩ := List.mem_map.mp hkept
  have hget := OrderedMap.get?_of_mem h.nodup (hsub.subset he)
  rw [OrderedMap.get?_of_mem h.nodup hmem] at hget
  rw [Option.some.inj hget]
  exact OrderedMap.get?_of_mem (h.sublist (hsub.map _)).nodup he

end Recency
