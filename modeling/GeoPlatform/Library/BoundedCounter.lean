import GeoPlatform.Library.OrderedMap

/-! Counters of names in successive windows, kept in a map of bounded size that gives up the
counter hit longest ago. As long as the names of one window fit, every counter of the last window
is exact. -/
namespace BoundedCounter
variable {κ : Type*} [DecidableEq κ]

/-- Count one more under `k`, move its entry to the end, and shrink the map to `max` entries. -/
def bump (max : ℕ) (m : List ((κ × ℕ) × ℕ)) (k : κ × ℕ) : ℕ × List ((κ × ℕ) × ℕ) :=
  let count := (OrderedMap.get? m k).getD 0 + 1
  let m := OrderedMap.erase m k ++ [(k, count)]
  (count, m.drop (m.length - max))

/-- The names hit in the window `w`. -/
def names (log : List (κ × ℕ)) (w : ℕ) : Finset κ :=
  ((log.filter fun k => k.2 = w).map Prod.fst).toFinset

theorem names_mono {log log' : List (κ × ℕ)} (h : log.Sublist log') (w : ℕ) :
    names log w ⊆ names log' w := by
  intro x hx
  rw [names, List.mem_toFinset] at hx ⊢
  exact ((h.filter _).map _).subset hx

theorem card_names_le (log : List (κ × ℕ)) (w : ℕ) : (names log w).card ≤ log.length := by
  refine (List.toFinset_card_le _).trans ?_
  rw [List.length_map]
  exact List.length_filter_le ..

theorem names_map {κ' : Type*} [DecidableEq κ'] (f : κ → κ') (log : List (κ × ℕ)) (w : ℕ) :
    names (log.map fun k => (f k.1, k.2)) w = (names log w).image f := by
  ext x
  simp only [names, List.mem_toFinset, List.mem_map, List.mem_filter, Finset.mem_image,
    decide_eq_true_eq]
  constructor
  · rintro ⟨_, ⟨⟨k, hk, rfl⟩, hw⟩, rfl⟩
    exact ⟨k.1, ⟨k, ⟨hk, hw⟩, rfl⟩, rfl⟩
  · rintro ⟨_, ⟨k, ⟨hk, hw⟩, rfl⟩, rfl⟩
    exact ⟨(f k.1, k.2), ⟨⟨k, hk, rfl⟩, hw⟩, rfl⟩

/-- Renaming names apart leaves every count as it was. -/
theorem count_map {κ' : Type*} [DecidableEq κ'] {f : κ → κ'} {log : List (κ × ℕ)} {x : κ}
    (hf : ∀ k ∈ log, f k.1 = f x → k.1 = x) (w : ℕ) :
    (log.map fun k => (f k.1, k.2)).count (f x, w) = log.count (x, w) := by
  rw [List.count, List.countP_map, List.count]
  refine List.countP_congr fun k hk => ?_
  simp only [Function.comp_apply, beq_iff_eq, Prod.ext_iff]
  exact ⟨fun h => ⟨hf k hk h.1, h.2⟩, fun h => ⟨congrArg f h.1, h.2⟩⟩

/-- What the map knows of the hits so far. -/
structure Tracks (log : List (κ × ℕ)) (m : List ((κ × ℕ) × ℕ)) : Prop where
  nodup : (m.map Prod.fst).Nodup
  sorted : m.Pairwise fun a b => a.1.2 ≤ b.1.2
  logged : ∀ e ∈ m, e.1 ∈ log
  count : ∀ k : κ × ℕ, (∀ j ∈ log, j.2 ≤ k.2) → (OrderedMap.get? m k).getD 0 = log.count k

theorem tracks_nil : Tracks ([] : List (κ × ℕ)) [] where
  nodup := List.nodup_nil
  sorted := List.Pairwise.nil
  logged := by simp
  count := by simp [OrderedMap.get?_nil]

variable {log : List (κ × ℕ)} {m : List ((κ × ℕ) × ℕ)}

/-- Counting one more, before the map is shrunk. -/
theorem Tracks.append (h : Tracks log m) {k : κ × ℕ} (hlate : ∀ j ∈ log, j.2 ≤ k.2) :
    Tracks (log ++ [k])
      (OrderedMap.erase m k ++ [(k, (OrderedMap.get? m k).getD 0 + 1)]) := by
  have hsub := OrderedMap.erase_sublist m k
  refine ⟨?_, ?_, ?_, ?_⟩
  · rw [List.map_append, List.nodup_append]
    refine ⟨h.nodup.sublist (hsub.map _), List.nodup_singleton _, ?_⟩
    rintro a ha b hb rfl
    obtain ⟨e, he, rfl⟩ := List.mem_map.mp ha
    exact (OrderedMap.mem_erase.mp he).2 (by simpa using hb)
  · rw [List.pairwise_append]
    refine ⟨h.sorted.sublist hsub, List.pairwise_singleton _ _, fun a ha b hb => ?_⟩
    rw [List.mem_singleton.mp hb]
    exact hlate _ (h.logged a (hsub.subset ha))
  · intro e he
    rcases List.mem_append.mp he with he | he
    · exact List.mem_append_left _ (h.logged e (hsub.subset he))
    · rw [List.mem_singleton.mp he]
      simp
  · intro j hj
    have hcount := h.count j fun i hi => hj i (List.mem_append_left _ hi)
    rw [OrderedMap.get?_append, OrderedMap.get?_erase, List.count_append]
    by_cases hjk : j = k
    · subst hjk
      rw [← hcount]
      simp [OrderedMap.get?]
    · have hne : OrderedMap.get? [(k, (OrderedMap.get? m k).getD 0 + 1)] j = none :=
        OrderedMap.get?_eq_none (by simp [Ne.symm hjk])
      simp [hjk, hne, hcount, Ne.symm hjk]

/-- The map holds no more entries of a window than names were hit in it. -/
theorem Tracks.length_le (h : Tracks log m) {rest : List ((κ × ℕ) × ℕ)} (hsub : rest.Sublist m)
    {w : ℕ} (hall : ∀ e ∈ rest, e.1.2 = w) : rest.length ≤ (names log w).card := by
  have hkeys : ((rest.map Prod.fst).map Prod.fst).Nodup := by
    refine List.Nodup.map_on ?_ (h.nodup.sublist (hsub.map _))
    intro x hx y hy hxy
    obtain ⟨e, he, rfl⟩ := List.mem_map.mp hx
    obtain ⟨f, hf, rfl⟩ := List.mem_map.mp hy
    exact Prod.ext hxy ((hall e he).trans (hall f hf).symm)
  have hlen : rest.length = ((rest.map Prod.fst).map Prod.fst).toFinset.card := by
    rw [List.toFinset_card_of_nodup hkeys, List.length_map, List.length_map]
  rw [hlen]
  apply Finset.card_le_card
  intro x hx
  rw [List.map_map, List.mem_toFinset] at hx
  obtain ⟨e, he, rfl⟩ := List.mem_map.mp hx
  rw [names, List.mem_toFinset]
  refine List.mem_map_of_mem (List.mem_filter.mpr ⟨h.logged e (hsub.subset he), ?_⟩)
  simpa using hall e he

/-- What is given up is of an earlier window, as long as the names of the last one fit. -/
theorem Tracks.shrink (h : Tracks log m) {max w : ℕ} (hlast : ∀ j ∈ log, j.2 ≤ w)
    (hmem : ∃ j ∈ log, j.2 = w) (hroom : (names log w).card ≤ max) :
    Tracks log (m.drop (m.length - max)) := by
  have hsub := List.drop_sublist (m.length - max) m
  refine ⟨h.nodup.sublist (hsub.map _), h.sorted.sublist hsub,
    fun e he => h.logged e (hsub.subset he), fun k hk => ?_⟩
  rw [← h.count k hk]
  have hnone : OrderedMap.get? (m.take (m.length - max)) k = none := by
    refine OrderedMap.get?_eq_none fun e he hek => ?_
    -- From `e` on every entry is of the last window, and there are more than `max` of them.
    obtain ⟨s, t, hst⟩ := List.append_of_mem he
    have hlen := congrArg List.length hst
    have hm : m = s ++ e :: (t ++ m.drop (m.length - max)) := by
      rw [← List.cons_append, ← List.append_assoc, ← hst, List.take_append_drop]
    have hmore : max < (e :: (t ++ m.drop (m.length - max))).length := by
      simp only [List.length_take, List.length_append, List.length_cons, List.length_drop] at hlen ⊢
      omega
    have hlater : (e :: (t ++ m.drop (m.length - max))).Sublist m := by
      conv_rhs => rw [hm]
      exact List.sublist_append_right s _
    have hsorted := List.pairwise_cons.mp (h.sorted.sublist hlater)
    obtain ⟨j, hj, hjw⟩ := hmem
    have hwindow : e.1.2 = w := by
      have hle := hlast e.1 (h.logged e (hlater.subset (List.mem_cons_self ..)))
      have hge := hk j hj
      rw [← hek] at hge
      omega
    have hfew := h.length_le hlater fun f hf => by
      rcases List.mem_cons.mp hf with rfl | hf'
      · exact hwindow
      · have hle := hlast f.1 (h.logged f (hlater.subset hf))
        have hge := hsorted.1 f hf'
        omega
    omega
  conv_rhs => rw [← List.take_append_drop (m.length - max) m]
  rw [OrderedMap.get?_append, hnone, Option.none_or]

theorem Tracks.bump (h : Tracks log m) {k : κ × ℕ} (hlate : ∀ j ∈ log, j.2 ≤ k.2) {max : ℕ}
    (hroom : (names (log ++ [k]) k.2).card ≤ max) :
    (bump max m k).1 = log.count k + 1 ∧ Tracks (log ++ [k]) (bump max m k).2 := by
  refine ⟨congrArg (· + 1) (h.count k hlate), (h.append hlate).shrink ?_ ⟨k, by simp, rfl⟩ hroom⟩
  intro j hj
  rcases List.mem_append.mp hj with hj | hj
  · exact hlate j hj
  · rw [List.mem_singleton.mp hj]

end BoundedCounter
