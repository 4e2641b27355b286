import GeoPlatform.Library.AStarRuns

/-! Searches that go alike. The fresh entries of a heap are those of the scored nodes that have
not been popped, so two searches with the same scores and the same popped nodes pop the same
node next, whatever stale entries they carry and whatever they started from. A search that
starts at a node, or along arcs out of it as well, is a search from that node. -/
namespace AStar
variable {ν ι K : Type*} [LinearOrder ν] [CommRing K] [LinearOrder K]
variable {P : Problem ν ι K} {starts starts' : List (ν × K × ι)} {direct direct' : Option K}
variable {C : Finset ν} {s s' t t' : Search ν ι K} {e : Entry ν K} {n : ν}

/-- The best total, without where it was found. -/
abbrev Search.total (s : Search ν ι K) : Option K := s.best.map Prod.fst

/-! ### The next entry -/

/-- A fresh entry carries the score of a node that has not been popped, and each such node has
one. -/
theorem Inv.fresh_iff (h : Inv P starts C s) :
    (e ∈ s.heap ∧ ¬ ∃ y ∈ s.gScore e.node, y < e.g) ↔
      s.gScore e.node = some e.g ∧ e.node ∉ C ∧ e.f = e.g + P.h e.node := by
  constructor
  · rintro ⟨he, hfresh⟩
    obtain ⟨hscore, hnot⟩ := h.popped he hfresh
    exact ⟨hscore, hnot, h.entry_f e he⟩
  · rintro ⟨hscore, hnot, hf⟩
    have hentry : entry (e.g + P.h e.node) e.g e.node = e := by
      rw [← hf]
      rfl
    refine ⟨?_, ?_⟩
    · rcases h.pending e.node e.g hscore with hn | he
      · exact absurd hn hnot
      · rwa [hentry] at he
    · rintro ⟨y, hy, hlt⟩
      cases hscore.symm.trans hy
      exact lt_irrefl _ hlt

/-- The entry popped next is the least of the fresh ones. -/
theorem Inv.freshest_le (h : Inv P starts C s) {rest : List (Entry ν K)}
    (hf : freshest s.gScore s.heap = some (e, rest)) {e' : Entry ν K} (he' : e' ∈ s.heap)
    (hfresh : ¬ ∃ y ∈ s.gScore e'.node, y < e'.g) : e ≤ e' := by
  obtain ⟨-, stale, hheap, hstale⟩ := freshest_some hf
  have hsorted := h.sorted
  rw [hheap] at he' hsorted
  rcases List.mem_append.mp he' with he' | he'
  · exact absurd (hstale e' he') hfresh
  · rcases List.mem_cons.mp he' with rfl | he'
    · exact le_rfl
    · exact (List.pairwise_cons.mp (List.pairwise_append.mp hsorted).2.1).1 e' he'

theorem freshest_alike (hs : Inv P starts C s) (ht : Inv P starts' C t)
    (hscore : s.gScore = t.gScore) {rest : List (Entry ν K)}
    (hf : freshest s.gScore s.heap = some (e, rest)) :
    ∃ rest', freshest t.gScore t.heap = some (e, rest') := by
  have hfresh : ∀ x, (x ∈ s.heap ∧ ¬ ∃ y ∈ s.gScore x.node, y < x.g) ↔
      (x ∈ t.heap ∧ ¬ ∃ y ∈ t.gScore x.node, y < x.g) := by
    intro x
    rw [hs.fresh_iff, ht.fresh_iff, hscore]
  have he := (hfresh e).mp (freshest_mem hf)
  cases hf' : freshest t.gScore t.heap with
  | none => exact absurd (freshest_none hf' e he.1) he.2
  | some x =>
    obtain ⟨e', rest'⟩ := x
    have he' := (hfresh e').mpr (freshest_mem hf')
    have heq : e = e' :=
      le_antisymm (hs.freshest_le hf he'.1 he'.2) (ht.freshest_le hf' he.1 he.2)
    exact ⟨rest', by rw [heq]⟩

/-! ### One step -/

theorem improve_alike (hscore : s.gScore = t.gScore) (n : ν) (g : K) (p q : Option ν × ι) :
    (s.improve P n g p).gScore = (t.improve P n g q).gScore := by
  unfold Search.improve
  rw [hscore]
  split_ifs
  · rfl
  · exact hscore

theorem expand_alike (hscore : s.gScore = t.gScore) :
    (s.expand P e).gScore = (t.expand P e).gScore := by
  unfold Search.expand
  generalize P.arcs e.node = arcs
  induction arcs generalizing s t with
  | nil => exact hscore
  | cons a arcs ih => exact ih (improve_alike hscore ..)

theorem expand_total : (s.expand P e).total = s.total := by
  have hbest : (s.expand P e).best = s.best := by
    unfold Search.expand
    generalize P.arcs e.node = arcs
    induction arcs generalizing s with
    | nil => rfl
    | cons a arcs ih =>
      rw [List.foldl_cons, ih]
      unfold Search.improve
      split_ifs <;> rfl
  rw [Search.total, hbest]

omit [LinearOrder ν] in
theorem settle_alike (htotal : s.total = t.total) :
    (s.settle P e).total = (t.settle P e).total := by
  unfold Search.settle
  cases P.exit e.node with
  | none => exact htotal
  | some x =>
    have hbelow : Below (e.g + x) s.total ↔ Below (e.g + x) t.total := by
      rw [htotal]
    by_cases hb : Below (e.g + x) s.total
    · simp only [if_pos hb, if_pos (hbelow.mp hb), Search.total, Option.map_some]
    · simp only [if_neg hb, if_neg (mt hbelow.mpr hb)]
      exact htotal

/-! ### Whole runs -/

/-- Where a run ends, and where it goes on. -/
theorem run_some {k : ℕ} (hrun : run P k s = some s') :
    (s' = s ∧ ∀ e rest, freshest s.gScore s.heap = some (e, rest) → ¬ Below e.f s.total) ∨
      ∃ e rest j, freshest s.gScore s.heap = some (e, rest) ∧ Below e.f s.total ∧ k = j + 1 ∧
        run P j (({ s with heap := rest }.settle P e).expand P e) = some s' := by
  unfold run at hrun
  cases hf : freshest s.gScore s.heap with
  | none =>
    simp only [hf, Option.some.injEq] at hrun
    exact Or.inl ⟨hrun.symm, fun e rest h => by cases h⟩
  | some x =>
    obtain ⟨e, rest⟩ := x
    by_cases hb : Below e.f s.total
    · cases k with
      | zero => simp [hf, hb] at hrun
      | succ j =>
        simp only [hf, hb, not_true_eq_false, if_false] at hrun
        exact Or.inr ⟨e, rest, j, rfl, hb, rfl, hrun⟩
    · simp only [hf, hb, not_false_eq_true, if_true, Option.some.injEq] at hrun
      refine Or.inl ⟨hrun.symm, fun e' rest' h => ?_⟩
      cases h
      exact hb

variable [IsStrictOrderedRing K]

/-- With the same scores, the same popped nodes and the same total so far, two searches that
finish find the same total. -/
theorem run_alike (hP : ArcConsistent P) {k k' : ℕ} (hs : Explored P starts direct C s)
    (ht : Explored P starts' direct' C t) (hscore : s.gScore = t.gScore)
    (htotal : s.total = t.total) (hrun : run P k s = some s') (hrun' : run P k' t = some t') :
    s'.total = t'.total := by
  induction k using Nat.strong_induction_on generalizing s t C k' with
  | _ k ih =>
    rcases run_some hrun with ⟨rfl, hstop⟩ | ⟨e, rest, j, hf, hb, rfl, hgo⟩
    · rcases run_some hrun' with ⟨rfl, -⟩ | ⟨e, rest, j, hf, hb, -, -⟩
      · exact htotal
      · -- the other search would pop an entry that cannot beat the total here
        obtain ⟨rest', hf'⟩ := freshest_alike ht.toInv hs.toInv hscore.symm hf
        exact absurd (htotal ▸ hb) (hstop e rest' hf')
    · obtain ⟨rest', hf'⟩ := freshest_alike hs.toInv ht.toInv hscore hf
      rcases run_some hrun' with ⟨-, hstop⟩ | ⟨e', rest'', j', hf'', -, -, hgo'⟩
      · exact absurd (htotal ▸ hb) (hstop e rest' hf')
      · cases hf'.symm.trans hf''
        refine ih j (Nat.lt_succ_self j) (hs.step hP hf) (ht.step hP hf') ?_ ?_ hgo hgo'
        · apply expand_alike
          rw [(settle_scores P e _).1, (settle_scores P e _).1]
          exact hscore
        · rw [expand_total, expand_total]
          exact settle_alike htotal

/-! ### Starting at a node -/

/-- The search starts at `n` at no cost, and elsewhere only along arcs out of `n`. -/
structure StartsAt (P : Problem ν ι K) (starts : List (ν × K × ι)) (n : ν) : Prop where
  here : ∃ l, (n, 0, l) ∈ starts
  along : ∀ x ∈ starts, x.1 = n ∧ x.2.1 = 0 ∨ ∃ a ∈ P.arcs n, a.target = x.1 ∧ a.cost = x.2.1

omit [IsStrictOrderedRing K] in
/-- Once `n` has been popped, the scores are the costs of its arcs. -/
theorem StartsAt.score_le (hstarts : StartsAt P starts n) (hs : Explored P starts direct {n} s)
    (ht : Explored P starts' direct' {n} t) (hs0 : s.gScore n = some 0)
    (ht0 : t.gScore n = some 0) {m : ν} {y : K} (hy : s.gScore m = some y) :
    ∃ y' ≤ y, t.gScore m = some y' := by
  have harc : ∀ a ∈ P.arcs n, ∃ y' ≤ a.cost, t.gScore a.target = some y' := by
    intro a ha
    obtain ⟨y', hle, hy'⟩ := ht.relaxed n (Finset.mem_singleton_self n) 0 ht0 a ha
    exact ⟨y', by rwa [zero_add] at hle, hy'⟩
  obtain ⟨⟨before, l⟩, -, hlink⟩ := hs.linked m y hy
  cases before with
  | none =>
    rcases hstarts.along _ hlink with ⟨hm, h0⟩ | ⟨a, ha, htarget, hcost⟩
    · simp only at hm h0
      exact ⟨0, h0.ge, hm ▸ ht0⟩
    · simp only at htarget hcost
      exact htarget ▸ hcost ▸ harc a ha
  | some k =>
    obtain ⟨hk, z, hz, a, ha, htarget, -, hcost⟩ := hlink
    rw [Finset.mem_singleton] at hk
    subst hk
    cases hs0.symm.trans hz
    rw [zero_add] at hcost
    exact htarget ▸ hcost ▸ harc a ha

omit [IsStrictOrderedRing K] in
theorem StartsAt.scores_eq (hstarts : StartsAt P starts n) (hstarts' : StartsAt P starts' n)
    (hs : Explored P starts direct {n} s) (ht : Explored P starts' direct' {n} t)
    (hs0 : s.gScore n = some 0) (ht0 : t.gScore n = some 0) : s.gScore = t.gScore := by
  funext m
  cases hy : s.gScore m with
  | none =>
    cases hz : t.gScore m with
    | none => rfl
    | some z =>
      obtain ⟨y, -, hy'⟩ := hstarts'.score_le ht hs ht0 hs0 hz
      cases hy.symm.trans hy'
  | some y =>
    obtain ⟨z, hzy, hz⟩ := hstarts.score_le hs ht hs0 ht0 hy
    obtain ⟨y', hyz, hy'⟩ := hstarts'.score_le ht hs ht0 hs0 hz
    cases hy.symm.trans hy'
    rw [hz, le_antisymm hyz hzy]

omit [IsStrictOrderedRing K] in
theorem StartsAt.scored (hstarts : StartsAt P starts n) (hs : Explored P starts direct ∅ s)
    {m : ν} {y : K} (hy : s.gScore m = some y) :
    m = n ∧ y = 0 ∨ ∃ a ∈ P.arcs n, a.target = m ∧ a.cost = y := by
  obtain ⟨⟨before, l⟩, -, hlink⟩ := hs.linked m y hy
  cases before with
  | none => exact hstarts.along _ hlink
  | some k => exact absurd hlink.1 (Finset.notMem_empty k)

omit [IsStrictOrderedRing K] in
/-- No arc leads back to `n` for nothing. -/
theorem StartsAt.score_zero (hpos : ∀ m, ∀ a ∈ P.arcs m, 0 < a.cost)
    (hstarts : StartsAt P starts n) (hC : C ⊆ {n}) (hs : Explored P starts direct C s) :
    s.gScore n = some 0 := by
  obtain ⟨l, hl⟩ := hstarts.here
  obtain ⟨y, hle, hy⟩ := hs.started _ hl
  obtain ⟨⟨before, l'⟩, -, hlink⟩ := hs.linked n y hy
  cases before with
  | none =>
    rcases hstarts.along _ hlink with ⟨-, h0⟩ | ⟨a, ha, -, hcost⟩
    · simp only at h0
      rw [hy, h0]
    · have hlt := hpos n a ha
      rw [hcost] at hlt
      exact absurd hlt (not_lt.mpr hle)
  | some k =>
    obtain ⟨hk, z, hz, a, ha, -, -, hcost⟩ := hlink
    rw [Finset.mem_singleton.mp (hC hk), hy] at hz
    cases hz
    exact absurd (add_eq_left.mp hcost) (hpos k a ha).ne'

omit [IsStrictOrderedRing K] in
/-- The first node popped is `n`. -/
theorem StartsAt.popped (hP : ArcConsistent P) (hpos : ∀ m, ∀ a ∈ P.arcs m, 0 < a.cost)
    (hstarts : StartsAt P starts n) (hs : Explored P starts direct ∅ s) :
    ∃ rest, freshest s.gScore s.heap = some (entry (P.h n) 0 n, rest) := by
  obtain ⟨hmem, hn⟩ : entry (P.h n) 0 n ∈ s.heap ∧
      ¬ ∃ y ∈ s.gScore (entry (P.h n) 0 n).node, y < (entry (P.h n) 0 n).g :=
    hs.fresh_iff.mpr
      ⟨hstarts.score_zero hpos (Finset.empty_subset _) hs, Finset.notMem_empty n,
        (zero_add _).symm⟩
  cases hf : freshest s.gScore s.heap with
  | none => exact absurd (freshest_none hf _ hmem) hn
  | some x =>
    obtain ⟨e, rest⟩ := x
    obtain ⟨hscore, -, hef⟩ := hs.fresh_iff.mp (freshest_mem hf)
    have hle : e ≤ entry (P.h n) 0 n := hs.freshest_le hf hmem hn
    rcases hstarts.scored hs hscore with ⟨hnode, hg⟩ | ⟨a, ha, htarget, hcost⟩
    · rw [hnode, hg, zero_add] at hef
      have heq : e = entry (P.h n) 0 n := Prod.ext hef (Prod.ext hg hnode)
      exact ⟨rest, by rw [heq]⟩
    · -- along an arc the estimate is no smaller, and what has been travelled is more
      have harc := hP.arc n a ha
      rw [htarget, hcost, ← hef] at harc
      have hg : 0 < e.g := hcost ▸ hpos n a ha
      exfalso
      rcases Prod.Lex.le_iff.mp hle with hlt | ⟨-, hle'⟩
      · exact absurd harc (not_le.mpr hlt)
      · have hge : e.g ≤ 0 := Prod.Lex.monotone_fst _ _ hle'
        exact absurd hg (not_lt.mpr hge)

omit [LinearOrder ν] [IsStrictOrderedRing K] in
/-- The total once `n` has been popped first, where the total known before is the exit there. -/
theorem settle_first (hdirect : ∀ t ∈ s.total, P.exit n = some t) :
    (s.settle P (entry (P.h n) 0 n)).total = P.exit n := by
  have hg : (entry (P.h n) 0 n).g = 0 := rfl
  have hnode : (entry (P.h n) 0 n).node = n := rfl
  unfold Search.settle
  rw [hnode, hg]
  match hx : P.exit n, htotal : s.total with
  | none, none => exact htotal
  | none, some t => cases hx.symm.trans (hdirect t htotal)
  | some x, none =>
    have hbelow : Below (0 + x) s.total := by
      rw [htotal]
      simp [Below]
    simp only [if_pos hbelow, Search.total, Option.map_some]
    rw [zero_add]
  | some x, some t =>
    cases hx.symm.trans (hdirect t htotal)
    have hbelow : ¬ Below (0 + x) s.total := by
      rw [htotal]
      simp [Below]
    simp only [if_neg hbelow]
    exact htotal

/-- What such a search finds is what it finds once `n` has been popped, even where it stops
before that. -/
theorem StartsAt.run_after (hP : ArcConsistent P) (hpos : ∀ m, ∀ a ∈ P.arcs m, 0 < a.cost)
    (hstarts : StartsAt P starts n) (hdirect : ∀ t ∈ direct, P.exit n = some t) {k : ℕ}
    (hrun : run P k (Search.begin P direct starts) = some s') :
    ∃ s₁ s₂ j, Explored P starts direct {n} s₁ ∧ s₁.total = P.exit n ∧
      run P j s₁ = some s₂ ∧ s₂.total = s'.total := by
  have hfirst := explored_begin P starts direct
  have htotal : (Search.begin P direct starts).total = direct := by
    rw [Search.total, begin_best]
    cases direct <;> rfl
  generalize Search.begin P direct starts = s at *
  obtain ⟨rest, hf⟩ := hstarts.popped hP hpos hfirst
  have hstep := hfirst.step hP hf
  have hafter : ((({ s with heap := rest } : Search ν ι K).settle P
      (entry (P.h n) 0 n)).expand P (entry (P.h n) 0 n)).total = P.exit n := by
    rw [expand_total]
    exact settle_first (s := { s with heap := rest }) (htotal ▸ hdirect)
  rw [show insert (entry (P.h n) 0 n).node ∅ = ({n} : Finset ν) from insert_empty_eq _] at hstep
  rcases run_some hrun with ⟨heq, hstop⟩ | ⟨e, rest', j, hf', -, -, hgo⟩
  · -- the direct total is no more than the estimate at `n`, so nothing beats it later either
    have hbelow : ¬ Below (P.h n) s.total := hstop _ _ hf
    obtain ⟨t, ht, hle⟩ : ∃ t ∈ s.total, t ≤ P.h n := by
      simpa [Below] using hbelow
    have hexit : P.exit n = some t := hdirect t (htotal ▸ ht)
    generalize (({ s with heap := rest } : Search ν ι K).settle P
      (entry (P.h n) 0 n)).expand P (entry (P.h n) 0 n) = s₁ at hstep hafter
    obtain ⟨b, hb, hbt⟩ := Option.map_eq_some_iff.mp (hafter.trans hexit)
    have hfloor : ∀ e ∈ s₁.heap, b.1 ≤ e.f := by
      intro e he
      obtain ⟨y, hy, hfloor⟩ := hstep.closed n (Finset.mem_singleton_self n)
      cases (hstarts.score_zero hpos (Finset.Subset.refl _) hstep).symm.trans hy
      have hfe := hfloor e he
      rw [zero_add] at hfe
      exact hbt.trans_le (hle.trans hfe)
    refine ⟨s₁, s₁, 0, hstep, hafter, run_of_best_le P hb hfloor 0, ?_⟩
    rw [hafter, hexit, heq]
    exact ht.symm
  · cases hf.symm.trans hf'
    exact ⟨_, s', j, hstep, hafter, hgo, rfl⟩

/-- Two searches that start at one node find the same total, if the total that either knows
before is that of finishing there. -/
theorem run_startsAt (hP : ArcConsistent P) (hpos : ∀ m, ∀ a ∈ P.arcs m, 0 < a.cost)
    (hstarts : StartsAt P starts n) (hstarts' : StartsAt P starts' n)
    (hdirect : ∀ t ∈ direct, P.exit n = some t) (hdirect' : ∀ t ∈ direct', P.exit n = some t)
    {k k' : ℕ} (hrun : run P k (Search.begin P direct starts) = some s')
    (hrun' : run P k' (Search.begin P direct' starts') = some t') : s'.total = t'.total := by
  obtain ⟨s₁, s₂, j, hs, htotal, hj, hs₂⟩ := hstarts.run_after hP hpos hdirect hrun
  obtain ⟨t₁, t₂, j', ht, htotal', hj', ht₂⟩ := hstarts'.run_after hP hpos hdirect' hrun'
  have hscore := hstarts.scores_eq hstarts' hs ht
    (hstarts.score_zero hpos (Finset.Subset.refl _) hs)
    (hstarts'.score_zero hpos (Finset.Subset.refl _) ht)
  rw [← hs₂, ← ht₂]
  exact run_alike hP hs ht hscore (htotal.trans htotal'.symm) hj hj'

end AStar
