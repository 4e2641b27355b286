import GeoPlatform.Geo.RoadRoutes

/-! Snaps on links that the profile may not use. `snap` returns none, but `shortest_path` would
take them: such a link costs `math.inf`, and no time that is part of it is finite. -/
namespace GeoPlatform.Geo
variable {K : Type} [Field K] [LinearOrder K]

/-- The profile may use the snap's link. -/
def Usable (data : ProfileData K) (s : Snap K) : Prop :=
  ∃ cost, data.linkCost.getD s.link none = some cost

/-- The run that `shortest_path` starts from any two snaps. -/
def searchRun (haversine : Point K → Point K → K) (g : RoadGraph K) (data : ProfileData K)
    (origin destination : Snap K) (oCost dCost : Option K) (maxExpansions : ℤ) :
    Option (AStar.Search ℕ ℕ (WithBot K)) :=
  let direct := directTotal g data origin destination oCost
  let problem := searchProblem haversine g data destination direct dCost
  AStar.run problem maxExpansions.toNat
    (AStar.Search.begin problem (direct.bind Duration.score) (startNodes g data origin oCost))

variable {haversine : Point K → Point K → K} {g : RoadGraph K} {data : ProfileData K}
variable {origin destination s : Snap K} {oCost dCost : Option K} {direct : Option (Duration K)}

theorem usable_iff {cost : Option K} (h : data.linkCost[s.link]? = some cost) :
    Usable data s ↔ cost ≠ none := by
  rw [Usable, List.getD_eq_getElem?_getD, h, Option.getD_some, Option.ne_none_iff_exists']

theorem linkCost_eq_none (hb : Built haversine g data) (hi : s.link < g.links.length)
    (h : ¬ Usable data s) : data.linkCost[s.link]? = some none := by
  have hlength : s.link < data.linkCost.length := by
    rw [hb.costs, linkCosts, List.length_map]
    exact hi
  have hcost := List.getElem?_eq_getElem hlength
  rw [usable_iff hcost, not_not] at h
  rw [hcost, h]

/-! ### Parts of an infinite cost -/

theorem score_partCost_none {t : K} {v : WithBot K} (h : (partCost t none).score = some v) :
    t < 0 ∧ v = ⊥ := by
  unfold partCost at h
  split_ifs at h with hpos hneg
  · cases h
  · cases h
    exact ⟨hneg, rfl⟩
  · cases h

theorem startNodes_none {x : ℕ × WithBot K × ℕ} (h : x ∈ startNodes g data origin none) :
    x.2.1 = ⊥ ∧ (origin.fraction < 0 ∨ 1 - origin.fraction < 0) := by
  unfold startNodes at h
  rcases List.mem_append.mp h with h | h
  · split_ifs at h
    · obtain ⟨v, hv, rfl⟩ := List.mem_map.mp h
      obtain ⟨hneg, hbot⟩ := score_partCost_none (Option.mem_toList.mp hv)
      exact ⟨hbot, Or.inl hneg⟩
    · cases h
  · split_ifs at h
    · obtain ⟨v, hv, rfl⟩ := List.mem_map.mp h
      obtain ⟨hneg, hbot⟩ := score_partCost_none (Option.mem_toList.mp hv)
      exact ⟨hbot, Or.inr hneg⟩
    · cases h

theorem goals_none {n : ℕ} {v : WithBot K} (h : goals g data destination none n = some v) :
    v = ⊥ ∧ (destination.fraction < 0 ∨ 1 - destination.fraction < 0) := by
  unfold goals at h
  generalize hatU : (if g.canTraverse data destination.link true then
    Function.update (fun _ : ℕ => (none : Option (WithBot K))) (g.link destination.link).u
      (partCost destination.fraction none).score else fun _ => none) = atU at h
  have hu : ∀ m w, atU m = some w → w = ⊥ ∧ destination.fraction < 0 := by
    intro m w hw
    rw [← hatU] at hw
    split_ifs at hw
    by_cases hm : m = (g.link destination.link).u
    · subst hm
      rw [Function.update_self] at hw
      exact (score_partCost_none hw).symm
    · rw [Function.update_of_ne hm] at hw
      cases hw
  split_ifs at h
  · by_cases hn : n = (g.link destination.link).v
    · subst hn
      rw [Function.update_self] at h
      cases hfirst : atU (g.link destination.link).v with
      | none =>
        rw [hfirst, Option.merge_none_left] at h
        exact (score_partCost_none h).symm.imp_right Or.inr
      | some w =>
        obtain ⟨rfl, hneg⟩ := hu _ _ hfirst
        rw [hfirst] at h
        cases hextra : (partCost (1 - destination.fraction) (none : Option K)).score <;>
          simp [hextra, Option.merge] at h <;> exact ⟨h.symm, Or.inl hneg⟩
    · rw [Function.update_of_ne hn] at h
      exact (hu n v h).imp_right Or.inl
  · exact (hu n v h).imp_right Or.inl

/-! ### The run -/

variable [IsStrictOrderedRing K]

theorem searchProblem_arcConsistent (hm : IsPseudoMetric haversine)
    (hb : Built haversine g data) :
    AStar.ArcConsistent (searchProblem haversine g data destination direct dCost) := by
  have hcosts : AStar.ArcConsistent (costProblem haversine g data destination 0) :=
    costProblem_arcConsistent hm hb
  constructor
  · intro n a ha
    obtain ⟨arc, harc, rfl⟩ := List.mem_map.mp ha
    exact WithBot.coe_le_coe.mpr (hcosts.arc n arc harc)
  · exact fun n => WithBot.addLECancellable_coe _

theorem searchRun_explored (hm : IsPseudoMetric haversine) (hb : Built haversine g data)
    {maxExpansions : ℤ} {s : AStar.Search ℕ ℕ (WithBot K)}
    (hrun : searchRun haversine g data origin destination oCost dCost maxExpansions = some s) :
    ∃ C, AStar.Explored (searchProblem haversine g data destination
        (directTotal g data origin destination oCost) dCost)
      (startNodes g data origin oCost)
      ((directTotal g data origin destination oCost).bind Duration.score) C s := by
  obtain ⟨C, h, -⟩ := AStar.run_explored (searchProblem_arcConsistent hm hb) _
    (AStar.explored_begin ..) hrun
  exact ⟨C, h⟩

omit [IsStrictOrderedRing K] in
/-- From a start at minus infinity nothing else is reached. -/
theorem walk_none {P : AStar.Problem ℕ ℕ (WithBot K)} {n : ℕ} {c : WithBot K}
    (h : AStar.Walk P (startNodes g data origin none) n c) :
    c = ⊥ ∧ (origin.fraction < 0 ∨ 1 - origin.fraction < 0) := by
  induction h with
  | start hstart => exact startNodes_none hstart
  | along _ _ ih =>
    obtain ⟨rfl, hfraction⟩ := ih
    exact ⟨WithBot.bot_add _, hfraction⟩

omit [IsStrictOrderedRing K] in
/-- Where a total is found over the nodes, its parts are those of the two links. -/
theorem best_at_nodes {C : Finset ℕ} {s : AStar.Search ℕ ℕ (WithBot K)}
    {starts : List (ℕ × WithBot K × ℕ)} {total : WithBot K} {goal : ℕ} {t : Option (WithBot K)}
    (h : AStar.Explored (searchProblem haversine g data destination direct dCost) starts t C s)
    (hbest : s.best = some (total, some goal)) :
    ∃ y x, AStar.Walk (searchProblem haversine g data destination direct dCost) starts goal y ∧
      goals g data destination dCost goal = some x ∧ total = y + x := by
  obtain ⟨-, y, x, hy, hx, rfl⟩ := h.best_at total goal hbest
  refine ⟨y, x, h.walk goal y hy, ?_, rfl⟩
  by_cases hnan : direct = some .nan
  · simp [searchProblem, hnan] at hx
  · simpa [searchProblem, hnan] using hx

omit [IsStrictOrderedRing K] in
theorem directTotal_finite {x : K}
    (h : directTotal g data origin destination oCost = some (.finite x)) :
    origin.link = destination.link ∧ oCost ≠ none := by
  simp only [directTotal] at h
  split_ifs at h with hsame
  refine ⟨hsame, ?_⟩
  rintro rfl
  simp only [partCost, Option.some.injEq] at h
  split_ifs at h

omit [Field K] [LinearOrder K] [IsStrictOrderedRing K] in
theorem ofScore_finite {t : WithBot K} {x : K} (h : Duration.ofScore t = .finite x) :
    t = (x : WithBot K) := by
  match t, h with
  | ⊥, h => cases h
  | (y : K), h => exact congrArg WithBot.some (Duration.finite.inj h)

omit [Field K] [LinearOrder K] [IsStrictOrderedRing K] in
theorem finite_of_score {d : Duration K} {x : K} (h : d.score = some (x : WithBot K)) :
    d = .finite x := by
  cases d with
  | finite y => exact congrArg Duration.finite (WithBot.coe_injective (Option.some.inj h))
  | infinity => cases h
  | negInfinity => cases h
  | nan => cases h

omit [IsStrictOrderedRing K] in
/-- A finite best total has a finite cost of both links in it. -/
theorem bestFound_finite {C : Finset ℕ} {s : AStar.Search ℕ ℕ (WithBot K)}
    (ho : data.linkCost[origin.link]? = some oCost)
    (hd : data.linkCost[destination.link]? = some dCost)
    (h : AStar.Explored (searchProblem haversine g data destination
        (directTotal g data origin destination oCost) dCost)
      (startNodes g data origin oCost)
      ((directTotal g data origin destination oCost).bind Duration.score) C s)
    {x : K} {goal : Option ℕ}
    (hbest : bestFound (directTotal g data origin destination oCost) s =
      some (.finite x, goal)) : oCost ≠ none ∧ dCost ≠ none := by
  have hdirect : directTotal g data origin destination oCost = some (.finite x) →
      oCost ≠ none ∧ dCost ≠ none := by
    intro hx
    obtain ⟨hsame, hfinite⟩ := directTotal_finite hx
    rw [hsame, hd] at ho
    cases ho
    exact ⟨hfinite, hfinite⟩
  unfold bestFound at hbest
  match hs : s.best with
  | none =>
    rw [hs] at hbest
    cases ht : directTotal g data origin destination oCost with
    | none => simp [ht] at hbest
    | some t =>
      simp only [ht, Option.map_none, Option.map_some, Option.none_or, Option.some.injEq,
        Prod.mk.injEq] at hbest
      exact hdirect (ht.trans (congrArg some hbest.1))
  | some (total, none) =>
    rw [hs] at hbest
    simp only [Option.map_some, Option.some_or, Option.some.injEq, Prod.mk.injEq] at hbest
    have hscore := h.best_direct total hs
    rw [ofScore_finite hbest.1] at hscore
    obtain ⟨d, hd', hfinite⟩ := Option.bind_eq_some_iff.mp hscore
    exact hdirect (hd'.trans (congrArg some (finite_of_score hfinite)))
  | some (total, some n) =>
    rw [hs] at hbest
    simp only [Option.map_some, Option.some_or, Option.some.injEq, Prod.mk.injEq] at hbest
    obtain ⟨y, v, hwalk, hgoal, rfl⟩ := best_at_nodes h hs
    have hsum : y + v ≠ ⊥ := by
      rw [ofScore_finite hbest.1]
      exact WithBot.coe_ne_bot
    constructor
    · rintro rfl
      rw [(walk_none hwalk).1, WithBot.bot_add] at hsum
      exact hsum rfl
    · rintro rfl
      rw [(goals_none hgoal).1, WithBot.add_bot] at hsum
      exact hsum rfl

/-! ### Answers -/

variable [FloorRing K] {mode : String} {maxExpansions : ℤ}

omit [IsStrictOrderedRing K] in
theorem shortestPath_eq (hmode : g.profiles mode = some data)
    (ho : data.linkCost[origin.link]? = some oCost)
    (hd : data.linkCost[destination.link]? = some dCost) :
    shortestPath haversine g mode origin destination maxExpansions =
      match searchRun haversine g data origin destination oCost dCost maxExpansions with
      | none => .error .searchLimit
      | some s => pathResult g origin destination s.previous
          (bestFound (directTotal g data origin destination oCost) s) := by
  simp only [shortestPath, hmode, ho, hd]
  rfl

omit [IsStrictOrderedRing K] in
/-- Where there is an answer other than a failed lookup, both links have a cost. -/
theorem linkCosts_of_shortestPath
    (h : shortestPath haversine g mode origin destination maxExpansions ≠ .error .lookup) :
    ∃ data oCost dCost, g.profiles mode = some data ∧
      data.linkCost[origin.link]? = some oCost ∧
      data.linkCost[destination.link]? = some dCost := by
  unfold shortestPath at h
  cases hmode : g.profiles mode with
  | none => simp [hmode] at h
  | some data =>
    cases ho : data.linkCost[origin.link]? with
    | none => simp [hmode, ho] at h
    | some oCost =>
      cases hd : data.linkCost[destination.link]? with
      | none => simp [hmode, ho, hd] at h
      | some dCost => exact ⟨data, oCost, dCost, rfl, ho, hd⟩

omit [IsStrictOrderedRing K] in
theorem pathResult_duration {previous : ℕ → Option (Option ℕ × ℕ)}
    {best : Option (Duration K × Option ℕ)} {r : PathResult K}
    (h : pathResult g origin destination previous best = .ok r) :
    ∃ goal, best = some (r.durationS, goal) := by
  match best, h with
  | some (total, none), h =>
    cases h
    exact ⟨none, rfl⟩
  | some (total, some goal), h =>
    simp only [pathResult] at h
    split at h
    · cases h
    · cases h
      exact ⟨some goal, rfl⟩

/-- A finite duration is that of a route between links which the profile may use. -/
theorem usable_of_finite (hm : IsPseudoMetric haversine) (hb : Built haversine g data)
    (hmode : g.profiles mode = some data) {r : PathResult K}
    (h : shortestPath haversine g mode origin destination maxExpansions = .ok r) {x : K}
    (hx : r.durationS = .finite x) : Usable data origin ∧ Usable data destination := by
  obtain ⟨data', oCost, dCost, hmode', ho, hd⟩ := linkCosts_of_shortestPath (by rw [h]; simp)
  cases hmode.symm.trans hmode'
  rw [shortestPath_eq hmode ho hd] at h
  split at h
  · cases h
  · case _ s hrun =>
    obtain ⟨C, hexplored⟩ := searchRun_explored hm hb hrun
    obtain ⟨goal, hbest⟩ := pathResult_duration h
    rw [hx] at hbest
    obtain ⟨hoCost, hdCost⟩ := bestFound_finite ho hd hexplored hbest
    exact ⟨(usable_iff ho).mpr hoCost, (usable_iff hd).mpr hdCost⟩

/-- Between a link that the profile may use and a place on one that it may not, no path is
found. -/
theorem shortestPath_unusable (hm : IsPseudoMetric haversine) (hb : Built haversine g data)
    (hmode : g.profiles mode = some data) (ho : data.linkCost[origin.link]? = some oCost)
    (hd : data.linkCost[destination.link]? = some dCost)
    (hlinks : origin.link ≠ destination.link)
    (hcost : oCost = none ∧ 0 ≤ origin.fraction ∧ origin.fraction ≤ 1 ∨
      dCost = none ∧ 0 ≤ destination.fraction ∧ destination.fraction ≤ 1) :
    shortestPath haversine g mode origin destination maxExpansions = .error .noPath ∨
      shortestPath haversine g mode origin destination maxExpansions = .error .searchLimit := by
  rw [shortestPath_eq hmode ho hd]
  have hdirect : directTotal g data origin destination oCost = none := by
    simp [directTotal, hlinks]
  cases hrun : searchRun haversine g data origin destination oCost dCost maxExpansions with
  | none => exact Or.inr rfl
  | some s =>
    left
    obtain ⟨C, h⟩ := searchRun_explored hm hb hrun
    have hbest : s.best = none := by
      match hs : s.best with
      | none => rfl
      | some (total, none) =>
        have ht := h.best_direct total hs
        rw [hdirect] at ht
        cases ht
      | some (total, some n) =>
        obtain ⟨y, v, hwalk, hgoal, -⟩ := best_at_nodes h hs
        rcases hcost with ⟨rfl, h0, h1⟩ | ⟨rfl, h0, h1⟩
        · rcases (walk_none hwalk).2 with hneg | hneg <;> linarith
        · rcases (goals_none hgoal).2 with hneg | hneg <;> linarith
    simp [bestFound, hbest, hdirect, pathResult]

end GeoPlatform.Geo
