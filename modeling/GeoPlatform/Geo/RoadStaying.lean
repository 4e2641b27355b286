import GeoPlatform.Geo.Geodesy
import GeoPlatform.Geo.RoadReach

/-! `shortest_path` from a point to itself. Two equal fractions count as a forward move, so the
empty route is found just where the link may be taken forward. -/
namespace GeoPlatform.Geo
variable {K : Type} [Field K] [LinearOrder K] [FloorRing K]

/-- The empty route. -/
def Stays : Except PathError (PathResult K) → Prop
  | .ok r => r.distanceM = 0 ∧ r.durationS = .finite 0
  | .error _ => False

variable {haversine : Point K → Point K → K} {g : RoadGraph K} {data : ProfileData K}
variable {mode : String} {s : Snap K} {cost : K}

/-! ### The direct route -/

variable [IsStrictOrderedRing K]

omit [FloorRing K] in
theorem directCost_self : directCost g data s s cost =
    if g.canTraverse data s.link true = true then some 0 else none := by
  simp [directCost]

/-- Without an expansion nothing is found but the direct route. -/
theorem not_stays_zero (hmode : g.profiles mode = some data)
    (hcost : data.linkCost.getD s.link none = some cost)
    (hforward : g.canTraverse data s.link true = false) :
    ¬ Stays (shortestPath haversine g mode s s 0) := by
  have hbest : (AStar.Search.begin (costProblem haversine g data s cost)
      (directCost g data s s cost) (startCosts g data s cost)).best = none := by
    rw [AStar.begin_best, directCost_self, hforward]
    rfl
  have hrun : costRun haversine g data s s cost cost 0 = none ∨
      costRun haversine g data s s cost cost 0 = some _ := AStar.run_zero _ _
  rcases hrun with hrun | hrun
  · rw [shortestPath_of_none hmode hcost hcost hrun]
    exact id
  · rw [shortestPath_of_some hmode hcost hcost hrun]
    simp [costResult, pathResult, hbest, Stays]

omit [FloorRing K] in
theorem startCosts_nonneg (hcost : 0 ≤ cost) (h0 : 0 ≤ s.fraction) (h1 : s.fraction ≤ 1) :
    ∀ x ∈ startCosts g data s cost, 0 ≤ x.2.1 := by
  intro x hx
  rcases List.mem_append.mp hx with hx | hx
  · split_ifs at hx
    · rw [List.mem_singleton.mp hx]
      exact mul_nonneg h0 hcost
    · cases hx
  · split_ifs at hx
    · rw [List.mem_singleton.mp hx]
      exact mul_nonneg (sub_nonneg.mpr h1) hcost
    · cases hx

/-- No entry can beat a total of nothing. -/
theorem stays_of_forward (hm : IsPseudoMetric haversine) (hb : Built haversine g data)
    (hmode : g.profiles mode = some data)
    (hcost : data.linkCost.getD s.link none = some cost) (h0 : 0 ≤ s.fraction)
    (h1 : s.fraction ≤ 1) (hforward : g.canTraverse data s.link true = true)
    (maxExpansions : ℤ) : Stays (shortestPath haversine g mode s s maxExpansions) := by
  have hlink := pricedLink hb hcost
  have hnonneg := hlink.cost_nonneg (hlink.length_nonneg hm.nonneg)
  have hinv : 0 < 1 / data.maxSpeedMps := one_div_pos.mpr (maxSpeedMps_pos data)
  generalize hbegin : AStar.Search.begin (costProblem haversine g data s cost)
    (directCost g data s s cost) (startCosts g data s cost) = first
  have hbest : first.best = some (0, none) := by
    rw [← hbegin, AStar.begin_best, directCost_self, hforward]
    rfl
  have hheap : ∀ e ∈ first.heap, 0 ≤ e.f := by
    intro e he
    rw [← hbegin] at he
    obtain ⟨x, hx, hf⟩ := AStar.begin_heap _ _ _ e he
    rw [hf]
    exact add_nonneg (startCosts_nonneg hnonneg h0 h1 x hx)
      (mul_nonneg (hm.nonneg _ _) hinv.le)
  have hrun : costRun haversine g data s s cost cost maxExpansions = some first := by
    unfold costRun
    rw [hbegin]
    exact AStar.run_of_best_le _ hbest hheap _
  rw [shortestPath_of_some hmode hcost hcost hrun]
  simp [costResult, pathResult, hbest, Stays]

/-! ### The search -/

/-- A duration of nothing is that of the direct route, or of a route around a link of no
length. -/
theorem forward_of_stays (hm : IsPseudoMetric haversine) (hb : Built haversine g data)
    (hmode : g.profiles mode = some data)
    (hcost : data.linkCost.getD s.link none = some cost) (hlength : 0 < (g.link s.link).length)
    {maxExpansions : ℤ} (h : Stays (shortestPath haversine g mode s s maxExpansions)) :
    g.canTraverse data s.link true = true := by
  by_contra hn
  have hforward := Bool.eq_false_iff.mpr hn
  have hlink := pricedLink hb hcost
  have hplace : AtOnePlaceOfReverseLink g data s s :=
    ⟨rfl, rfl, canTraverse_false_iff.mp hforward⟩
  cases hrun : costRun haversine g data s s cost cost maxExpansions with
  | none =>
    rw [shortestPath_of_none hmode hcost hcost hrun] at h
    exact h
  | some t =>
    rw [shortestPath_of_some hmode hcost hcost hrun] at h
    obtain ⟨C, hexplored, -⟩ := AStar.run_explored (costProblem_arcConsistent hm hb) _
      (AStar.explored_begin ..) hrun
    unfold costResult at h
    match hbest : t.best with
    | none =>
      rw [hbest] at h
      exact h
    | some (total, none) =>
      have hdirect := hexplored.best_direct total hbest
      rw [directCost_self, hforward] at hdirect
      cases hdirect
    | some (total, some goal) =>
      simp only [hbest, Option.map_some, pathResult] at h
      obtain ⟨-, y, x, hy, hx, rfl⟩ := hexplored.best_at total goal hbest
      obtain ⟨m, a, r, hleaves, hroute, rfl⟩ := (walk_iff hb.graph).mp (hexplored.walk goal y hy)
      have haround : Around g data s s cost cost (a + r + x) :=
        ⟨m, goal, a, r, x, hleaves, hroute, (goalCosts_iff hlink.ends_ne).mp hx, rfl⟩
      have hge := around_ge hm hb hcost hcost hplace haround
      have hpos := hlink.cost_pos hlength
      split at h
      · exact h
      · exact absurd (Duration.finite.inj h.2) (hpos.trans_le hge).ne'

/-- From a point of a usable link to itself `shortest_path` finds the empty route if and only
if the profile may take the link forward. Along a link of positive length this does not depend
on the limit. -/
theorem shortestPath_self_iff (hm : IsPseudoMetric haversine) (segments : List (RoadSegment K))
    (profiles : List (TravelProfile K)) {mode : String} {data : ProfileData K} {s : Snap K}
    (hmode : (RoadGraph.build haversine segments profiles).profiles mode = some data)
    (husable : ∃ cost, data.linkCost.getD s.link none = some cost) (h0 : 0 ≤ s.fraction)
    (h1 : s.fraction ≤ 1) :
    ((∀ maxExpansions,
      Stays (shortestPath haversine (RoadGraph.build haversine segments profiles) mode s s
        maxExpansions)) ↔
      (RoadGraph.build haversine segments profiles).canTraverse data s.link true = true) ∧
    (0 < ((RoadGraph.build haversine segments profiles).link s.link).length →
      ∀ maxExpansions,
        (Stays (shortestPath haversine (RoadGraph.build haversine segments profiles) mode s s
          maxExpansions) ↔
        (RoadGraph.build haversine segments profiles).canTraverse data s.link true = true)) := by
  have hb := built_build hmode
  obtain ⟨cost, hcost⟩ := husable
  generalize RoadGraph.build haversine segments profiles = g at *
  have hstays := stays_of_forward hm hb hmode hcost h0 h1
  constructor
  · constructor
    · intro h
      by_contra hn
      exact not_stays_zero hmode hcost (Bool.eq_false_iff.mpr hn) (h 0)
    · exact hstays
  · intro hlength maxExpansions
    exact ⟨forward_of_stays hm hb hmode hcost hlength, fun h => hstays h maxExpansions⟩

/-- On the meridian, in a one-way street that is taken forward. -/
theorem shortestPath_self_meridian :
    Stays (shortestPath haversineM meridianGraph "driving" ⟨0, 1 / 3, 0, 1 / 150, 0⟩
      ⟨0, 1 / 3, 0, 1 / 150, 0⟩ 0) ∧
    Stays (shortestPath haversineM meridianGraph "driving" ⟨0, 1 / 3, 0, 1 / 150, 0⟩
      ⟨0, 1 / 3, 0, 1 / 150, 0⟩ 1000) := by
  have hmode : meridianGraph.profiles "driving" =
      some ⟨drivingOnEarth, linkCosts drivingOnEarth meridianGraph.links⟩ := rfl
  have husable : ∃ cost,
      (linkCosts drivingOnEarth meridianGraph.links).getD 0 none = some cost := by
    simp [meridianGraph_eq.2, linkCosts, TravelProfile.allowsClass]
  have hlink : meridianGraph.link 0 =
      ⟨0, 1, haversineM southEnd northEnd, .forward, none, none⟩ := by
    simp [RoadGraph.link, meridianGraph_eq.2]
  have hlength : 0 < (meridianGraph.link 0).length := hlink ▸ haversineM_street
  have hforward : meridianGraph.canTraverse
      ⟨drivingOnEarth, linkCosts drivingOnEarth meridianGraph.links⟩ 0 true = true := by
    simp [RoadGraph.canTraverse, hlink]
  obtain ⟨hany, hlimit⟩ := shortestPath_self_iff (s := ⟨0, 1 / 3, 0, 1 / 150, 0⟩)
    isPseudoMetric_haversineM [meridianStreet] [drivingOnEarth] hmode husable (by norm_num)
    (by norm_num)
  exact ⟨hany.mpr hforward 0, (hlimit hlength 1000).mpr hforward⟩

/-- In the middle of a street that is only taken backward no path is found. -/
theorem shortestPath_self_reverse :
    ¬ ∀ haversine : Point ℚ → Point ℚ → ℚ, IsPseudoMetric haversine →
      ∀ (segments : List (RoadSegment ℚ)) (profiles : List (TravelProfile ℚ)) (mode : String)
        (data : ProfileData ℚ) (s : Snap ℚ) (maxExpansions : ℤ),
      (RoadGraph.build haversine segments profiles).profiles mode = some data →
      (∃ cost, data.linkCost.getD s.link none = some cost) →
      0 ≤ s.fraction → s.fraction ≤ 1 →
      Stays (shortestPath haversine (RoadGraph.build haversine segments profiles) mode s s
        maxExpansions) := by
  intro h
  have husable : (streetData.linkCost.getD 0 none).isSome = true := by
    decide +kernel
  have hstays := h cityBlock isMetric_cityBlock.pseudo [reverseStreet] [driving] "driving"
    streetData (streetSnap (2 / 5)) 1000 streetGraph_profiles
    (Option.isSome_iff_exists.mp husable) (by norm_num [streetSnap]) (by norm_num [streetSnap])
  have hresult : shortestPath cityBlock streetGraph "driving" (streetSnap (2 / 5))
      (streetSnap (2 / 5)) 1000 = .error .noPath := by
    decide +kernel
  change Stays (shortestPath cityBlock streetGraph "driving" _ _ _) at hstays
  rw [hresult] at hstays
  exact hstays

end GeoPlatform.Geo
