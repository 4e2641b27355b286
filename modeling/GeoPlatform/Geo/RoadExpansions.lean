import GeoPlatform.Geo.Geodesy
import GeoPlatform.Geo.RoadOptimal
import GeoPlatform.Geo.RoadUnusable

/-! How many nodes `shortest_path` expands. There is no closed set: what keeps a node from being
expanded again is that the estimate drops along a link by no more than the link costs. This
holds too where a start or a goal is at minus infinity, because every estimate is finite. -/
namespace GeoPlatform.Geo
variable {K : Type} [Field K] [LinearOrder K]

/-- The nodes that `shortest_path` expands, in order. -/
def expandedNodes (haversine : Point K → Point K → K) (g : RoadGraph K) (mode : String)
    (origin destination : Snap K) (maxExpansions : ℤ) : List ℕ :=
  match g.profiles mode with
  | none => []
  | some data =>
    match data.linkCost[origin.link]?, data.linkCost[destination.link]? with
    | some oCost, some dCost =>
      let direct := directTotal g data origin destination oCost
      let problem := searchProblem haversine g data destination direct dCost
      AStar.expansions problem maxExpansions.toNat
        (AStar.Search.begin problem (direct.bind Duration.score)
          (startNodes g data origin oCost))
    | _, _ => []

variable {haversine : Point K → Point K → K} {g : RoadGraph K} {data : ProfileData K}
variable {mode : String} {origin destination : Snap K} {maxExpansions : ℤ}
variable {oCost dCost : Option K} {direct : Option (Duration K)}

section Limit
variable [FloorRing K]

theorem pathResult_ne_searchLimit (previous : ℕ → Option (Option ℕ × ℕ))
    (best : Option (Duration K × Option ℕ)) :
    pathResult g origin destination previous best ≠ .error .searchLimit := by
  unfold pathResult
  split
  · simp
  · simp
  · split <;> simp

/-- The limit is raised by a search, and only by one that was given up. -/
theorem searchLimit_run (h : shortestPath haversine g mode origin destination maxExpansions =
    .error .searchLimit) : ∃ data oCost dCost, g.profiles mode = some data ∧
      data.linkCost[origin.link]? = some oCost ∧
      searchRun haversine g data origin destination oCost dCost maxExpansions = none := by
  obtain ⟨data, oCost, dCost, hmode, ho, hd⟩ := linkCosts_of_shortestPath (by rw [h]; simp)
  refine ⟨data, oCost, dCost, hmode, ho, ?_⟩
  rw [shortestPath_eq hmode ho hd] at h
  cases hrun : searchRun haversine g data origin destination oCost dCost maxExpansions with
  | none => rfl
  | some s =>
    rw [hrun] at h
    exact absurd h (pathResult_ne_searchLimit _ _)

end Limit

variable [IsStrictOrderedRing K]

omit [IsStrictOrderedRing K] in
theorem startNodes_node {x : ℕ × WithBot K × ℕ} (h : x ∈ startNodes g data origin oCost) :
    x.1 = (g.link origin.link).u ∨ x.1 = (g.link origin.link).v := by
  unfold startNodes at h
  rcases List.mem_append.mp h with h | h
  · split_ifs at h
    · obtain ⟨score, -, rfl⟩ := List.mem_map.mp h
      exact Or.inl rfl
    · cases h
  · split_ifs at h
    · obtain ⟨score, -, rfl⟩ := List.mem_map.mp h
      exact Or.inr rfl
    · cases h

/-- The search stays among the nodes: it starts at an end of the origin link. -/
theorem walk_node_lt (hb : Built haversine g data)
    (ho : data.linkCost[origin.link]? = some oCost) {n : ℕ} {c : WithBot K}
    (h : AStar.Walk (searchProblem haversine g data destination direct dCost)
      (startNodes g data origin oCost) n c) : n < g.nodes.length := by
  induction h with
  | start hstart =>
    have hi : origin.link < g.links.length := by
      have hlt := (List.getElem?_eq_some_iff.mp ho).1
      rwa [hb.costs, linkCosts, List.length_map] at hlt
    obtain ⟨hu, hv⟩ := link_ends_lt hb.graph hi
    rcases startNodes_node hstart with hn | hn
    · exact hn.trans_lt hu
    · exact hn.trans_lt hv
  | along _ ha _ =>
    obtain ⟨arc, harc, rfl⟩ := List.mem_map.mp ha
    exact (step_of_arc hb.graph harc).target_lt hb

theorem expandedNodes_spec (hm : IsPseudoMetric haversine) (hg : g.WellFormed haversine) :
    (expandedNodes haversine g mode origin destination maxExpansions).Nodup ∧
      ∀ n ∈ expandedNodes haversine g mode origin destination maxExpansions,
        n < g.nodes.length := by
  unfold expandedNodes
  split
  · simp
  · case _ data hmode =>
    have hb : Built haversine g data := ⟨hg, hg.profiles mode data hmode⟩
    split
    · case _ oCost dCost ho hcost =>
      obtain ⟨hnodup, hwalk⟩ := AStar.expansions_spec (searchProblem_arcConsistent hm hb)
        maxExpansions.toNat (AStar.explored_begin _ (startNodes g data origin oCost)
          ((directTotal g data origin destination oCost).bind Duration.score))
      refine ⟨hnodup, fun n hn => ?_⟩
      obtain ⟨-, c, hw⟩ := hwalk n hn
      exact walk_node_lt hb ho hw
    · simp

variable [FloorRing K]

theorem searchLimit_lt (hm : IsPseudoMetric haversine) (hg : g.WellFormed haversine)
    (h : shortestPath haversine g mode origin destination maxExpansions =
      .error .searchLimit) : maxExpansions < g.nodes.length := by
  obtain ⟨data, oCost, dCost, hmode, ho, hrun⟩ := searchLimit_run h
  have hb : Built haversine g data := ⟨hg, hg.profiles mode data hmode⟩
  have hlt := AStar.run_none (searchProblem_arcConsistent hm hb)
    (fun n c hw => Finset.mem_range.mpr (walk_node_lt hb ho hw)) _
    (AStar.explored_begin ..) (Finset.empty_subset _) hrun
  rw [Finset.card_empty, Finset.card_range] at hlt
  omega

/-- No node is expanded twice, so the limit is raised only where it is below the number of
nodes. -/
theorem expandedNodes_nodup (hm : IsPseudoMetric haversine) (segments : List (RoadSegment K))
    (profiles : List (TravelProfile K)) (mode : String) (origin destination : Snap K)
    (maxExpansions : ℤ) :
    (expandedNodes haversine (RoadGraph.build haversine segments profiles) mode origin
        destination maxExpansions).Nodup ∧
      ((RoadGraph.build haversine segments profiles).nodes.length ≤ maxExpansions →
        shortestPath haversine (RoadGraph.build haversine segments profiles) mode origin
          destination maxExpansions ≠ .error .searchLimit) := by
  have hg := build_wellFormed haversine segments profiles
  refine ⟨(expandedNodes_spec hm hg).1, fun hle h => ?_⟩
  exact absurd (searchLimit_lt hm hg h) (not_lt.mpr hle)

/-- A street has two nodes. -/
theorem expandedNodes_nodup_meridian :
    (expandedNodes haversineM meridianGraph "driving" ⟨0, 1 / 3, 0, 1 / 150, 0⟩
        ⟨0, 2 / 3, 0, 1 / 120, 0⟩ 2).Nodup ∧
      shortestPath haversineM meridianGraph "driving" ⟨0, 1 / 3, 0, 1 / 150, 0⟩
        ⟨0, 2 / 3, 0, 1 / 120, 0⟩ 2 ≠ .error .searchLimit := by
  have hnodes : (meridianGraph.nodes.length : ℤ) ≤ 2 := by
    simp [meridianGraph_eq.1]
  have h := expandedNodes_nodup isPseudoMetric_haversineM [meridianStreet] [drivingOnEarth]
    "driving" ⟨0, 1 / 3, 0, 1 / 150, 0⟩ ⟨0, 2 / 3, 0, 1 / 120, 0⟩ 2
  exact ⟨h.1, h.2 hnodes⟩

/-- To a place on a footpath, which no car may enter: what can be reached is expanded. -/
example : expandedNodes cityBlock (RoadGraph.build cityBlock [reverseStreet,
      { coordinates := [(0, 0), (0, 1 / 500)], roadClass := some "footway" }] [driving])
    "driving" (streetSnap (1 / 2)) ⟨1, 1 / 2, 0, 1 / 1000, 0⟩ 1000 = [0] := by
  decide +kernel

end GeoPlatform.Geo
