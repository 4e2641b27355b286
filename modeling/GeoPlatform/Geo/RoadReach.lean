import GeoPlatform.Geo.RoadOptimal
import GeoPlatform.Geo.RoadSnap

/-! Snapped points reach each other when direction does not matter: the main component is
connected, every link of it is an arc both ways, and the search visits every node it can. -/
namespace GeoPlatform.Geo
variable {K : Type} [Field K] [LinearOrder K]

/-! ### Direction -/

section Directions
variable {haversine : Point K → Point K → K} [FloorRing K]

theorem nodeFor_links (b : Building K) (p : Point K) : (nodeFor b p).1.links = b.links := by
  unfold nodeFor
  split <;> rfl

theorem addVertex_dir (segment : RoadSegment K) (st : Building K × Option ℕ) (p : Point K) :
    ∀ l ∈ (addVertex haversine segment st p).1.links,
      l ∈ st.1.links ∨ l.dir = segment.direction := by
  have hlinks := nodeFor_links st.1 p
  unfold addVertex
  generalize nodeFor st.1 p = x at hlinks
  intro l hl
  cases hst : st.2 with
  | none =>
    simp only [hst] at hl
    exact Or.inl (hlinks ▸ hl)
  | some previous =>
    simp only [hst] at hl
    split_ifs at hl
    · rcases List.mem_append.mp hl with hl | hl
      · exact Or.inl (hlinks ▸ hl)
      · rw [List.mem_singleton.mp hl]
        exact Or.inr rfl
    · exact Or.inl (hlinks ▸ hl)

theorem addSegment_dir (b : Building K) (segment : RoadSegment K) :
    ∀ l ∈ (addSegment haversine b segment).links, l ∈ b.links ∨ l.dir = segment.direction := by
  have hfold : ∀ (ps : List (Point K)) (st : Building K × Option ℕ),
      ∀ l ∈ (ps.foldl (addVertex haversine segment) st).1.links,
        l ∈ st.1.links ∨ l.dir = segment.direction := by
    intro ps
    induction ps with
    | nil => exact fun _ _ hl => Or.inl hl
    | cons p ps ih =>
      intro st l hl
      rcases ih _ l hl with hl | hl
      · exact addVertex_dir segment st p l hl
      · exact Or.inr hl
  exact hfold _ _

/-- Every link has the direction of a segment. -/
theorem build_dir (segments : List (RoadSegment K)) (profiles : List (TravelProfile K)) :
    ∀ l ∈ (RoadGraph.build haversine segments profiles).links,
      ∃ s ∈ segments, l.dir = s.direction := by
  have hfold : ∀ l ∈ (segments.foldl (addSegment haversine) {}).links,
      ∃ s ∈ segments, l.dir = s.direction := by
    induction segments using List.reverseRecOn with
    | nil => exact fun l hl => by cases hl
    | append_singleton segments s ih =>
      intro l hl
      rw [List.foldl_append] at hl
      rcases addSegment_dir _ s l hl with hl | hl
      · obtain ⟨s', hs', hdir⟩ := ih l hl
        exact ⟨s', List.mem_append_left _ hs', hdir⟩
      · exact ⟨s, by simp, hl⟩
  exact hfold

end Directions

variable {haversine : Point K → Point K → K} {g : RoadGraph K} {data : ProfileData K}
variable {origin destination : Snap K} {oCost dCost : K}

/-- Every link may be taken both ways. -/
def Undirected (g : RoadGraph K) (data : ProfileData K) : Prop :=
  ∀ i forward, g.canTraverse data i forward = true

theorem undirected_of_dir
    (h : data.profile.respectsOneway = false ∨ ∀ l ∈ g.links, l.dir = .both) :
    Undirected g data := by
  intro i forward
  unfold RoadGraph.canTraverse
  rcases h with h | h
  · simp [h]
  · have hdir : (g.link i).dir = .both := by
      cases hl : g.links[i]? with
      | none => simp [RoadGraph.link, List.getD_eq_getElem?_getD, hl]
      | some l =>
        rw [link_eq hl]
        exact h l (List.mem_of_getElem? hl)
    simp [hdir]

/-! ### Routes through the main component -/

theorem Route.trans {n m k : ℕ} {r c : K} (h : Route g data n m r) (h' : Route g data m k c) :
    Route g data n k (r + c) := by
  induction h' with
  | here => simpa using h
  | along _ hs ih =>
    rw [← add_assoc]
    exact ih.along hs

theorem Step.route {n m : ℕ} {c : K} (h : Step g data n m c) : Route g data n m (0 + c) :=
  (Route.here n).along h

theorem allowed_step [IsStrictOrderedRing K] (hb : Built haversine g data)
    (hfree : Undirected g data) {n m : ℕ} (h : (n, m) ∈ allowedEnds g data) :
    ∃ c, Step g data n m c ∧ Step g data m n c := by
  obtain ⟨l, hl, heq⟩ := List.mem_map.mp h
  cases heq
  obtain ⟨hmem, hallowed⟩ := List.mem_filter.mp hl
  obtain ⟨i, hi⟩ := List.mem_iff_getElem?.mp hmem
  have hlt := (List.getElem?_eq_some_iff.mp hi).1
  obtain ⟨c, hc⟩ : ∃ c, data.linkCost.getD i none = some c := by
    rw [hb.costs, linkCosts, List.getD_eq_getElem?_getD, List.getElem?_map, hi]
    simp [hallowed]
  have hforward := Step.forward hlt hc (hfree i true)
  have hbackward := Step.backward hlt hc (hfree i false)
  rw [link_eq hi] at hforward hbackward
  exact ⟨c, hforward, hbackward⟩

/-- Connected nodes have routes both ways. -/
theorem connected_route [IsStrictOrderedRing K] (hb : Built haversine g data)
    (hfree : Undirected g data) {n m : ℕ}
    (h : UnionFind.Connected (allowedEnds g data) n m) :
    (∃ r, Route g data n m r) ∧ ∃ r, Route g data m n r := by
  induction h with
  | rel n m hnm =>
    obtain ⟨c, hto, hfrom⟩ := allowed_step hb hfree hnm
    exact ⟨⟨_, hto.route⟩, _, hfrom.route⟩
  | refl n => exact ⟨⟨0, .here n⟩, 0, .here n⟩
  | symm _ _ _ ih => exact ih.symm
  | trans _ _ _ _ _ ih ih' =>
    obtain ⟨⟨r, hr⟩, c, hc⟩ := ih
    obtain ⟨⟨r', hr'⟩, c', hc'⟩ := ih'
    exact ⟨⟨_, hr.trans hr'⟩, _, hc'.trans hc⟩

/-! ### The search -/

theorem goalCosts_isSome (hfree : Undirected g data) (destination : Snap K) (dCost : K) :
    goalCosts g data destination dCost (g.link destination.link).u ≠ none := by
  unfold goalCosts
  simp only [hfree destination.link true, hfree destination.link false, if_true]
  by_cases hne : (g.link destination.link).u = (g.link destination.link).v
  · rw [hne, Function.update_self]
    exact Option.some_ne_none _
  · rw [Function.update_of_ne hne, Function.update_self]
    exact Option.some_ne_none _

/-- A search from one node of the main component to another ends with a total. -/
theorem search_finds (hg : g.WellFormed haversine) (hfree : Undirected g data)
    {r : K} (hroute : Route g data (g.link origin.link).u (g.link destination.link).u r)
    {direct : Option K} {k : ℕ} {s : AStar.Search ℕ ℕ K}
    (hrun : AStar.run (costProblem haversine g data destination dCost) k
      (AStar.Search.begin (costProblem haversine g data destination dCost) direct
        (startCosts g data origin oCost)) = some s) : s.best ≠ none := by
  intro hbest
  have hwalk : AStar.Walk (costProblem haversine g data destination dCost)
      (startCosts g data origin oCost) (g.link destination.link).u
      (origin.fraction * oCost + r) :=
    (walk_iff hg).mpr ⟨_, _, r, .backward (hfree origin.link false), hroute, rfl⟩
  exact goalCosts_isSome hfree destination dCost (AStar.run_exhausted hrun hbest hwalk)

variable [FloorRing K]

theorem costResult_noPath {s : AStar.Search ℕ ℕ K}
    (h : costResult g origin destination s = .error .noPath) : s.best = none := by
  unfold costResult at h
  match hbest : s.best with
  | none => rfl
  | some (total, none) =>
    rw [hbest] at h
    cases h
  | some (total, some goal) =>
    simp only [hbest, Option.map_some, pathResult] at h
    split at h <;> cases h

/-- Between two snaps of a profile that may take every link both ways, `shortest_path` never
fails for want of a path. -/
theorem shortestPath_of_snaps [IsStrictOrderedRing K] (haversine : Point K → Point K → K)
    (cosDeg : K → K) (segments : List (RoadSegment K)) (profiles : List (TravelProfile K))
    (cell : K) (mode : String) {data : ProfileData K}
    (hmode : (RoadGraph.build haversine segments profiles).profiles mode = some data)
    (hfree : data.profile.respectsOneway = false ∨ ∀ s ∈ segments, s.direction = .both)
    {p q : Point K} {pMax qMax : K} {origin destination : Snap K}
    (ho : snap haversine cosDeg (RoadGraph.build haversine segments profiles) cell mode p pMax =
      .ok (some origin))
    (hd : snap haversine cosDeg (RoadGraph.build haversine segments profiles) cell mode q qMax =
      .ok (some destination))
    (maxExpansions : ℤ) :
    shortestPath haversine (RoadGraph.build haversine segments profiles) mode origin destination
      maxExpansions ≠ .error .noPath := by
  have hb := built_build hmode
  have hundirected : Undirected (RoadGraph.build haversine segments profiles) data := by
    apply undirected_of_dir
    refine hfree.imp_right fun hboth l hl => ?_
    obtain ⟨s, hs, hdir⟩ := build_dir segments profiles l hl
    rw [hdir, hboth s hs]
  have hoSnap := snap_snappable hmode ho
  have hdSnap := snap_snappable hmode hd
  simp only [RoadGraph.snappable, Bool.and_eq_true] at hoSnap hdSnap
  obtain ⟨⟨r, hroute⟩, -⟩ := connected_route hb hundirected
    (inMainComponent_connected hb.graph hoSnap.2 hdSnap.2)
  obtain ⟨oCost, hoCost⟩ := Option.isSome_iff_exists.mp hoSnap.1
  obtain ⟨dCost, hdCost⟩ := Option.isSome_iff_exists.mp hdSnap.1
  intro h
  cases hrun : costRun haversine (RoadGraph.build haversine segments profiles) data origin
      destination oCost dCost maxExpansions with
  | none =>
    rw [shortestPath_of_none hmode hoCost hdCost hrun] at h
    cases h
  | some s =>
    rw [shortestPath_of_some hmode hoCost hdCost hrun] at h
    exact search_finds hb.graph hundirected hroute hrun (costResult_noPath h)

def walking : TravelProfile ℚ where
  mode := "walking"
  excludedClasses := ["motorway"]
  respectsOneway := false
  defaultSpeedKmh := 5
  maxSpeedKmh := 5
  maxSpeed_pos := by norm_num

/-- Goes on along the equator where `reverseStreet` ends. -/
def equatorStreet : RoadSegment ℚ :=
  { coordinates := [(1 / 500, 0), (1 / 250, 0)], direction := .forward }

def equatorGraph : RoadGraph ℚ :=
  RoadGraph.build cityBlock [reverseStreet, equatorStreet] [walking]

/-- From the middle of one one-way street to the middle of the next, on foot. -/
theorem shortestPath_of_snaps_equator :
    shortestPath cityBlock equatorGraph "walking" ⟨0, 1 / 2, 1 / 1000, 0, 0⟩
      ⟨1, 1 / 2, 3 / 1000, 0, 0⟩ 1000 ≠ .error .noPath := by
  have ho : snap cityBlock (fun _ => 1) equatorGraph (1 / 200) "walking" (1 / 1000, 0) 50 =
      .ok (some ⟨0, 1 / 2, 1 / 1000, 0, 0⟩) := by decide +kernel
  have hd : snap cityBlock (fun _ => 1) equatorGraph (1 / 200) "walking" (3 / 1000, 0) 50 =
      .ok (some ⟨1, 1 / 2, 3 / 1000, 0, 0⟩) := by decide +kernel
  exact shortestPath_of_snaps cityBlock (fun _ => 1) [reverseStreet, equatorStreet] [walking]
    (1 / 200) "walking" rfl (Or.inl rfl) ho hd 1000

end GeoPlatform.Geo
