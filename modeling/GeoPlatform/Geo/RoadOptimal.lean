import GeoPlatform.Geo.RoadRoutes

/-! What `shortest_path` finds. The search finds the cheapest route over the nodes; the direct
route along a shared link is missed in one case, because the direction of travel between two
equal fractions is taken to be forward. -/
namespace GeoPlatform.Geo
variable {K : Type} [Field K] [LinearOrder K]

/-! ### Candidates -/

/-- The totals of the routes from the origin to the destination: along the shared link in a
permitted direction, or around over the nodes. -/
inductive Candidate (g : RoadGraph K) (data : ProfileData K) (origin destination : Snap K) :
    K → Prop
  | directForward {c : K} (hsame : origin.link = destination.link)
      (hc : data.linkCost.getD origin.link none = some c)
      (h : g.canTraverse data origin.link true = true)
      (hle : origin.fraction ≤ destination.fraction) :
      Candidate g data origin destination ((destination.fraction - origin.fraction) * c)
  | directBackward {c : K} (hsame : origin.link = destination.link)
      (hc : data.linkCost.getD origin.link none = some c)
      (h : g.canTraverse data origin.link false = true)
      (hle : destination.fraction ≤ origin.fraction) :
      Candidate g data origin destination ((origin.fraction - destination.fraction) * c)
  | around {oCost dCost total : K} (ho : data.linkCost.getD origin.link none = some oCost)
      (hd : data.linkCost.getD destination.link none = some dCost)
      (h : Around g data origin destination oCost dCost total) :
      Candidate g data origin destination total

/-- A result has the least total of all candidates; `no_path` means that there is none. -/
def Meets (candidates : K → Prop) : Except PathError (PathResult K) → Prop
  | .ok r => ∃ least, r.durationS = .finite least ∧ candidates least ∧
      ∀ total, candidates total → least ≤ total
  | .error .noPath => ∀ total, ¬ candidates total
  | .error .searchLimit => True
  | .error .lookup => False

/-- Both snaps are at one place of a link that may only be taken against its direction. -/
def AtOnePlaceOfReverseLink (g : RoadGraph K) (data : ProfileData K)
    (origin destination : Snap K) : Prop :=
  origin.link = destination.link ∧ origin.fraction = destination.fraction ∧
    data.profile.respectsOneway = true ∧ (g.link origin.link).dir = .reverse

variable {haversine : Point K → Point K → K} {g : RoadGraph K} {data : ProfileData K}
variable {origin destination : Snap K} {oCost dCost : K}

/-! ### The direct route -/

theorem canTraverse_false_iff {i : ℕ} : g.canTraverse data i true = false ↔
    data.profile.respectsOneway = true ∧ (g.link i).dir = .reverse := by
  unfold RoadGraph.canTraverse
  cases data.profile.respectsOneway <;> cases (g.link i).dir <;> simp

variable [IsStrictOrderedRing K]

theorem directCost_cases {t : K} (h : directCost g data origin destination oCost = some t) :
    origin.link = destination.link ∧
      (origin.fraction ≤ destination.fraction ∧ g.canTraverse data origin.link true = true ∧
        t = (destination.fraction - origin.fraction) * oCost ∨
      destination.fraction < origin.fraction ∧ g.canTraverse data origin.link false = true ∧
        t = (origin.fraction - destination.fraction) * oCost) := by
  simp only [directCost] at h
  split_ifs at h with hsame htraverse
  refine ⟨hsame, ?_⟩
  by_cases hle : origin.fraction ≤ destination.fraction
  · rw [abs_of_nonneg (sub_nonneg.mpr hle)] at h
    exact Or.inl ⟨hle, by simpa [hle] using htraverse, (Option.some.inj h).symm⟩
  · have hlt := not_le.mp hle
    rw [abs_of_neg (sub_neg.mpr hlt), neg_sub] at h
    exact Or.inr ⟨hlt, by simpa [hle] using htraverse, (Option.some.inj h).symm⟩

theorem directCost_candidate {t : K} (ho : data.linkCost.getD origin.link none = some oCost)
    (h : directCost g data origin destination oCost = some t) :
    Candidate g data origin destination t := by
  obtain ⟨hsame, ⟨hle, htraverse, rfl⟩ | ⟨hlt, htraverse, rfl⟩⟩ := directCost_cases h
  · exact .directForward hsame ho htraverse hle
  · exact .directBackward hsame ho htraverse hlt.le

/-- The shared link is looked at in the direction in which the route goes, save where both
snaps are at one place. -/
theorem directCost_complete (ho : data.linkCost.getD origin.link none = some oCost)
    (hplace : ¬ AtOnePlaceOfReverseLink g data origin destination) {total : K}
    (h : Candidate g data origin destination total) :
    directCost g data origin destination oCost = some total ∨
      ∃ dCost, data.linkCost.getD destination.link none = some dCost ∧
        Around g data origin destination oCost dCost total := by
  cases h with
  | directForward hsame hc h hle =>
    cases ho.symm.trans hc
    left
    simp [directCost, hsame ▸ h, hsame, hle, abs_of_nonneg (sub_nonneg.mpr hle)]
  | directBackward hsame hc h hle =>
    cases ho.symm.trans hc
    left
    rcases hle.lt_or_eq with hlt | heq
    · simp [directCost, hsame ▸ h, hsame, not_le.mpr hlt, abs_of_neg (sub_neg.mpr hlt)]
    · have hforward : g.canTraverse data origin.link true = true := by
        by_contra hn
        obtain ⟨honeway, hdir⟩ := canTraverse_false_iff.mp (Bool.eq_false_iff.mpr hn)
        exact hplace ⟨hsame, heq.symm, honeway, hdir⟩
      simp [directCost, hsame ▸ hforward, hsame, heq]
  | around ho' hd h =>
    cases ho.symm.trans ho'
    exact Or.inr ⟨_, hd, h⟩

/-- At one place of a reverse link every route around takes the whole link or more. -/
theorem around_ge (hm : IsPseudoMetric haversine) (hb : Built haversine g data)
    (ho : data.linkCost.getD origin.link none = some oCost)
    (hcost : data.linkCost.getD destination.link none = some dCost)
    (hplace : AtOnePlaceOfReverseLink g data origin destination) {total : K}
    (h : Around g data origin destination oCost dCost total) : oCost ≤ total := by
  obtain ⟨hsame, hfraction, hreverse⟩ := hplace
  have hfalse := canTraverse_false_iff.mpr hreverse
  have hsameCost : oCost = dCost := by
    rw [hsame, hcost] at ho
    exact (Option.some.inj ho).symm
  obtain ⟨n, m, a, r, b, hleaves, hroute, henters, rfl⟩ := h
  have hr := hroute.cost_nonneg hm hb
  cases hleaves with
  | forward h => simp [hfalse] at h
  | backward _ =>
    cases henters with
    | forward h => simp [← hsame, hfalse] at h
    | backward _ =>
      rw [← hfraction, ← hsameCost]
      have hsum : origin.fraction * oCost + (1 - origin.fraction) * oCost = oCost := by
        ring
      linarith

/-! ### The search -/

/-- The walk back ends: the nodes before have smaller and smaller scores. -/
theorem traceBack_isSome {P : AStar.Problem ℕ ℕ K} {starts : List (ℕ × K × ℕ)}
    {direct : Option K} {C : Finset ℕ} {s : AStar.Search ℕ ℕ K}
    (hpos : ∀ m, ∀ a ∈ P.arcs m, 0 < a.cost) (h : AStar.Explored P starts direct C s)
    (fuel : ℕ) {n : ℕ} {y : K} (hy : s.gScore n = some y) (hfuel : AStar.depth C s n < fuel) :
    ∃ r, traceBack g origin s.previous fuel n = some r := by
  induction fuel generalizing n y with
  | zero => exact absurd hfuel (Nat.not_lt_zero _)
  | succ fuel ih =>
    obtain ⟨⟨before, l⟩, hprevious, -⟩ := h.linked n y hy
    unfold traceBack
    rw [hprevious]
    cases before with
    | none => exact ⟨_, rfl⟩
    | some m =>
      obtain ⟨⟨z, hz⟩, hdepth⟩ := h.depth_previous hpos hy hprevious
      obtain ⟨r, hr⟩ := ih hz (by omega)
      exact ⟨(n :: r.1, r.2 + (g.link l).length), by simp [hr]⟩

theorem Walk.node_lt (hb : Built haversine g data)
    (ho : data.linkCost.getD origin.link none = some oCost) {n : ℕ} {c : K}
    (h : AStar.Walk (costProblem haversine g data destination dCost)
      (startCosts g data origin oCost) n c) : n < g.nodes.length := by
  obtain ⟨m, a, r, hleaves, hroute, -⟩ := (walk_iff hb.graph).mp h
  cases hroute with
  | along _ hs => exact hs.target_lt hb
  | here =>
    have hends := (pricedLink hb ho).ends_lt
    cases hleaves with
    | backward _ => exact hends.1
    | forward _ => exact hends.2

variable [FloorRing K]

/-- The total of a finished search is real, and the result carries it. -/
theorem costResult_cases (hl : LinksPositive g) (hb : Built haversine g data)
    (ho : data.linkCost.getD origin.link none = some oCost)
    (hcost : data.linkCost.getD destination.link none = some dCost) {C : Finset ℕ}
    {s : AStar.Search ℕ ℕ K}
    (h : AStar.Explored (costProblem haversine g data destination dCost)
      (startCosts g data origin oCost) (directCost g data origin destination oCost) C s) :
    (costResult g origin destination s = .error .noPath ∧ s.best = none) ∨
      ∃ r b, costResult g origin destination s = .ok r ∧ s.best = some b ∧
        r.durationS = .finite b.1 ∧
        (directCost g data origin destination oCost = some b.1 ∨
          Around g data origin destination oCost dCost b.1) := by
  unfold costResult
  match hbest : s.best with
  | none => exact Or.inl ⟨rfl, rfl⟩
  | some (total, none) => exact Or.inr ⟨_, _, rfl, rfl, rfl, Or.inl (h.best_direct total hbest)⟩
  | some (total, some goal) =>
    obtain ⟨-, y, x, hy, hx, rfl⟩ := h.best_at total goal hbest
    have hpos : ∀ m, ∀ a ∈ (costProblem haversine g data destination dCost).arcs m,
        0 < a.cost := fun m a ha => (step_of_arc hb.graph ha).cost_pos hl hb
    have hclosed : C ⊆ Finset.range g.nodes.length := by
      intro n hn
      obtain ⟨z, hz, -⟩ := h.closed n hn
      exact Finset.mem_range.mpr (Walk.node_lt hb ho (h.walk n z hz))
    have hdepth : AStar.depth C s goal < g.nodes.length + 1 := by
      have hcard := Finset.card_le_card hclosed
      rw [Finset.card_range] at hcard
      exact Nat.lt_succ_of_le ((AStar.depth_le_card C s goal).trans hcard)
    obtain ⟨r, hr⟩ : ∃ r, traceBack g origin s.previous (g.nodes.length + 1) goal = some r :=
      traceBack_isSome hpos h _ hy hdepth
    obtain ⟨m, a, c, hleaves, hroute, rfl⟩ := (walk_iff hb.graph).mp (h.walk goal y hy)
    have henters := (goalCosts_iff (pricedLink hb hcost).ends_ne).mp hx
    simp only [pathResult, Option.map_some, hr]
    exact Or.inr ⟨_, _, rfl, rfl, rfl, Or.inr ⟨m, goal, a, c, x, hleaves, hroute, henters, rfl⟩⟩

/-- Either the search stops, with the least total of the direct route and all routes around,
or more nodes would have to be expanded than it may, which are fewer than there are. -/
theorem shortestPath_cases (hm : IsPseudoMetric haversine) (hl : LinksPositive g)
    (hb : Built haversine g data) {mode : String} (hmode : g.profiles mode = some data)
    (ho : data.linkCost.getD origin.link none = some oCost)
    (hcost : data.linkCost.getD destination.link none = some dCost)
    (hd : SnapOn haversine g data destination) (maxExpansions : ℤ) :
    (∃ r least, shortestPath haversine g mode origin destination maxExpansions = .ok r ∧
      r.durationS = .finite least ∧
      (directCost g data origin destination oCost = some least ∨
        Around g data origin destination oCost dCost least) ∧
      (∀ t, directCost g data origin destination oCost = some t → least ≤ t) ∧
      ∀ t, Around g data origin destination oCost dCost t → least ≤ t) ∨
    (shortestPath haversine g mode origin destination maxExpansions = .error .noPath ∧
      directCost g data origin destination oCost = none ∧
      ∀ t, ¬ Around g data origin destination oCost dCost t) ∨
    (shortestPath haversine g mode origin destination maxExpansions = .error .searchLimit ∧
      maxExpansions < g.nodes.length) := by
  have hconsistent := costProblem_consistent hm hl hb hd hcost
  have hfirst := AStar.explored_begin (costProblem haversine g data destination dCost)
    (startCosts g data origin oCost) (directCost g data origin destination oCost)
  cases hrun : costRun haversine g data origin destination oCost dCost maxExpansions with
  | none =>
    refine Or.inr (Or.inr ⟨shortestPath_of_none hmode ho hcost hrun, ?_⟩)
    have hlt := AStar.run_none hconsistent.toArcConsistent
      (fun n c hw => Finset.mem_range.mpr (Walk.node_lt hb ho hw)) _ hfirst
      (Finset.empty_subset _) hrun
    rw [Finset.card_empty, Finset.card_range] at hlt
    omega
  | some s =>
    rw [shortestPath_of_some hmode ho hcost hrun]
    obtain ⟨C, h, hstop⟩ := AStar.run_explored hconsistent.toArcConsistent _ hfirst hrun
    have hround : ∀ t, Around g data origin destination oCost dCost t →
        ∃ b ∈ s.best, b.1 ≤ t := by
      rintro t ⟨n, m, a, r, b, hleaves, hroute, henters, rfl⟩
      exact h.best_optimal hconsistent hstop
        ((walk_iff hb.graph).mpr ⟨n, a, r, hleaves, hroute, rfl⟩)
        ((goalCosts_iff (pricedLink hb hcost).ends_ne).mpr henters)
    rcases costResult_cases hl hb ho hcost h with ⟨hr, hbest⟩ | ⟨r, b, hr, hbest, hb', hfound⟩
    · refine Or.inr (Or.inl ⟨hr, ?_, fun t ht => ?_⟩)
      · apply Option.eq_none_iff_forall_not_mem.mpr
        intro t ht
        obtain ⟨b, hb', -⟩ := h.best_le t ht
        rw [hbest] at hb'
        cases hb'
      · obtain ⟨b, hb', -⟩ := hround t ht
        rw [hbest] at hb'
        cases hb'
    · refine Or.inl ⟨r, b.1, hr, hb', hfound, fun t ht => ?_, fun t ht => ?_⟩
      · obtain ⟨b', hb'', hle⟩ := h.best_le t ht
        cases hbest.symm.trans hb''
        exact hle
      · obtain ⟨b', hb'', hle⟩ := hround t ht
        cases hbest.symm.trans hb''
        exact hle

/-! ### The contract -/

/-- Whatever the limit, `shortest_path` returns the cheapest candidate, or finds that there is
none, or stops at the limit, unless both snaps are at one place of a link that the profile may
only take against its direction. -/
theorem shortestPath_optimal_iff (hm : IsMetric haversine) (segments : List (RoadSegment K))
    (profiles : List (TravelProfile K)) {mode : String} {data : ProfileData K}
    {origin destination : Snap K}
    (hmode : (RoadGraph.build haversine segments profiles).profiles mode = some data)
    (ho : SnapOn haversine (RoadGraph.build haversine segments profiles) data origin)
    (hd : SnapOn haversine (RoadGraph.build haversine segments profiles) data destination) :
    (∀ maxExpansions,
      Meets (Candidate (RoadGraph.build haversine segments profiles) data origin destination)
        (shortestPath haversine (RoadGraph.build haversine segments profiles) mode origin
          destination maxExpansions)) ↔
      ¬ AtOnePlaceOfReverseLink (RoadGraph.build haversine segments profiles) data origin
        destination := by
  have hb := built_build hmode
  obtain ⟨oCost, hoCost⟩ := ho.usable
  obtain ⟨dCost, hdCost⟩ := hd.usable
  have hl := hm.linksPositive hb.graph
  have hcases := shortestPath_cases hm.pseudo hl hb hmode hoCost hdCost hd
  generalize RoadGraph.build haversine segments profiles = g at *
  constructor
  · intro hmeets hplace
    have hzero : Candidate g data origin destination 0 := by
      obtain ⟨hsame, hfraction, -, hdir⟩ := hplace
      have hbackward : g.canTraverse data origin.link false = true := by
        simp [RoadGraph.canTraverse, hdir]
      have h := Candidate.directBackward hsame hoCost hbackward hfraction.ge
      rwa [hfraction, sub_self, zero_mul] at h
    have hnone : directCost g data origin destination oCost = none := by
      obtain ⟨hsame, hfraction, hreverse⟩ := hplace
      have hfalse := canTraverse_false_iff.mpr hreverse
      rw [hsame] at hfalse
      simp [directCost, hsame, hfraction, hfalse]
    have hmeet := hmeets g.nodes.length
    rcases hcases g.nodes.length with ⟨r, least, hr, hleast, hfound, -⟩ | ⟨hr, -⟩ | ⟨-, hlt⟩
    · rw [hr] at hmeet
      obtain ⟨least', hleast', -, hmin⟩ := hmeet
      cases hleast.symm.trans hleast'
      have hle := hmin 0 hzero
      rcases hfound with hfound | hfound
      · rw [hnone] at hfound
        cases hfound
      · have hpos := (usableLink hl hb hoCost).cost_pos
        have hge := around_ge hm.pseudo hb hoCost hdCost hplace hfound
        exact absurd (hpos.trans_le hge) (not_lt.mpr hle)
    · rw [hr] at hmeet
      exact hmeet 0 hzero
    · exact lt_irrefl _ hlt
  · intro hplace maxExpansions
    have hcomplete : ∀ total, Candidate g data origin destination total →
        directCost g data origin destination oCost = some total ∨
          Around g data origin destination oCost dCost total := by
      intro total h
      rcases directCost_complete hoCost hplace h with h | ⟨dCost', hd', h⟩
      · exact Or.inl h
      · cases hdCost.symm.trans hd'
        exact Or.inr h
    rcases hcases maxExpansions with ⟨r, least, hr, hleast, hfound, hdirect, hround⟩ |
      ⟨hr, hdirect, hround⟩ | ⟨hr, -⟩
    · rw [hr]
      refine ⟨least, hleast, ?_, fun total h => (hcomplete total h).elim (hdirect total)
      (hround total)⟩
      rcases hfound with hfound | hfound
      · exact directCost_candidate hoCost hfound
      · exact .around hoCost hdCost hfound
    · rw [hr]
      intro total h
      rcases hcomplete total h with h | h
      · rw [hdirect] at h
        cases h
      · exact hround total h
    · rw [hr]
      trivial

/-! ### A reverse one-way street -/

/-- On the equator this is the great-circle distance, in metres to the nearest five. -/
def cityBlock (p q : Point ℚ) : ℚ := 111195 * (|p.1 - q.1| + |p.2 - q.2|)

theorem isMetric_cityBlock : IsMetric cityBlock := by
  constructor
  · intro p
    simp [cityBlock]
  · intro p q h
    have hx := abs_nonneg (p.1 - q.1)
    have hy := abs_nonneg (p.2 - q.2)
    unfold cityBlock at h
    have hx0 : |p.1 - q.1| = 0 := by linarith
    have hy0 : |p.2 - q.2| = 0 := by linarith
    exact Prod.ext (sub_eq_zero.mp (abs_eq_zero.mp hx0)) (sub_eq_zero.mp (abs_eq_zero.mp hy0))
  · intro p q
    simp only [cityBlock, abs_sub_comm]
  · intro p q r
    have hx := abs_sub_le p.1 q.1 r.1
    have hy := abs_sub_le p.2 q.2 r.2
    unfold cityBlock
    linarith

def reverseStreet : RoadSegment ℚ :=
  { coordinates := [(0, 0), (1 / 500, 0)], roadClass := some "residential"
    direction := .reverse }

def driving : TravelProfile ℚ where
  mode := "driving"
  excludedClasses := ["footway"]
  respectsOneway := true
  defaultSpeedKmh := 30
  maxSpeedKmh := 110
  classSpeedsKmh := some [("residential", 30)]
  maxSpeed_pos := by norm_num

def streetGraph : RoadGraph ℚ := RoadGraph.build cityBlock [reverseStreet] [driving]

def streetData : ProfileData ℚ := ⟨driving, linkCosts driving streetGraph.links⟩

def streetSnap (t : ℚ) : Snap ℚ := ⟨0, t, t / 500, 0, 0⟩

theorem streetGraph_profiles : streetGraph.profiles "driving" = some streetData := by
  rfl

theorem snapOn_street {t : ℚ}
    (hleft : cityBlock (streetGraph.node (streetGraph.link 0).u) (streetSnap t).point ≤
      t * (streetGraph.link 0).length)
    (hright : cityBlock (streetGraph.node (streetGraph.link 0).v) (streetSnap t).point ≤
      (1 - t) * (streetGraph.link 0).length) :
    SnapOn cityBlock streetGraph streetData (streetSnap t) := by
  have husable : (streetData.linkCost.getD 0 none).isSome = true := by
    decide +kernel
  exact ⟨Option.isSome_iff_exists.mp husable, hleft, hright⟩

/-- From the farther to the nearer end of the street. -/
theorem shortestPath_optimal_along_street :
    Meets (Candidate streetGraph streetData (streetSnap (4 / 5)) (streetSnap (1 / 5)))
      (shortestPath cityBlock streetGraph "driving" (streetSnap (4 / 5)) (streetSnap (1 / 5))
        1000) := by
  apply (shortestPath_optimal_iff isMetric_cityBlock [reverseStreet] [driving]
    streetGraph_profiles (snapOn_street (by decide +kernel) (by decide +kernel))
    (snapOn_street (by decide +kernel) (by decide +kernel))).mpr
  intro h
  exact absurd h.2.1 (by norm_num [streetSnap])

/-- From a point of the street to itself: no path is found, and staying is a candidate. -/
theorem shortestPath_misses_staying :
    ¬ ∀ haversine : Point ℚ → Point ℚ → ℚ, IsMetric haversine →
      ∀ (segments : List (RoadSegment ℚ)) (profiles : List (TravelProfile ℚ)) (mode : String)
        (data : ProfileData ℚ) (origin destination : Snap ℚ) (maxExpansions : ℤ),
      (RoadGraph.build haversine segments profiles).profiles mode = some data →
      SnapOn haversine (RoadGraph.build haversine segments profiles) data origin →
      SnapOn haversine (RoadGraph.build haversine segments profiles) data destination →
      Meets (Candidate (RoadGraph.build haversine segments profiles) data origin destination)
        (shortestPath haversine (RoadGraph.build haversine segments profiles) mode origin
          destination maxExpansions) := by
  intro h
  have hon : SnapOn cityBlock streetGraph streetData (streetSnap (2 / 5)) :=
    snapOn_street (by decide +kernel) (by decide +kernel)
  obtain ⟨c, hc⟩ := hon.usable
  have hmeets := h cityBlock isMetric_cityBlock [reverseStreet] [driving] "driving" streetData
    (streetSnap (2 / 5)) (streetSnap (2 / 5)) 1000 streetGraph_profiles hon hon
  have hresult : shortestPath cityBlock streetGraph "driving" (streetSnap (2 / 5))
      (streetSnap (2 / 5)) 1000 = .error .noPath := by
    decide +kernel
  change Meets _ (shortestPath cityBlock streetGraph "driving" _ _ _) at hmeets
  rw [hresult] at hmeets
  exact hmeets _ (.directBackward rfl hc (by decide +kernel) le_rfl)

end GeoPlatform.Geo
