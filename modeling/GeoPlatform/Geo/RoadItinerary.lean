import GeoPlatform.Geo.RoadOptimal
import GeoPlatform.Geo.RoadUnusable
import Mathlib.Data.List.Destutter

/-! What a result of `shortest_path` describes. Cost, length and geometry are rebuilt separately
after the search, and all three are those of one legal route. -/
namespace GeoPlatform.Geo
variable {K : Type} [Field K] [LinearOrder K]

/-! ### Itineraries -/

/-- A link taken whole, and whether it is taken forward. -/
abbrev Traversal := ℕ × Bool

def RoadGraph.tail (g : RoadGraph K) (t : Traversal) : ℕ :=
  if t.2 then (g.link t.1).u else (g.link t.1).v

def RoadGraph.head (g : RoadGraph K) (t : Traversal) : ℕ :=
  if t.2 then (g.link t.1).v else (g.link t.1).u

/-- The traversals lead from one node to the other, each on from where the last one ended. -/
def RoadGraph.Connects (g : RoadGraph K) : ℕ → List Traversal → ℕ → Prop
  | n, [], m => n = m
  | n, t :: ts, m => g.tail t = n ∧ g.Connects (g.head t) ts m

/-- The profile may take the link, and take it this way. -/
def MayTake (g : RoadGraph K) (data : ProfileData K) (t : Traversal) : Prop :=
  (∃ c, data.linkCost.getD t.1 none = some c) ∧ g.canTraverse data t.1 t.2 = true

/-- A way from one snap to another: along the link both are on, or off the origin link, over
whole links, and onto the destination link. A flag says whether a link is taken forward. -/
inductive Itinerary where
  | direct (forward : Bool)
  | around (leave : Bool) (steps : List Traversal) (enter : Bool)

section Itineraries
variable (g : RoadGraph K) (data : ProfileData K) (origin destination : Snap K)

/-- The node at which an itinerary leaves the origin link. -/
def leavesAt (leave : Bool) : ℕ := g.head (origin.link, leave)

/-- The node at which an itinerary comes onto the destination link. -/
def entersAt (enter : Bool) : ℕ := g.tail (destination.link, enter)

def Itinerary.Legal : Itinerary → Prop
  | .direct forward => origin.link = destination.link ∧ MayTake g data (origin.link, forward) ∧
      if forward then origin.fraction ≤ destination.fraction
      else destination.fraction ≤ origin.fraction
  | .around leave steps enter => MayTake g data (origin.link, leave) ∧
      (∀ t ∈ steps, MayTake g data t) ∧ MayTake g data (destination.link, enter) ∧
      g.Connects (leavesAt g origin leave) steps (entersAt g destination enter)

/-- The sum over the links of an itinerary, partial links counted in part. -/
def Itinerary.measure (w : ℕ → K) : Itinerary → K
  | .direct forward => (if forward then destination.fraction - origin.fraction
      else origin.fraction - destination.fraction) * w origin.link
  | .around leave steps enter =>
      (if leave then 1 - origin.fraction else origin.fraction) * w origin.link +
        (steps.map fun t => w t.1).sum +
        (if enter then destination.fraction else 1 - destination.fraction) * w destination.link

/-- The snapped origin, the nodes passed in order, and the snapped destination. -/
def Itinerary.points : Itinerary → List (Point K)
  | .direct _ => [origin.point, destination.point]
  | .around leave steps _ => origin.point ::
      ((leavesAt g origin leave :: steps.map g.head).map g.node) ++ [destination.point]

end Itineraries

/-- The cost of a link the profile may use. -/
def ProfileData.cost (data : ProfileData K) (i : ℕ) : K := (data.linkCost.getD i none).getD 0

def RoadGraph.length (g : RoadGraph K) (i : ℕ) : K := (g.link i).length

variable {haversine : Point K → Point K → K} {g : RoadGraph K} {data : ProfileData K}
variable {origin destination : Snap K} {oCost dCost : K}

theorem cost_of_some {i : ℕ} {c : K} (h : data.linkCost.getD i none = some c) :
    data.cost i = c := by
  rw [ProfileData.cost, h]
  rfl

theorem connects_append {n m : ℕ} {ts : List Traversal} {t : Traversal}
    (h : g.Connects n ts m) (ht : g.tail t = m) : g.Connects n (ts ++ [t]) (g.head t) := by
  induction ts generalizing n with
  | nil =>
    obtain rfl : n = m := h
    exact ⟨ht, rfl⟩
  | cons t' ts ih => exact ⟨h.1, ih h.2⟩

/-! ### Reading the predecessor map -/

/-- An arc of the search is a traversal of the link that labels it. -/
theorem traversal_of_arc (hg : g.WellFormed haversine) {n : ℕ} {a : AStar.Arc ℕ ℕ K}
    (h : a ∈ g.arcsFrom data n) : ∃ forward, data.linkCost.getD a.label none = some a.cost ∧
      g.canTraverse data a.label forward = true ∧ g.tail (a.label, forward) = n ∧
        g.head (a.label, forward) = a.target := by
  obtain ⟨⟨i, forward⟩, hslot, harc⟩ := List.mem_filterMap.mp h
  obtain ⟨-, hn⟩ := (mem_row hg).mp hslot
  obtain ⟨c, hc, htraverse, rfl⟩ := arcOf_some harc
  exact ⟨forward, hc, htraverse, hn.symm, rfl⟩

theorem mem_startCosts {n l : ℕ} {c : K} (h : (n, c, l) ∈ startCosts g data origin oCost) :
    ∃ leave, g.canTraverse data origin.link leave = true ∧ n = leavesAt g origin leave ∧
      c = (if leave then 1 - origin.fraction else origin.fraction) * oCost := by
  rcases List.mem_append.mp h with hmem | hmem
  · split_ifs at hmem with htraverse
    · cases List.mem_singleton.mp hmem
      exact ⟨false, htraverse, rfl, rfl⟩
    · cases hmem
  · split_ifs at hmem with htraverse
    · cases List.mem_singleton.mp hmem
      exact ⟨true, htraverse, rfl, rfl⟩
    · cases hmem

/-- The score of a node is the cost of the way that the predecessors give, and walking back over
them collects that way's nodes and lengths. -/
theorem traceBack_spec (hg : g.WellFormed haversine)
    (hends : (g.link origin.link).u ≠ (g.link origin.link).v)
    {direct : Option K} {C : Finset ℕ} {s : AStar.Search ℕ ℕ K}
    (h : AStar.Explored (costProblem haversine g data destination dCost)
      (startCosts g data origin oCost) direct C s)
    (fuel : ℕ) {n : ℕ} {y : K} (hy : s.gScore n = some y) {nodes : List ℕ} {distance : K}
    (htrace : traceBack g origin s.previous fuel n = some (nodes, distance)) :
    ∃ leave steps, g.canTraverse data origin.link leave = true ∧
      (∀ t ∈ steps, MayTake g data t) ∧ g.Connects (leavesAt g origin leave) steps n ∧
      nodes.reverse = leavesAt g origin leave :: steps.map g.head ∧
      y = (if leave then 1 - origin.fraction else origin.fraction) * oCost +
        (steps.map fun t => data.cost t.1).sum ∧
      distance = (if leave then 1 - origin.fraction else origin.fraction) * g.length origin.link +
        (steps.map fun t => g.length t.1).sum := by
  induction fuel generalizing n y nodes distance with
  | zero => cases htrace
  | succ fuel ih =>
    obtain ⟨⟨before, l⟩, hprevious, hlink⟩ := h.linked n y hy
    unfold traceBack at htrace
    rw [hprevious] at htrace
    cases before with
    | none =>
      obtain ⟨leave, htraverse, rfl, rfl⟩ := mem_startCosts hlink
      cases htrace
      refine ⟨leave, [], htraverse, by simp, rfl, rfl, by simp, ?_⟩
      cases leave with
      | false => simp [leavesAt, RoadGraph.head, RoadGraph.length]
      | true => simp [leavesAt, RoadGraph.head, RoadGraph.length, hends.symm]
    | some m =>
      obtain ⟨-, z, hz, a, ha, rfl, rfl, rfl⟩ := hlink
      obtain ⟨forward, hcost, htraverse, htail, hhead⟩ := traversal_of_arc hg ha
      simp only [Option.map_eq_some_iff] at htrace
      obtain ⟨⟨nodes', distance'⟩, htrace', heq⟩ := htrace
      cases heq
      obtain ⟨leave, steps, hleave, hsteps, hconnects, hnodes, hscore, hdistance⟩ := ih hz htrace'
      refine ⟨leave, steps ++ [(a.label, forward)], hleave, fun t ht => ?_, ?_, ?_, ?_, ?_⟩
      · rcases List.mem_append.mp ht with ht | ht
        · exact hsteps t ht
        · rw [List.mem_singleton.mp ht]
          exact ⟨⟨_, hcost⟩, htraverse⟩
      · exact hhead ▸ connects_append hconnects htail
      · rw [List.reverse_cons, hnodes, List.map_append, List.cons_append]
        simp only [List.map_cons, List.map_nil, hhead]
      · rw [hscore, List.map_append, List.sum_append]
        simp only [List.map_cons, List.map_nil, List.sum_cons, List.sum_nil, add_zero,
          cost_of_some hcost]
        ring
      · rw [hdistance, List.map_append, List.sum_append]
        simp only [List.map_cons, List.map_nil, List.sum_cons, List.sum_nil, add_zero,
          RoadGraph.length]
        ring

/-! ### The line drawn -/

section Line
variable [FloorRing K]

def roundPoint (p : Point K) : Point K := (roundCoordinate p.1, roundCoordinate p.2)

/-- A line has two positions or more: a single one is doubled. -/
def atLeastTwo (ps : List (Point K)) : List (Point K) :=
  if ps.length = 1 then ps ++ ps else ps

omit [Field K] [FloorRing K] in
/-- Appending what differs from the last element is dropping consecutive repeats. -/
theorem foldl_dedupe (ps result : List (Point K)) (a : Point K)
    (hlast : result.getLast? = some a) :
    ps.foldl (fun result p => if result.getLast? = some p then result else result ++ [p]) result =
      result.dropLast ++ List.destutter' (· ≠ ·) a ps := by
  induction ps generalizing result a with
  | nil =>
    obtain ⟨init, rfl⟩ := List.getLast?_eq_some_iff.mp hlast
    simp
  | cons p ps ih =>
    obtain ⟨init, rfl⟩ := List.getLast?_eq_some_iff.mp hlast
    simp only [List.foldl_cons, hlast, Option.some.injEq, List.dropLast_concat]
    by_cases hp : a = p
    · subst hp
      rw [if_pos rfl, ih _ a hlast, List.destutter'_cons_neg _ (by simp), List.dropLast_concat]
    · rw [if_neg hp, ih _ p (by simp), List.destutter'_cons_pos _ hp, List.dropLast_concat]
      simp

theorem dedupe_eq (points : List (Point K)) :
    dedupe points = atLeastTwo ((points.map roundPoint).destutter (· ≠ ·)) := by
  have hfold : points.foldl (fun result p =>
      let point := (roundCoordinate p.1, roundCoordinate p.2)
      if result.getLast? = some point then result else result ++ [point]) [] =
        (points.map roundPoint).destutter (· ≠ ·) := by
    cases points with
    | nil => rfl
    | cons p ps =>
      have h := foldl_dedupe (ps.map roundPoint) [roundPoint p] (roundPoint p) rfl
      rw [List.foldl_map] at h
      exact h
  unfold dedupe atLeastTwo
  rw [hfold]
  dsimp only
  split_ifs with hone
  · rw [List.take_of_length_le hone.le]
  · rfl

theorem two_le_length_dedupe {points : List (Point K)} (h : points ≠ []) :
    2 ≤ (dedupe points).length := by
  rw [dedupe_eq]
  have hne : (points.map roundPoint).destutter (· ≠ ·) ≠ [] := by
    rw [Ne, List.destutter_eq_nil]
    simpa using h
  have hpos := List.length_pos_of_ne_nil hne
  unfold atLeastTwo
  split_ifs with hone
  · rw [List.length_append]
    omega
  · omega

end Line

/-! ### The result -/

theorem directCost_itinerary (ho : data.linkCost.getD origin.link none = some oCost) {t : K}
    (h : directCost g data origin destination oCost = some t) [IsStrictOrderedRing K] :
    ∃ forward, (Itinerary.direct forward).Legal g data origin destination ∧
      t = (Itinerary.direct forward).measure origin destination data.cost ∧
      |destination.fraction - origin.fraction| * g.length origin.link =
        (Itinerary.direct forward).measure origin destination g.length := by
  simp only [directCost] at h
  split_ifs at h with hsame htraverse
  cases h
  by_cases hle : origin.fraction ≤ destination.fraction
  · rw [decide_eq_true hle] at htraverse
    refine ⟨true, ⟨hsame, ⟨⟨_, ho⟩, htraverse⟩, hle⟩, ?_, ?_⟩
    · rw [Itinerary.measure, cost_of_some ho, abs_of_nonneg (sub_nonneg.mpr hle)]
      rfl
    · rw [Itinerary.measure, abs_of_nonneg (sub_nonneg.mpr hle)]
      rfl
  · have hlt := not_le.mp hle
    rw [decide_eq_false hle] at htraverse
    refine ⟨false, ⟨hsame, ⟨⟨_, ho⟩, htraverse⟩, hlt.le⟩, ?_, ?_⟩
    · rw [Itinerary.measure, cost_of_some ho, abs_of_neg (sub_neg.mpr hlt), neg_sub]
      rfl
    · rw [Itinerary.measure, abs_of_neg (sub_neg.mpr hlt), neg_sub]
      rfl

variable [FloorRing K] [IsStrictOrderedRing K]

/-- A result describes the itinerary `t`: how long it takes, how long it is, and its line. -/
structure Describes (g : RoadGraph K) (data : ProfileData K) (origin destination : Snap K)
    (r : PathResult K) (t : Itinerary) : Prop where
  legal : t.Legal g data origin destination
  duration : r.durationS = .finite (t.measure origin destination data.cost)
  distance : r.distanceM = t.measure origin destination g.length
  line : r.coordinates =
    atLeastTwo (((t.points g origin destination).map roundPoint).destutter (· ≠ ·))
  positions : 2 ≤ r.coordinates.length

theorem costResult_describes (hb : Built haversine g data)
    (ho : data.linkCost.getD origin.link none = some oCost)
    (hcost : data.linkCost.getD destination.link none = some dCost) {C : Finset ℕ}
    {s : AStar.Search ℕ ℕ K}
    (h : AStar.Explored (costProblem haversine g data destination dCost)
      (startCosts g data origin oCost) (directCost g data origin destination oCost) C s)
    {r : PathResult K} (hr : costResult g origin destination s = .ok r) :
    ∃ t, Describes g data origin destination r t := by
  have hoEnds := (pricedLink hb ho).ends_ne
  have hdEnds := (pricedLink hb hcost).ends_ne
  unfold costResult at hr
  match hbest : s.best with
  | none =>
    rw [hbest] at hr
    cases hr
  | some (total, none) =>
    rw [hbest] at hr
    cases hr
    obtain ⟨forward, hlegal, htotal, hlength⟩ :=
      directCost_itinerary ho (h.best_direct total hbest)
    exact ⟨.direct forward, hlegal, congrArg Duration.finite htotal, hlength, dedupe_eq _,
      two_le_length_dedupe (by simp)⟩
  | some (total, some goal) =>
    simp only [hbest, Option.map_some, pathResult] at hr
    obtain ⟨-, y, x, hy, hx, rfl⟩ := h.best_at total goal hbest
    cases htrace : traceBack g origin s.previous (g.nodes.length + 1) goal with
    | none =>
      simp only [htrace] at hr
      cases hr
    | some found =>
      obtain ⟨nodes, distance⟩ := found
      simp only [htrace] at hr
      cases hr
      obtain ⟨leave, steps, hleave, hsteps, hconnects, hnodes, rfl, rfl⟩ :=
        traceBack_spec hb.graph hoEnds h _ hy htrace
      -- which end of the destination link the goal is decides both parts of that link
      obtain ⟨enter, henter, hgoal, hx', hpart⟩ : ∃ enter,
          g.canTraverse data destination.link enter = true ∧
          goal = entersAt g destination enter ∧
          x = (if enter then destination.fraction else 1 - destination.fraction) * dCost ∧
          (if goal = (g.link destination.link).u then destination.fraction
            else 1 - destination.fraction) =
            if enter then destination.fraction else 1 - destination.fraction := by
        cases (goalCosts_iff hdEnds).mp hx with
        | forward ht => exact ⟨true, ht, rfl, rfl, by simp⟩
        | backward ht => exact ⟨false, ht, rfl, rfl, by simp [hdEnds.symm]⟩
      refine ⟨.around leave steps enter, ⟨⟨⟨_, ho⟩, hleave⟩, hsteps, ⟨⟨_, hcost⟩, henter⟩,
        hgoal ▸ hconnects⟩, ?_, ?_, ?_, two_le_length_dedupe (by simp)⟩
      · rw [Itinerary.measure, cost_of_some ho, cost_of_some hcost, hx']
      · rw [Itinerary.measure, hpart]
        rfl
      · rw [dedupe_eq, hnodes]
        rfl

/-- Whatever the segments, the profile, the two snaps and the limit, a result of `shortest_path`
between links that the profile may use describes a route over such links, each taken in a
direction it permits. Where the profile may not use one of them the duration is not finite. -/
theorem shortestPath_describes (hm : IsMetric haversine) (segments : List (RoadSegment K))
    (profiles : List (TravelProfile K)) (mode : String) (origin destination : Snap K)
    (maxExpansions : ℤ) {r : PathResult K}
    (h : shortestPath haversine (RoadGraph.build haversine segments profiles) mode origin
      destination maxExpansions = .ok r) :
    ∃ data, (RoadGraph.build haversine segments profiles).profiles mode = some data ∧
      (Usable data origin ∧ Usable data destination →
        ∃ t, Describes (RoadGraph.build haversine segments profiles) data origin destination
          r t) ∧
      (¬ (Usable data origin ∧ Usable data destination) → ∀ x, r.durationS ≠ .finite x) := by
  obtain ⟨data, -, -, hmode, -⟩ := linkCosts_of_shortestPath (by rw [h]; simp)
  have hb := built_build hmode
  refine ⟨data, hmode, ?_, fun hn x hx => hn (usable_of_finite hm.pseudo hb hmode h hx)⟩
  rintro ⟨⟨oCost, ho⟩, dCost, hcost⟩
  cases hrun : costRun haversine (RoadGraph.build haversine segments profiles) data origin
      destination oCost dCost maxExpansions with
  | none =>
    rw [shortestPath_of_none hmode ho hcost hrun] at h
    cases h
  | some s =>
    rw [shortestPath_of_some hmode ho hcost hrun] at h
    obtain ⟨C, hexplored, -⟩ := AStar.run_explored (costProblem_arcConsistent hm.pseudo hb) _
      (AStar.explored_begin _ _ _) hrun
    exact costResult_describes hb ho hcost hexplored h

/-- A two-way street off the first node of `reverseStreet`. -/
def sideStreet : RoadSegment ℚ :=
  { coordinates := [(0, 0), (0, 1 / 500)], roadClass := some "residential" }

def cornerGraph : RoadGraph ℚ := RoadGraph.build cityBlock [reverseStreet, sideStreet] [driving]

def cornerData : ProfileData ℚ := ⟨driving, linkCosts driving cornerGraph.links⟩

/-- From the middle of the one street to the middle of the other. -/
def cornerRoute : PathResult ℚ :=
  ⟨[(1 / 1000, 0), (0, 0), (0, 1 / 1000)], 22239 / 100, .finite (667170 / 25000)⟩

theorem shortestPath_describes_corner :
    ∃ t, Describes cornerGraph cornerData ⟨0, 1 / 2, 1 / 1000, 0, 0⟩ ⟨1, 1 / 2, 0, 1 / 1000, 0⟩
      cornerRoute t := by
  have hresult : shortestPath cityBlock cornerGraph "driving" ⟨0, 1 / 2, 1 / 1000, 0, 0⟩
      ⟨1, 1 / 2, 0, 1 / 1000, 0⟩ 1000 = .ok cornerRoute := by
    decide +kernel
  have husable : ∀ i < 2, (cornerData.linkCost.getD i none).isSome = true := by
    decide +kernel
  obtain ⟨data, hmode, hdescribes, -⟩ := shortestPath_describes isMetric_cityBlock
    [reverseStreet, sideStreet] [driving] "driving" ⟨0, 1 / 2, 1 / 1000, 0, 0⟩
    ⟨1, 1 / 2, 0, 1 / 1000, 0⟩ 1000 hresult
  have hdata : cornerData = data := Option.some.inj hmode
  rw [← hdata] at hdescribes
  exact hdescribes ⟨Option.isSome_iff_exists.mp (husable 0 (by omega)),
    Option.isSome_iff_exists.mp (husable 1 (by omega))⟩

/-- A footpath, which `driving` may not use. -/
def footpath : RoadSegment ℚ :=
  { coordinates := [(0, 0), (1 / 500, 0)], roadClass := some "footway" }

/-- By car between two places on it a result is returned, and there is no route. -/
theorem shortestPath_along_footpath :
    ¬ ∀ haversine : Point ℚ → Point ℚ → ℚ, IsMetric haversine →
      ∀ (segments : List (RoadSegment ℚ)) (profiles : List (TravelProfile ℚ)) (mode : String)
        (origin destination : Snap ℚ) (maxExpansions : ℤ) (r : PathResult ℚ),
      shortestPath haversine (RoadGraph.build haversine segments profiles) mode origin
        destination maxExpansions = .ok r →
      ∃ data t, (RoadGraph.build haversine segments profiles).profiles mode = some data ∧
        Describes (RoadGraph.build haversine segments profiles) data origin destination r t := by
  intro h
  have hresult : shortestPath cityBlock (RoadGraph.build cityBlock [footpath] [driving])
      "driving" (streetSnap (1 / 5)) (streetSnap (4 / 5)) 1000 =
        .ok ⟨[(1 / 2500, 0), (1 / 625, 0)], 66717 / 500, .infinity⟩ := by
    decide +kernel
  obtain ⟨data, t, hmode, ht⟩ := h cityBlock isMetric_cityBlock [footpath] [driving] "driving"
    (streetSnap (1 / 5)) (streetSnap (4 / 5)) 1000 _ hresult
  have hnone : (linkCosts driving (RoadGraph.build cityBlock [footpath] [driving]).links).getD
      0 none = none := by
    decide +kernel
  have hdata : (⟨driving, linkCosts driving
      (RoadGraph.build cityBlock [footpath] [driving]).links⟩ : ProfileData ℚ) = data :=
    Option.some.inj hmode
  -- no route may take the link that both places are on
  obtain ⟨c, hc⟩ : ∃ c, data.linkCost.getD 0 none = some c := by
    cases t with
    | direct forward => exact ht.legal.2.1.1
    | around leave steps enter => exact ht.legal.1.1
  rw [← hdata, hnone] at hc
  cases hc

end GeoPlatform.Geo
