import GeoPlatform.Geo.RoadRoutes
import GeoPlatform.Library.AStarReach
import GeoPlatform.Library.OrderedMap
import GeoPlatform.Library.UnionFind
import Mathlib.Data.Int.Range
import Mathlib.Data.List.MinMax

/-! `RoadGraph.snap`: the grid, the mask of the largest component and the projection. Snaps lie
in one component, so a profile that may take every link both ways finds a route between any two
of them. `cosDeg` is the cosine of an angle in degrees. -/
namespace GeoPlatform.Geo
attribute [local instance] atLeastTwo_hundred
variable {K : Type} [Field K] [LinearOrder K] [FloorRing K]

deriving instance DecidableEq for Snap

/-! ### The main component -/

section Component
variable (nodeCount : ℕ)

/-- The parents after every link that the profile allows has united its ends. -/
def componentParents (profile : TravelProfile K) (links : List (Link K)) : ℕ → ℕ :=
  UnionFind.uniteAll nodeCount id
    ((links.filter fun l => profile.allowsClass l.roadClass).map fun l => (l.u, l.v))

/-- One turn of the loop that counts the links of each root. -/
def countLink (st : (ℕ → ℕ) × List (ℕ × ℕ)) (x : Link K × Option K) :
    (ℕ → ℕ) × List (ℕ × ℕ) :=
  match x.2 with
  | none => st
  | some _ =>
    let (parent, root) := UnionFind.find nodeCount st.1 x.1.u
    (parent, OrderedMap.set st.2 root ((OrderedMap.get? st.2 root).getD 0 + 1))

/-- One turn of the loop that marks the nodes of the main component. -/
def markNode (mainRoot : ℕ) (st : (ℕ → ℕ) × List Bool) (node : ℕ) : (ℕ → ℕ) × List Bool :=
  let (parent, root) := UnionFind.find nodeCount st.1 node
  (parent, st.2 ++ [decide (root = mainRoot)])

end Component

/-- The root with the most links is the first of those that have as many. -/
def RoadGraph.inMainComponent (g : RoadGraph K) (data : ProfileData K) : List Bool :=
  let n := g.nodes.length
  let (parent, sizes) := (g.links.zip data.linkCost).foldl (countLink n)
    (componentParents n data.profile g.links, [])
  match sizes.argmax Prod.snd with
  | none => List.replicate n false
  | some (mainRoot, _) => ((List.range n).foldl (markNode n mainRoot) (parent, [])).2

/-! ### The grid -/

/-- The cells between two corners, in the order of the loops. -/
def cellsBetween (cell : K) (low high : Point K) : List (ℤ × ℤ) :=
  (Int.range ⌊low.1 / cell⌋ (⌊high.1 / cell⌋ + 1)).flatMap fun cx =>
    (Int.range ⌊low.2 / cell⌋ (⌊high.2 / cell⌋ + 1)).map fun cy => (cx, cy)

def addToGrid (g : RoadGraph K) (cell : K) (grid : ℤ × ℤ → List ℕ) (x : Link K × ℕ) :
    ℤ × ℤ → List ℕ :=
  let p := g.node x.1.u
  let q := g.node x.1.v
  (cellsBetween cell (min p.1 q.1, min p.2 q.2) (max p.1 q.1, max p.2 q.2)).foldl
    (fun grid c => Function.update grid c (grid c ++ [x.2])) grid

def RoadGraph.grid (g : RoadGraph K) (cell : K) : ℤ × ℤ → List ℕ :=
  g.links.zipIdx.foldl (addToGrid g cell) fun _ => []

/-! ### Snapping -/

def METERS_PER_DEGREE_LAT : K := 111320

/-- The two corners of the envelope. -/
def bufferEnvelope (cosDeg : K → K) (p : Point K) (meters : K) : Point K × Point K :=
  let dLat := meters / METERS_PER_DEGREE_LAT
  let dLon := meters / (METERS_PER_DEGREE_LAT * max (1 / 100) (cosDeg p.2))
  ((p.1 - dLon, p.2 - dLat), (p.1 + dLon, p.2 + dLat))

/-- The fraction along the segment, the point there, and the distance to it. -/
def projectOntoSegment (haversine : Point K → Point K → K) (cosDeg : K → K) (p a b : Point K) :
    K × Point K × K :=
  let scaleX := cosDeg p.2
  let dx := (b.1 - a.1) * scaleX
  let dy := b.2 - a.2
  let lengthSq := dx * dx + dy * dy
  let t :=
    if lengthSq = 0 then 0
    else
      let t := ((p.1 - a.1) * scaleX * dx + (p.2 - a.2) * dy) / lengthSq
      if t < 0 then 0 else if 1 < t then 1 else t
  let q : Point K := (a.1 + (b.1 - a.1) * t, a.2 + (b.2 - a.2) * t)
  (t, q, haversine p q)

/-- The link may be used, and its first end is in the main component. -/
def RoadGraph.snappable (g : RoadGraph K) (data : ProfileData K) (inMain : List Bool)
    (link : ℕ) : Bool :=
  (data.linkCost.getD link none).isSome && inMain.getD (g.link link).u false

section Snap
variable (haversine : Point K → Point K → K) (cosDeg : K → K)

/-- One turn of the loop over the links of a cell: the links seen, and the best snap so far. -/
def snapLink (g : RoadGraph K) (data : ProfileData K) (inMain : List Bool) (p : Point K)
    (maxDistanceM : K) (st : List ℕ × Option (Snap K)) (link : ℕ) :
    List ℕ × Option (Snap K) :=
  if link ∈ st.1 then st
  else if ¬ g.snappable data inMain link then (link :: st.1, st.2)
  else
    let (t, q, distance) := projectOntoSegment haversine cosDeg p
      (g.node (g.link link).u) (g.node (g.link link).v)
    if distance ≤ maxDistanceM ∧ AStar.Below distance (st.2.map Snap.distanceM) then
      (link :: st.1, some ⟨link, t, q.1, q.2, distance⟩)
    else (link :: st.1, st.2)

def snap (g : RoadGraph K) (cell : K) (mode : String) (p : Point K) (maxDistanceM : K) :
    Except PathError (Option (Snap K)) :=
  match g.profiles mode with
  | none => .error .lookup
  | some data =>
    let envelope := bufferEnvelope cosDeg p maxDistanceM
    let links := (cellsBetween cell envelope.1 envelope.2).flatMap (g.grid cell)
    .ok (links.foldl (snapLink haversine cosDeg g data (g.inMainComponent data) p maxDistanceM)
      ([], none)).2

end Snap

variable {haversine : Point K → Point K → K} {cosDeg : K → K} {g : RoadGraph K}
variable {data : ProfileData K} {origin destination : Snap K}

/-! ### What a snap is -/

omit [FloorRing K] in
theorem snapLink_snappable {inMain : List Bool} {p : Point K} {maxDistanceM : K}
    {st : List ℕ × Option (Snap K)} (h : ∀ s ∈ st.2, g.snappable data inMain s.link)
    (link : ℕ) : ∀ s ∈ (snapLink haversine cosDeg g data inMain p maxDistanceM st link).2,
      g.snappable data inMain s.link := by
  unfold snapLink
  by_cases hseen : link ∈ st.1
  · simpa only [if_pos hseen] using h
  by_cases husable : g.snappable data inMain link = true
  · simp only [if_neg hseen, husable, not_true_eq_false, if_false]
    generalize projectOntoSegment haversine cosDeg p _ _ = x
    split_ifs
    · intro s hs
      rw [← Option.some.inj hs]
      exact husable
    · exact h
  · simpa [hseen, husable] using h

theorem snap_snappable {cell : K} {mode : String} {p : Point K} {maxDistanceM : K}
    (hmode : g.profiles mode = some data) {s : Snap K}
    (h : snap haversine cosDeg g cell mode p maxDistanceM = .ok (some s)) :
    g.snappable data (g.inMainComponent data) s.link := by
  unfold snap at h
  simp only [hmode, Except.ok.injEq] at h
  have hfold : ∀ (links : List ℕ) (st : List ℕ × Option (Snap K)),
      (∀ s ∈ st.2, g.snappable data (g.inMainComponent data) s.link) →
      ∀ s ∈ (links.foldl (snapLink haversine cosDeg g data (g.inMainComponent data) p
        maxDistanceM) st).2, g.snappable data (g.inMainComponent data) s.link := by
    intro links
    induction links with
    | nil => exact fun st hst => hst
    | cons link links ih => exact fun st hst => ih _ (snapLink_snappable hst link)
  exact hfold _ _ (fun s hs => by cases hs) s h

/-! ### The mask -/

/-- The ends of the links that the profile allows. -/
def allowedEnds (g : RoadGraph K) (data : ProfileData K) : List (ℕ × ℕ) :=
  (g.links.filter fun l => data.profile.allowsClass l.roadClass).map fun l => (l.u, l.v)

omit [Field K] [LinearOrder K] [FloorRing K] in
theorem countLinks_forest {root : ℕ → ℕ} {rank : ℕ → ℕ} {n : ℕ} (xs : List (Link K × Option K))
    (hxs : ∀ x ∈ xs, x.1.u < n) (st : (ℕ → ℕ) × List (ℕ × ℕ))
    (h : UnionFind.Forest (Finset.range n) st.1 root rank) :
    UnionFind.Forest (Finset.range n) (xs.foldl (countLink n) st).1 root rank := by
  induction xs generalizing st with
  | nil => exact h
  | cons x xs ih =>
    apply ih (fun y hy => hxs y (List.mem_cons_of_mem _ hy))
    unfold countLink
    split
    · exact h
    · have hu : x.1.u ∈ Finset.range n := Finset.mem_range.mpr (hxs x (List.mem_cons_self ..))
      exact (UnionFind.find_root h hu (Finset.card_range n).le).1

theorem markNodes_eq {root : ℕ → ℕ} {rank : ℕ → ℕ} {n mainRoot : ℕ} {nodes : List ℕ}
    (hnodes : ∀ i ∈ nodes, i < n) {st : (ℕ → ℕ) × List Bool}
    (h : UnionFind.Forest (Finset.range n) st.1 root rank) :
    (nodes.foldl (markNode n mainRoot) st).2 =
      st.2 ++ nodes.map fun i => decide (root i = mainRoot) := by
  induction nodes generalizing st with
  | nil => simp
  | cons i nodes ih =>
    have hi : i ∈ Finset.range n := Finset.mem_range.mpr (hnodes i (List.mem_cons_self ..))
    obtain ⟨hforest, hroot⟩ := UnionFind.find_root h hi (Finset.card_range n).le
    rw [List.foldl_cons, ih (fun j hj => hnodes j (List.mem_cons_of_mem _ hj)) hforest]
    simp [markNode, hroot]

omit [FloorRing K] in
theorem linkEnds_mem (hg : g.WellFormed haversine) {l : Link K} (hl : l ∈ g.links) :
    l.u < g.nodes.length ∧ l.v < g.nodes.length := by
  obtain ⟨p, q, hok⟩ := hg.links l hl
  exact ⟨(List.getElem?_eq_some_iff.mp hok.left).1, (List.getElem?_eq_some_iff.mp hok.right).1⟩

omit [FloorRing K] in
theorem allowedEnds_mem (hg : g.WellFormed haversine) (data : ProfileData K) :
    ∀ e ∈ allowedEnds g data,
      e.1 ∈ Finset.range g.nodes.length ∧ e.2 ∈ Finset.range g.nodes.length := by
  intro e he
  obtain ⟨l, hl, rfl⟩ := List.mem_map.mp he
  obtain ⟨hu, hv⟩ := linkEnds_mem hg (List.mem_of_mem_filter hl)
  exact ⟨Finset.mem_range.mpr hu, Finset.mem_range.mpr hv⟩

omit [FloorRing K] in
/-- The marked nodes have one root, and the roots tell the components of the allowed links
apart. -/
theorem inMainComponent_root (hg : g.WellFormed haversine) (data : ProfileData K) :
    ∃ root, UnionFind.Separates (allowedEnds g data) root ∧
      ∃ mainRoot, ∀ i, (g.inMainComponent data).getD i false = true → root i = mainRoot := by
  obtain ⟨root, rank, hforest, hseparates⟩ :=
    UnionFind.uniteAll_spec (Finset.card_range g.nodes.length).le _ (allowedEnds_mem hg data)
  have hcounted := countLinks_forest (g.links.zip data.linkCost)
    (fun x hx => (linkEnds_mem hg (List.of_mem_zip hx).1).1)
    (componentParents g.nodes.length data.profile g.links, []) hforest
  refine ⟨root, hseparates, ?_⟩
  unfold RoadGraph.inMainComponent
  simp only
  split
  · refine ⟨0, fun i hi => ?_⟩
    rw [List.getD_eq_getElem?_getD, List.getElem?_replicate] at hi
    split_ifs at hi <;> cases hi
  · case _ mainRoot _ _ =>
    refine ⟨mainRoot, fun i hi => ?_⟩
    rw [markNodes_eq (fun i hi => List.mem_range.mp hi) hcounted, List.nil_append,
      List.getD_eq_getElem?_getD, List.getElem?_map] at hi
    by_cases hlt : i < g.nodes.length
    · simpa [hlt] using hi
    · simp [hlt] at hi

omit [FloorRing K] in
/-- Nodes of the main component are joined by links that the profile allows. -/
theorem inMainComponent_connected (hg : g.WellFormed haversine) {a b : ℕ}
    (ha : (g.inMainComponent data).getD a false = true)
    (hb : (g.inMainComponent data).getD b false = true) :
    UnionFind.Connected (allowedEnds g data) a b := by
  obtain ⟨root, hseparates, mainRoot, hroot⟩ := inMainComponent_root hg data
  exact (hseparates a b).mp ((hroot a ha).trans (hroot b hb).symm)

end GeoPlatform.Geo
