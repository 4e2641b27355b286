import GeoPlatform.Geo.RoadCosts

/-! Routes over the links that a profile may use, and what the search sees of them: its arcs
are these links, its walks these routes, and its estimate is consistent because no link is
faster than the profile's top speed. -/
namespace GeoPlatform.Geo
variable {K : Type} [Field K] [LinearOrder K]

/-! ### Routes -/

/-- One whole link, in a direction that the profile permits. -/
inductive Step (g : RoadGraph K) (data : ProfileData K) : ℕ → ℕ → K → Prop
  | forward {i : ℕ} {c : K} (hi : i < g.links.length) (hc : data.linkCost.getD i none = some c)
      (h : g.canTraverse data i true = true) : Step g data (g.link i).u (g.link i).v c
  | backward {i : ℕ} {c : K} (hi : i < g.links.length) (hc : data.linkCost.getD i none = some c)
      (h : g.canTraverse data i false = true) : Step g data (g.link i).v (g.link i).u c

inductive Route (g : RoadGraph K) (data : ProfileData K) : ℕ → ℕ → K → Prop
  | here (n : ℕ) : Route g data n n 0
  | along {n m k : ℕ} {r c : K} (h : Route g data n m r) (hs : Step g data m k c) :
      Route g data n k (r + c)

/-- Off the origin link by a permitted end. -/
inductive Leaves (g : RoadGraph K) (data : ProfileData K) (origin : Snap K) (oCost : K) :
    ℕ → K → Prop
  | backward (h : g.canTraverse data origin.link false = true) :
      Leaves g data origin oCost (g.link origin.link).u (origin.fraction * oCost)
  | forward (h : g.canTraverse data origin.link true = true) :
      Leaves g data origin oCost (g.link origin.link).v ((1 - origin.fraction) * oCost)

/-- Onto the destination link by a permitted end. -/
inductive Enters (g : RoadGraph K) (data : ProfileData K) (destination : Snap K) (dCost : K) :
    ℕ → K → Prop
  | forward (h : g.canTraverse data destination.link true = true) :
      Enters g data destination dCost (g.link destination.link).u (destination.fraction * dCost)
  | backward (h : g.canTraverse data destination.link false = true) :
      Enters g data destination dCost (g.link destination.link).v
        ((1 - destination.fraction) * dCost)

/-- From the origin to the destination over the nodes. -/
def Around (g : RoadGraph K) (data : ProfileData K) (origin destination : Snap K)
    (oCost dCost total : K) : Prop :=
  ∃ n m a r b, Leaves g data origin oCost n a ∧ Route g data n m r ∧
    Enters g data destination dCost m b ∧ total = a + r + b

/-! ### Snaps and profiles -/

/-- A snap on a link that the profile may use, no further from the link's ends than the part
of the link up to it. -/
structure SnapOn (haversine : Point K → Point K → K) (g : RoadGraph K) (data : ProfileData K)
    (s : Snap K) : Prop where
  usable : ∃ c, data.linkCost.getD s.link none = some c
  left : haversine (g.node (g.link s.link).u) s.point ≤ s.fraction * (g.link s.link).length
  right : haversine (g.node (g.link s.link).v) s.point ≤
    (1 - s.fraction) * (g.link s.link).length

/-- `data` is what `build` computed for its profile. -/
structure Built (haversine : Point K → Point K → K) (g : RoadGraph K) (data : ProfileData K) :
    Prop where
  graph : g.WellFormed haversine
  costs : data.linkCost = linkCosts data.profile g.links

variable {haversine : Point K → Point K → K} {g : RoadGraph K} {data : ProfileData K}
variable {origin destination : Snap K} {oCost dCost : K}

theorem built_build [FloorRing K] {segments : List (RoadSegment K)}
    {profiles : List (TravelProfile K)} {mode : String} {data : ProfileData K}
    (h : (RoadGraph.build haversine segments profiles).profiles mode = some data) :
    Built haversine (RoadGraph.build haversine segments profiles) data :=
  have hg := build_wellFormed haversine segments profiles
  ⟨hg, hg.profiles mode data h⟩

/-! ### Arcs -/

omit [Field K] [LinearOrder K] in
theorem mem_linkEnds {links : List (Link K)} {n i : ℕ} {forward : Bool} :
    (n, i, forward) ∈ linkEnds links ↔
      ∃ l, links[i]? = some l ∧ n = if forward then l.u else l.v := by
  unfold linkEnds
  rw [List.mem_flatMap]
  constructor
  · rintro ⟨⟨l, j⟩, hl, hmem⟩
    rw [List.mem_zipIdx_iff_getElem?] at hl
    rcases List.mem_cons.mp hmem with heq | hmem
    · cases heq
      exact ⟨l, hl, rfl⟩
    · cases List.mem_singleton.mp hmem
      exact ⟨l, hl, rfl⟩
  · rintro ⟨l, hl, rfl⟩
    refine ⟨(l, i), List.mem_zipIdx_iff_getElem?.mpr hl, ?_⟩
    cases forward <;> simp

theorem link_eq {i : ℕ} {l : Link K} (h : g.links[i]? = some l) : g.link i = l := by
  simp [RoadGraph.link, List.getD_eq_getElem?_getD, h]

theorem link_ends_lt (hg : g.WellFormed haversine) {i : ℕ} (hi : i < g.links.length) :
    (g.link i).u < g.nodes.length ∧ (g.link i).v < g.nodes.length := by
  rw [link_eq (List.getElem?_eq_getElem hi)]
  obtain ⟨p, q, hok⟩ := hg.links _ (List.getElem_mem hi)
  exact ⟨(List.getElem?_eq_some_iff.mp hok.left).1, (List.getElem?_eq_some_iff.mp hok.right).1⟩

theorem linkEnds_lt (hg : g.WellFormed haversine) :
    ∀ e ∈ linkEnds g.links, e.1 < g.nodes.length := by
  rintro ⟨k, j, b⟩ he
  obtain ⟨l, hl, rfl⟩ := mem_linkEnds.mp he
  obtain ⟨p, q, hok⟩ := hg.links l (List.mem_of_getElem? hl)
  cases b
  · exact (List.getElem?_eq_some_iff.mp hok.right).1
  · exact (List.getElem?_eq_some_iff.mp hok.left).1

theorem row_eq (hg : g.WellFormed haversine) (n : ℕ) :
    g.arcs.row (0, false) n = Csr.rowItems (linkEnds g.links) n := by
  rw [hg.arcs, buildAdjacency, Csr.row_build _ (linkEnds_lt hg)]

/-- The slots of a node are the ends of links at it. -/
theorem mem_row (hg : g.WellFormed haversine) {n i : ℕ} {forward : Bool} :
    (i, forward) ∈ g.arcs.row (0, false) n ↔
      i < g.links.length ∧ n = if forward then (g.link i).u else (g.link i).v := by
  rw [row_eq hg, Csr.mem_rowItems, mem_linkEnds]
  constructor
  · rintro ⟨l, hl, rfl⟩
    exact ⟨(List.getElem?_eq_some_iff.mp hl).1, by rw [link_eq hl]⟩
  · rintro ⟨hi, rfl⟩
    have hl := List.getElem?_eq_getElem hi
    exact ⟨_, hl, by rw [link_eq hl]⟩

/-- A slot gives an arc where its link has a cost and may be used in its direction. -/
theorem arcOf_some {i : ℕ} {forward : Bool} {a : AStar.Arc ℕ ℕ K}
    (h : g.arcOf data (i, forward) = some a) :
    ∃ c, data.linkCost.getD i none = some c ∧ g.canTraverse data i forward = true ∧
      a = ⟨if forward then (g.link i).v else (g.link i).u, c, i⟩ := by
  unfold RoadGraph.arcOf at h
  split at h
  · cases h
  · case _ c hc =>
    by_cases htraverse : g.canTraverse data i forward = true
    · rw [if_pos htraverse] at h
      cases h
      exact ⟨c, hc, htraverse, rfl⟩
    · rw [if_neg htraverse] at h
      cases h

theorem step_of_arc (hg : g.WellFormed haversine) {n : ℕ} {a : AStar.Arc ℕ ℕ K}
    (h : a ∈ g.arcsFrom data n) : Step g data n a.target a.cost := by
  obtain ⟨⟨i, forward⟩, hslot, harc⟩ := List.mem_filterMap.mp h
  obtain ⟨hi, hn⟩ := (mem_row hg).mp hslot
  obtain ⟨c, hc, htraverse, rfl⟩ := arcOf_some harc
  cases forward with
  | true => exact hn ▸ .forward hi hc htraverse
  | false => exact hn ▸ .backward hi hc htraverse

theorem arc_of_step (hg : g.WellFormed haversine) {n m : ℕ} {c : K} (h : Step g data n m c) :
    ∃ a ∈ g.arcsFrom data n, a.target = m ∧ a.cost = c := by
  cases h with
  | @forward i _ hi hc htraverse =>
    refine ⟨⟨(g.link i).v, c, i⟩, List.mem_filterMap.mpr ⟨(i, true), ?_, ?_⟩, rfl, rfl⟩
    · exact (mem_row hg).mpr ⟨hi, rfl⟩
    · simp only [RoadGraph.arcOf, hc, htraverse, if_true]
  | @backward i _ hi hc htraverse =>
    refine ⟨⟨(g.link i).u, c, i⟩, List.mem_filterMap.mpr ⟨(i, false), ?_, ?_⟩, rfl, rfl⟩
    · exact (mem_row hg).mpr ⟨hi, rfl⟩
    · simp only [RoadGraph.arcOf, hc, htraverse, if_true, Bool.false_eq_true, if_false]

theorem walk_iff (hg : g.WellFormed haversine) {n : ℕ} {c : K} :
    AStar.Walk (costProblem haversine g data destination dCost)
        (startCosts g data origin oCost) n c ↔
      ∃ m a r, Leaves g data origin oCost m a ∧ Route g data m n r ∧ c = a + r := by
  constructor
  · intro h
    induction h with
    | @start n c l hstart =>
      refine ⟨n, c, 0, ?_, .here n, (add_zero c).symm⟩
      rcases List.mem_append.mp hstart with hmem | hmem
      · split_ifs at hmem with htraverse
        · cases List.mem_singleton.mp hmem
          exact .backward htraverse
        · cases hmem
      · split_ifs at hmem with htraverse
        · cases List.mem_singleton.mp hmem
          exact .forward htraverse
        · cases hmem
    | along _ ha ih =>
      obtain ⟨m, a, r, hleaves, hroute, rfl⟩ := ih
      exact ⟨m, a, _, hleaves, hroute.along (step_of_arc hg ha), add_assoc ..⟩
  · rintro ⟨m, a, r, hleaves, hroute, rfl⟩
    induction hroute with
    | here =>
      rw [add_zero]
      cases hleaves with
      | backward h => exact .start (l := origin.link) (List.mem_append_left _ (by simp [h]))
      | forward h => exact .start (l := origin.link) (List.mem_append_right _ (by simp [h]))
    | along _ hs ih =>
      obtain ⟨arc, harc, rfl, rfl⟩ := arc_of_step hg hs
      rw [← add_assoc]
      exact .along ih harc

/-! ### Goals -/

theorem goalCosts_iff (hne : (g.link destination.link).u ≠ (g.link destination.link).v) {n : ℕ}
    {x : K} : goalCosts g data destination dCost n = some x ↔
      Enters g data destination dCost n x := by
  have hgoals : goalCosts g data destination dCost n =
      if n = (g.link destination.link).v ∧ g.canTraverse data destination.link false = true then
        some ((1 - destination.fraction) * dCost)
      else if n = (g.link destination.link).u ∧ g.canTraverse data destination.link true = true then
        some (destination.fraction * dCost)
      else none := by
    have hne' := hne.symm
    unfold goalCosts
    split_ifs <;> simp_all
  rw [hgoals]
  constructor
  · intro h
    split_ifs at h with hv hu
    · cases h
      exact hv.1 ▸ .backward hv.2
    · cases h
      exact hu.1 ▸ .forward hu.2
  · intro h
    cases h with
    | forward h => simp [hne, h]
    | backward h => simp [h]

variable [IsStrictOrderedRing K]

/-! ### Costs -/

theorem speedKmh_bounds (p : TravelProfile K) (roadClass : Option String)
    (dataSpeed : Option K) :
    0 < p.speedKmh roadClass dataSpeed ∧ p.speedKmh roadClass dataSpeed ≤ p.maxSpeedKmh :=
  ⟨lt_min (lt_max_of_lt_right one_pos) p.maxSpeed_pos, min_le_right _ _⟩

theorem maxSpeedMps_pos (data : ProfileData K) : 0 < data.maxSpeedMps :=
  div_pos data.profile.maxSpeed_pos (by norm_num)

/-- A link with a cost joins two nodes, and is driven along at some speed up to the profile's
top speed. -/
structure PricedLink (haversine : Point K → Point K → K) (g : RoadGraph K)
    (data : ProfileData K) (i : ℕ) (c : K) : Prop where
  index : i < g.links.length
  ends_lt : (g.link i).u < g.nodes.length ∧ (g.link i).v < g.nodes.length
  ends_ne : (g.link i).u ≠ (g.link i).v
  places_ne : g.node (g.link i).u ≠ g.node (g.link i).v
  length : (g.link i).length = haversine (g.node (g.link i).u) (g.node (g.link i).v)
  speed : ∃ s, 0 < s ∧ s ≤ data.maxSpeedMps ∧ c = (g.link i).length / s

theorem pricedLink (hb : Built haversine g data) {i : ℕ} {c : K}
    (hc : data.linkCost.getD i none = some c) : PricedLink haversine g data i c := by
  have hi : i < g.links.length := by
    by_contra hge
    rw [hb.costs, List.getD_eq_default _ _ (by simpa [linkCosts] using hge)] at hc
    cases hc
  have hl := List.getElem?_eq_getElem hi
  have hlink := link_eq hl
  obtain ⟨p, q, hok⟩ := hb.graph.links _ (List.getElem_mem hi)
  rw [← hlink] at hok
  have hp : g.node (g.link i).u = p := by
    simp [RoadGraph.node, List.getD_eq_getElem?_getD, hok.left]
  have hq : g.node (g.link i).v = q := by
    simp [RoadGraph.node, List.getD_eq_getElem?_getD, hok.right]
  have hplaces : g.node (g.link i).u ≠ g.node (g.link i).v := by
    rw [hp, hq]
    exact hok.ne
  refine ⟨hi, link_ends_lt hb.graph hi, fun heq => hplaces (by rw [heq]), hplaces, ?_, ?_⟩
  · rw [hok.length, hp, hq]
  · obtain ⟨hspeed, hmax⟩ := speedKmh_bounds data.profile (g.link i).roadClass
      (g.link i).speedKmh
    refine ⟨data.profile.speedKmh (g.link i).roadClass (g.link i).speedKmh / (36 / 10),
      div_pos hspeed (by norm_num), ?_, ?_⟩
    · exact div_le_div_of_nonneg_right hmax (by norm_num)
    · rw [hb.costs, linkCosts, List.getD_eq_getElem?_getD, List.getElem?_map, hl, ← hlink] at hc
      simp only [Option.map_some, Option.getD_some] at hc
      split_ifs at hc
      exact (Option.some.inj hc).symm

omit [IsStrictOrderedRing K] in
theorem PricedLink.length_nonneg {i : ℕ} {c : K} (h : PricedLink haversine g data i c)
    (hnonneg : ∀ p q, 0 ≤ haversine p q) : 0 ≤ (g.link i).length := by
  rw [h.length]
  exact hnonneg _ _

theorem PricedLink.cost_nonneg {i : ℕ} {c : K} (h : PricedLink haversine g data i c)
    (hlength : 0 ≤ (g.link i).length) : 0 ≤ c := by
  obtain ⟨s, hs, -, rfl⟩ := h.speed
  exact div_nonneg hlength hs.le

theorem PricedLink.cost_pos {i : ℕ} {c : K} (h : PricedLink haversine g data i c)
    (hlength : 0 < (g.link i).length) : 0 < c := by
  obtain ⟨s, hs, -, rfl⟩ := h.speed
  exact div_pos hlength hs

/-- It takes at least its length at top speed. -/
theorem PricedLink.cost_ge {i : ℕ} {c : K} (h : PricedLink haversine g data i c)
    (hlength : 0 ≤ (g.link i).length) : (g.link i).length * (1 / data.maxSpeedMps) ≤ c := by
  obtain ⟨s, hs, hsmax, rfl⟩ := h.speed
  rw [mul_one_div]
  exact div_le_div_of_nonneg_left hlength hs hsmax

/-- What a usable link is: its ends are apart, and it takes at least its length at top speed. -/
structure UsableLink (haversine : Point K → Point K → K) (g : RoadGraph K)
    (data : ProfileData K) (i : ℕ) (c : K) : Prop where
  index : i < g.links.length
  ends_lt : (g.link i).u < g.nodes.length ∧ (g.link i).v < g.nodes.length
  ends_ne : (g.link i).u ≠ (g.link i).v
  length : (g.link i).length = haversine (g.node (g.link i).u) (g.node (g.link i).v)
  length_pos : 0 < (g.link i).length
  cost_pos : 0 < c
  cost_ge : (g.link i).length * (1 / data.maxSpeedMps) ≤ c

theorem IsMetric.pos (hm : IsMetric haversine) {p q : Point K} (h : p ≠ q) :
    0 < haversine p q :=
  lt_of_le_of_ne (hm.pseudo.nonneg p q) fun h0 => h (hm.eq_of_zero p q h0.symm)

/-- No link has both ends at one place, as far as `haversine` tells. -/
def LinksPositive (g : RoadGraph K) : Prop := ∀ l ∈ g.links, 0 < l.length

theorem IsMetric.linksPositive (hm : IsMetric haversine) (hg : g.WellFormed haversine) :
    LinksPositive g := by
  intro l hl
  obtain ⟨p, q, hok⟩ := hg.links l hl
  exact hok.length ▸ hm.pos hok.ne

theorem usableLink (hl : LinksPositive g) (hb : Built haversine g data) {i : ℕ} {c : K}
    (hc : data.linkCost.getD i none = some c) : UsableLink haversine g data i c := by
  have h := pricedLink hb hc
  have hpos : 0 < (g.link i).length := by
    have hget := List.getElem?_eq_getElem h.index
    rw [link_eq hget]
    exact hl _ (List.getElem_mem h.index)
  exact ⟨h.index, h.ends_lt, h.ends_ne, h.length, hpos, h.cost_pos hpos, h.cost_ge hpos.le⟩

theorem Step.cost_pos (hl : LinksPositive g) (hb : Built haversine g data) {n m : ℕ} {c : K}
    (h : Step g data n m c) : 0 < c := by
  cases h with
  | forward _ hc _ => exact (usableLink hl hb hc).cost_pos
  | backward _ hc _ => exact (usableLink hl hb hc).cost_pos

theorem Step.cost_nonneg (hm : IsPseudoMetric haversine) (hb : Built haversine g data)
    {n m : ℕ} {c : K} (h : Step g data n m c) : 0 ≤ c := by
  cases h with
  | forward _ hc _ =>
    have hlink := pricedLink hb hc
    exact hlink.cost_nonneg (hlink.length_nonneg hm.nonneg)
  | backward _ hc _ =>
    have hlink := pricedLink hb hc
    exact hlink.cost_nonneg (hlink.length_nonneg hm.nonneg)

theorem Route.cost_nonneg (hm : IsPseudoMetric haversine) (hb : Built haversine g data)
    {n m : ℕ} {r : K} (h : Route g data n m r) : 0 ≤ r := by
  induction h with
  | here => exact le_rfl
  | along _ hs ih => exact add_nonneg ih (hs.cost_nonneg hm hb)

theorem Step.target_lt (hb : Built haversine g data) {n m : ℕ} {c : K}
    (h : Step g data n m c) : m < g.nodes.length := by
  cases h with
  | forward _ hc _ => exact (pricedLink hb hc).ends_lt.2
  | backward _ hc _ => exact (pricedLink hb hc).ends_lt.1

/-! ### The search problem -/

/-- Straight-line distance at top speed drops along a link by no more than the cost of the
link. -/
theorem costProblem_arcConsistent (hm : IsPseudoMetric haversine)
    (hb : Built haversine g data) :
    AStar.ArcConsistent (costProblem haversine g data destination dCost) := by
  refine ⟨fun n a ha => ?_, fun n x y h => le_of_add_le_add_left h⟩
  have hinv : 0 < 1 / data.maxSpeedMps := one_div_pos.mpr (maxSpeedMps_pos data)
  have hends : haversine (g.node n) (g.node a.target) * (1 / data.maxSpeedMps) ≤ a.cost := by
    have hstep := step_of_arc hb.graph ha
    generalize a.target = m, a.cost = c at hstep
    cases hstep with
    | forward _ hc _ =>
      have hlink := pricedLink hb hc
      rw [← hlink.length]
      exact hlink.cost_ge (hlink.length_nonneg hm.nonneg)
    | backward _ hc _ =>
      have hlink := pricedLink hb hc
      rw [hm.symm, ← hlink.length]
      exact hlink.cost_ge (hlink.length_nonneg hm.nonneg)
  have htriangle := mul_le_mul_of_nonneg_right
    (hm.triangle (g.node n) (g.node a.target) destination.point) hinv.le
  simp only [costProblem]
  linarith

/-- From a snap on its link it never overestimates either. -/
theorem costProblem_consistent (hm : IsPseudoMetric haversine) (hl : LinksPositive g)
    (hb : Built haversine g data) (hd : SnapOn haversine g data destination)
    (hcost : data.linkCost.getD destination.link none = some dCost) :
    AStar.Consistent (costProblem haversine g data destination dCost) := by
  constructor
  · exact costProblem_arcConsistent hm hb
  · intro n x hx
    have hinv : 0 < 1 / data.maxSpeedMps := one_div_pos.mpr (maxSpeedMps_pos data)
    have hlink := usableLink hl hb hcost
    have hpart : ∀ t d, haversine (g.node n) destination.point = d →
        d ≤ t * (g.link destination.link).length → d * (1 / data.maxSpeedMps) ≤ t * dCost := by
      intro t d hd hle
      have hd0 : 0 ≤ d := hd ▸ hm.nonneg _ _
      have ht : 0 ≤ t := nonneg_of_mul_nonneg_left (hd0.trans hle) hlink.length_pos
      calc d * (1 / data.maxSpeedMps)
          ≤ t * (g.link destination.link).length * (1 / data.maxSpeedMps) :=
            mul_le_mul_of_nonneg_right hle hinv.le
        _ = t * ((g.link destination.link).length * (1 / data.maxSpeedMps)) := mul_assoc ..
        _ ≤ t * dCost := mul_le_mul_of_nonneg_left hlink.cost_ge ht
    cases (goalCosts_iff hlink.ends_ne).mp hx with
    | forward _ => exact hpart _ _ rfl hd.left
    | backward _ => exact hpart _ _ rfl hd.right

end GeoPlatform.Geo
