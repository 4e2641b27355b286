import GeoPlatform.Geo.RoadReach
import GeoPlatform.Geo.RoadUnusable
import GeoPlatform.Library.AStarAlike

/-! Snaps at a junction. Several links meet there, and a snap is on one of them: the search
leaves and enters only as that link may be taken. Among the links that lead to the node, or as
destinations among those that lead away from it, it does not matter which. -/
namespace GeoPlatform.Geo
variable {K : Type} [Field K] [LinearOrder K]

/-- At the node `n`, where the snap's link starts or, if `atEnd`, where it ends. -/
structure AtNode (g : RoadGraph K) (s : Snap K) (atEnd : Bool) (n : ℕ) : Prop where
  node : (if atEnd then (g.link s.link).v else (g.link s.link).u) = n
  fraction : s.fraction = if atEnd then 1 else 0
  point : s.point = g.node n

/-- The same duration, or no path for both. Nothing is said where a search was given up. -/
def Agree : Except PathError (PathResult K) → Except PathError (PathResult K) → Prop
  | .ok r, .ok r' => r.durationS = r'.durationS
  | .error .noPath, .error .noPath => True
  | .error .searchLimit, _ => True
  | _, .error .searchLimit => True
  | _, _ => False

/-- Both snaps are at one place of a link that may only be taken in its direction. -/
def AtOnePlaceOfForwardLink (g : RoadGraph K) (data : ProfileData K) (s t : Snap K) : Prop :=
  s.link = t.link ∧ s.fraction = t.fraction ∧ g.canTraverse data s.link false = false

variable {haversine : Point K → Point K → K} {g : RoadGraph K} {data : ProfileData K}
variable {origin destination s t x : Snap K} {atEnd tEnd : Bool} {n : ℕ}
variable {cost oCost dCost xCost : K} [IsStrictOrderedRing K]

omit [Field K] [LinearOrder K] [IsStrictOrderedRing K] in
theorem agree_searchLimit (o : Except PathError (PathResult K)) :
    Agree o (.error .searchLimit) := by
  unfold Agree
  split <;> trivial

/-! ### As origins -/

/-- A link that leads to the node lets the search start there, and the other start is at the
end of an arc out of it. -/
theorem AtNode.startsAt (hs : AtNode g s atEnd n) (hb : Built haversine g data)
    (hcost : data.linkCost.getD s.link none = some cost)
    (htoward : g.canTraverse data s.link atEnd = true) :
    AStar.StartsAt (costProblem haversine g data x dCost) (startCosts g data s cost) n := by
  have hi := (pricedLink hb hcost).index
  cases atEnd with
  | false =>
    obtain ⟨rfl, hfraction, -⟩ := hs
    simp only [Bool.false_eq_true, if_false] at hfraction ⊢
    constructor
    · exact ⟨s.link, List.mem_append_left _ (by simp [htoward, hfraction])⟩
    · intro y hy
      rcases List.mem_append.mp hy with hy | hy
      · rw [if_pos htoward, List.mem_singleton] at hy
        exact Or.inl (by simp [hy, hfraction])
      · split_ifs at hy with hforward
        · rw [List.mem_singleton.mp hy, hfraction, sub_zero, one_mul]
          exact Or.inr (arc_of_step hb.graph (.forward hi hcost hforward))
        · cases hy
  | true =>
    obtain ⟨rfl, hfraction, -⟩ := hs
    simp only [if_true] at hfraction ⊢
    constructor
    · exact ⟨s.link, List.mem_append_right _ (by simp [htoward, hfraction])⟩
    · intro y hy
      rcases List.mem_append.mp hy with hy | hy
      · split_ifs at hy with hbackward
        · rw [List.mem_singleton.mp hy, hfraction, one_mul]
          exact Or.inr (arc_of_step hb.graph (.backward hi hcost hbackward))
        · cases hy
      · rw [if_pos htoward, List.mem_singleton] at hy
        exact Or.inl (by simp [hy, hfraction])

/-- Straight along the link is one way of finishing from the node. -/
theorem AtNode.direct_exit (hs : AtNode g s atEnd n) (hb : Built haversine g data)
    (hcost : data.linkCost.getD s.link none = some cost)
    (hxCost : data.linkCost.getD x.link none = some xCost) (h0 : 0 ≤ x.fraction)
    (h1 : x.fraction ≤ 1) (hplace : ¬ AtOnePlaceOfForwardLink g data s x) {total : K}
    (h : directCost g data s x cost = some total) : goalCosts g data x xCost n = some total := by
  apply (goalCosts_iff (pricedLink hb hxCost).ends_ne).mpr
  obtain ⟨hsame, hdirect⟩ := directCost_cases h
  have hcosts : cost = xCost := by
    rw [hsame, hxCost] at hcost
    exact (Option.some.inj hcost).symm
  obtain ⟨rfl, hfraction, -⟩ := hs
  unfold AtOnePlaceOfForwardLink at hplace
  rw [hsame, hfraction] at hdirect hplace
  rw [hsame, ← hcosts]
  cases atEnd with
  | false =>
    simp only [Bool.false_eq_true, if_false] at hdirect ⊢
    rcases hdirect with ⟨-, htraverse, rfl⟩ | ⟨hlt, -, -⟩
    · rw [sub_zero]
      exact .forward htraverse
    · exact absurd hlt (not_lt.mpr h0)
  | true =>
    simp only [if_true] at hdirect hplace ⊢
    rcases hdirect with ⟨hle, -, rfl⟩ | ⟨-, htraverse, rfl⟩
    · -- both are at the end of the link, so it may be taken back as well
      have hone : 1 = x.fraction := le_antisymm hle h1
      have hbackward : g.canTraverse data x.link false = true := by
        by_contra hn
        exact hplace ⟨trivial, hone, Bool.eq_false_iff.mpr hn⟩
      have henters : Enters g data x cost (g.link x.link).v ((1 - x.fraction) * cost) :=
        .backward hbackward
      rwa [← hone, sub_self] at henters ⊢
    · exact .backward htraverse

section Origins
variable [FloorRing K]

/-- What a finished search answers depends on its total. -/
theorem costResult_agree (hl : LinksPositive g) (hb : Built haversine g data) {tCost : K}
    (hcost : data.linkCost.getD s.link none = some cost)
    (htCost : data.linkCost.getD t.link none = some tCost)
    (hxCost : data.linkCost.getD x.link none = some xCost) {C C' : Finset ℕ}
    {r r' : AStar.Search ℕ ℕ K}
    (h : AStar.Explored (costProblem haversine g data x xCost) (startCosts g data s cost)
      (directCost g data s x cost) C r)
    (h' : AStar.Explored (costProblem haversine g data x xCost) (startCosts g data t tCost)
      (directCost g data t x tCost) C' r')
    (htotal : r.total = r'.total) : Agree (costResult g s x r) (costResult g t x r') := by
  unfold AStar.Search.total at htotal
  rcases costResult_cases hl hb hcost hxCost h with ⟨hr, hbest⟩ | ⟨p, b, hr, hbest, hp, -⟩
  · rcases costResult_cases hl hb htCost hxCost h' with ⟨hr', -⟩ | ⟨p', b', -, hbest', -, -⟩
    · rw [hr, hr']
      trivial
    · rw [hbest, hbest'] at htotal
      cases htotal
  · rcases costResult_cases hl hb htCost hxCost h' with ⟨-, hbest'⟩ | ⟨p', b', hr', hbest', hp', -⟩
    · rw [hbest, hbest'] at htotal
      cases htotal
    · rw [hbest, hbest'] at htotal
      rw [hr, hr']
      show p.durationS = p'.durationS
      rw [hp, hp']
      exact congrArg Duration.finite (Option.some.inj htotal)

/-- From either of two links that lead to the node. -/
theorem origins_agree (hm : IsPseudoMetric haversine) (hl : LinksPositive g)
    (hb : Built haversine g data) {mode : String} (hmode : g.profiles mode = some data)
    (hs : AtNode g s atEnd n) (ht : AtNode g t tEnd n)
    (hcost : ∃ cost, data.linkCost.getD s.link none = some cost)
    (htCost : ∃ cost, data.linkCost.getD t.link none = some cost)
    (hxCost : ∃ cost, data.linkCost.getD x.link none = some cost)
    (h0 : 0 ≤ x.fraction) (h1 : x.fraction ≤ 1)
    (htoward : g.canTraverse data s.link atEnd = true)
    (htToward : g.canTraverse data t.link tEnd = true)
    (hplace : ¬ AtOnePlaceOfForwardLink g data s x)
    (htPlace : ¬ AtOnePlaceOfForwardLink g data t x) (maxExpansions : ℤ) :
    Agree (shortestPath haversine g mode s x maxExpansions)
      (shortestPath haversine g mode t x maxExpansions) := by
  obtain ⟨cost, hcost⟩ := hcost
  obtain ⟨tCost, htCost⟩ := htCost
  obtain ⟨xCost, hxCost⟩ := hxCost
  have hP : AStar.ArcConsistent (costProblem haversine g data x xCost) :=
    costProblem_arcConsistent hm hb
  have hpos : ∀ m, ∀ a ∈ (costProblem haversine g data x xCost).arcs m, 0 < a.cost :=
    fun m a ha => (step_of_arc hb.graph ha).cost_pos hl hb
  cases hrun : costRun haversine g data s x cost xCost maxExpansions with
  | none =>
    rw [shortestPath_of_none hmode hcost hxCost hrun]
    exact True.intro
  | some r =>
    cases hrun' : costRun haversine g data t x tCost xCost maxExpansions with
    | none =>
      rw [shortestPath_of_none hmode htCost hxCost hrun']
      exact agree_searchLimit _
    | some r' =>
      rw [shortestPath_of_some hmode hcost hxCost hrun,
        shortestPath_of_some hmode htCost hxCost hrun']
      have htotal : r.total = r'.total :=
        AStar.run_startsAt hP hpos (hs.startsAt hb hcost htoward) (ht.startsAt hb htCost htToward)
          (fun t' => hs.direct_exit hb hcost hxCost h0 h1 hplace)
          (fun t' => ht.direct_exit hb htCost hxCost h0 h1 htPlace) hrun hrun'
      obtain ⟨C, hexplored, -⟩ := AStar.run_explored hP _ (AStar.explored_begin ..) hrun
      obtain ⟨C', hexplored', -⟩ := AStar.run_explored hP _ (AStar.explored_begin ..) hrun'
      exact costResult_agree hl hb hcost htCost hxCost hexplored hexplored' htotal

end Origins

/-! ### As destinations -/

/-- From the origin to a node. -/
def Reaches (g : RoadGraph K) (data : ProfileData K) (origin : Snap K) (oCost : K) (n : ℕ)
    (total : K) : Prop :=
  ∃ m a r, Leaves g data origin oCost m a ∧ Route g data m n r ∧ total = a + r

theorem AtNode.snapOn (hs : AtNode g s atEnd n) (hm : IsPseudoMetric haversine)
    (hb : Built haversine g data) (hcost : data.linkCost.getD s.link none = some cost) :
    SnapOn haversine g data s := by
  have hlink := pricedLink hb hcost
  obtain ⟨rfl, hfraction, hpoint⟩ := hs
  cases atEnd with
  | false =>
    simp only [Bool.false_eq_true, if_false] at hfraction hpoint
    constructor
    · exact ⟨cost, hcost⟩
    · rw [hpoint, hm.self, hfraction, zero_mul]
    · rw [hpoint, hfraction, hm.symm, hlink.length, sub_zero, one_mul]
  | true =>
    simp only [if_true] at hfraction hpoint
    constructor
    · exact ⟨cost, hcost⟩
    · rw [hpoint, hfraction, hlink.length, one_mul]
    · rw [hpoint, hm.self, hfraction, sub_self, zero_mul]

omit [IsStrictOrderedRing K] in
/-- A link that leads away from the node is entered there. -/
theorem AtNode.enters (hs : AtNode g s atEnd n)
    (haway : g.canTraverse data s.link (!atEnd) = true) : Enters g data s cost n 0 := by
  obtain ⟨rfl, hfraction, -⟩ := hs
  cases atEnd with
  | false =>
    have henters : Enters g data s cost (g.link s.link).u (s.fraction * cost) := .forward haway
    rw [hfraction] at henters
    simpa using henters
  | true =>
    have henters : Enters g data s cost (g.link s.link).v ((1 - s.fraction) * cost) :=
      .backward haway
    rw [hfraction] at henters
    simpa using henters

/-- Where it is entered at its other end, it is travelled back to the node. -/
theorem AtNode.route_of_enters (hs : AtNode g s atEnd n) (hb : Built haversine g data)
    (hcost : data.linkCost.getD s.link none = some cost) {m : ℕ} {b : K}
    (h : Enters g data s cost m b) : Route g data m n b := by
  have hi := (pricedLink hb hcost).index
  obtain ⟨rfl, hfraction, -⟩ := hs
  cases h with
  | forward htraverse =>
    rw [hfraction]
    cases atEnd with
    | false => simpa using Route.here (g := g) _
    | true => simpa using (Step.forward hi hcost htraverse).route
  | backward htraverse =>
    rw [hfraction]
    cases atEnd with
    | false => simpa using (Step.backward hi hcost htraverse).route
    | true => simpa using Route.here (g := g) _

theorem AtNode.around_iff (hs : AtNode g s atEnd n) (hb : Built haversine g data)
    (hcost : data.linkCost.getD s.link none = some cost)
    (haway : g.canTraverse data s.link (!atEnd) = true) {total : K} :
    Around g data x s xCost cost total ↔ Reaches g data x xCost n total := by
  constructor
  · rintro ⟨k, m, a, r, b, hleaves, hroute, henters, rfl⟩
    exact ⟨k, a, r + b, hleaves, hroute.trans (hs.route_of_enters hb hcost henters),
      add_assoc ..⟩
  · rintro ⟨m, a, r, hleaves, hroute, rfl⟩
    exact ⟨m, n, a, r, 0, hleaves, hroute, hs.enters haway, (add_zero _).symm⟩

/-- Straight along the link is one way of reaching the node. -/
theorem AtNode.direct_reaches (hs : AtNode g s atEnd n)
    (h0 : 0 ≤ x.fraction) (h1 : x.fraction ≤ 1)
    (hplace : ¬ AtOnePlaceOfForwardLink g data x s) {total : K}
    (h : directCost g data x s xCost = some total) : Reaches g data x xCost n total := by
  suffices hleaves : Leaves g data x xCost n total from
    ⟨n, total, 0, hleaves, .here n, (add_zero _).symm⟩
  obtain ⟨hsame, hdirect⟩ := directCost_cases h
  obtain ⟨rfl, hfraction, -⟩ := hs
  unfold AtOnePlaceOfForwardLink at hplace
  rw [hfraction] at hdirect hplace
  rw [← hsame]
  cases atEnd with
  | false =>
    simp only [Bool.false_eq_true, if_false] at hdirect hplace ⊢
    rcases hdirect with ⟨hle, -, rfl⟩ | ⟨-, htraverse, rfl⟩
    · -- both are at the start of the link, so it may be left backward as well
      have hzero : x.fraction = 0 := le_antisymm hle h0
      have hbackward : g.canTraverse data x.link false = true := by
        by_contra hn
        exact hplace ⟨hsame, hzero, Bool.eq_false_iff.mpr hn⟩
      have hleaves : Leaves g data x xCost (g.link x.link).u (x.fraction * xCost) :=
        .backward hbackward
      rwa [hzero, zero_sub, neg_zero, zero_mul] at *
    · rw [sub_zero]
      exact .backward htraverse
  | true =>
    simp only [if_true] at hdirect ⊢
    rcases hdirect with ⟨-, htraverse, rfl⟩ | ⟨hlt, -, -⟩
    · exact .forward htraverse
    · exact absurd hlt (not_lt.mpr h1)

section Destinations
variable [FloorRing K]

/-- The search finds the cheapest way to the node. -/
theorem AtNode.meets (hs : AtNode g s atEnd n) (hm : IsPseudoMetric haversine)
    (hl : LinksPositive g) (hb : Built haversine g data) {mode : String}
    (hmode : g.profiles mode = some data)
    (hcost : ∃ cost, data.linkCost.getD s.link none = some cost)
    (hxCost : data.linkCost.getD x.link none = some xCost)
    (h0 : 0 ≤ x.fraction) (h1 : x.fraction ≤ 1)
    (haway : g.canTraverse data s.link (!atEnd) = true)
    (hplace : ¬ AtOnePlaceOfForwardLink g data x s) (maxExpansions : ℤ) :
    Meets (Reaches g data x xCost n) (shortestPath haversine g mode x s maxExpansions) := by
  obtain ⟨cost, hcost⟩ := hcost
  have hcases := shortestPath_cases hm hl hb hmode hxCost hcost (hs.snapOn hm hb hcost)
    maxExpansions
  simp only [hs.around_iff hb hcost haway] at hcases
  rcases hcases with ⟨r, least, hr, hleast, hfound, -, hmin⟩ | ⟨hr, -, hnone⟩ | ⟨hr, -⟩
  · rw [hr]
    exact ⟨least, hleast, hfound.elim (hs.direct_reaches h0 h1 hplace) id, hmin⟩
  · rw [hr]
    exact hnone
  · rw [hr]
    trivial

omit [Field K] [IsStrictOrderedRing K] [FloorRing K] in
/-- The least of the same totals. -/
theorem agree_of_meets {totals : K → Prop} {o o' : Except PathError (PathResult K)}
    (h : Meets totals o) (h' : Meets totals o') : Agree o o' := by
  match o, o' with
  | .ok r, .ok r' =>
    obtain ⟨least, hr, hfound, hmin⟩ := h
    obtain ⟨least', hr', hfound', hmin'⟩ := h'
    have heq : least = least' := le_antisymm (hmin _ hfound') (hmin' _ hfound)
    exact hr.trans ((congrArg Duration.finite heq).trans hr'.symm)
  | .ok r, .error .noPath =>
    obtain ⟨least, -, hfound, -⟩ := h
    exact absurd hfound (h' _)
  | .ok _, .error .searchLimit => exact agree_searchLimit _
  | .error .noPath, .ok r' =>
    obtain ⟨least, -, hfound, -⟩ := h'
    exact absurd hfound (h _)
  | .error .noPath, .error .noPath => trivial
  | .error .noPath, .error .searchLimit => exact agree_searchLimit _
  | .error .searchLimit, _ => exact True.intro
  | .error .lookup, _ => exact False.elim h
  | _, .error .lookup => exact False.elim h'

end Destinations

/-! ### The junction -/

variable [FloorRing K]

/-- Between the node and a place on a link that the profile may not use no path is found. -/
theorem no_duration (hm : IsPseudoMetric haversine) (hb : Built haversine g data)
    {mode : String} (hmode : g.profiles mode = some data)
    (hcost : ∃ cost, data.linkCost.getD s.link none = some cost) (hx : x.link < g.links.length)
    (hxCost : ¬ Usable data x) (h0 : 0 ≤ x.fraction) (h1 : x.fraction ≤ 1)
    (maxExpansions : ℤ) :
    (shortestPath haversine g mode s x maxExpansions = .error .noPath ∨
      shortestPath haversine g mode s x maxExpansions = .error .searchLimit) ∧
    (shortestPath haversine g mode x s maxExpansions = .error .noPath ∨
      shortestPath haversine g mode x s maxExpansions = .error .searchLimit) := by
  obtain ⟨cost, hcost⟩ := hcost
  have hxNone := linkCost_eq_none hb hx hxCost
  have hlinks : s.link ≠ x.link := by
    intro heq
    exact hxCost ⟨cost, heq ▸ hcost⟩
  constructor
  · exact shortestPath_unusable hm hb hmode (getElem?_of_getD hcost) hxNone hlinks
      (Or.inr ⟨rfl, h0, h1⟩)
  · exact shortestPath_unusable hm hb hmode hxNone (getElem?_of_getD hcost) hlinks.symm
      (Or.inl ⟨rfl, h0, h1⟩)

omit [Field K] [LinearOrder K] [IsStrictOrderedRing K] [FloorRing K] in
theorem agree_of_no_duration {o o' : Except PathError (PathResult K)}
    (h : o = .error .noPath ∨ o = .error .searchLimit)
    (h' : o' = .error .noPath ∨ o' = .error .searchLimit) : Agree o o' := by
  rcases h with rfl | rfl
  · rcases h' with rfl | rfl <;> exact True.intro
  · exact True.intro

/-- From two links that lead to a node, and to two links that lead away from it, the duration
is the same whichever of the two the snap at the node is on. The other snap may be on any link,
but not at the same end of the same forward one-way link as one of them, where staying is
found. -/
theorem shortestPath_junction (hm : IsPseudoMetric haversine) (segments : List (RoadSegment K))
    (profiles : List (TravelProfile K)) {mode : String} {data : ProfileData K} {n : ℕ}
    {s t x : Snap K} {atEnd tEnd : Bool}
    (hmode : (RoadGraph.build haversine segments profiles).profiles mode = some data)
    (hl : LinksPositive (RoadGraph.build haversine segments profiles))
    (hs : AtNode (RoadGraph.build haversine segments profiles) s atEnd n)
    (ht : AtNode (RoadGraph.build haversine segments profiles) t tEnd n)
    (hcost : ∃ cost, data.linkCost.getD s.link none = some cost)
    (htCost : ∃ cost, data.linkCost.getD t.link none = some cost)
    (hx : x.link < (RoadGraph.build haversine segments profiles).links.length)
    (h0 : 0 ≤ x.fraction) (h1 : x.fraction ≤ 1) (maxExpansions : ℤ) :
    ((RoadGraph.build haversine segments profiles).canTraverse data s.link atEnd = true →
      (RoadGraph.build haversine segments profiles).canTraverse data t.link tEnd = true →
      ¬ AtOnePlaceOfForwardLink (RoadGraph.build haversine segments profiles) data s x →
      ¬ AtOnePlaceOfForwardLink (RoadGraph.build haversine segments profiles) data t x →
      Agree
        (shortestPath haversine (RoadGraph.build haversine segments profiles) mode s x
          maxExpansions)
        (shortestPath haversine (RoadGraph.build haversine segments profiles) mode t x
          maxExpansions)) ∧
    ((RoadGraph.build haversine segments profiles).canTraverse data s.link (!atEnd) = true →
      (RoadGraph.build haversine segments profiles).canTraverse data t.link (!tEnd) = true →
      ¬ AtOnePlaceOfForwardLink (RoadGraph.build haversine segments profiles) data x s →
      ¬ AtOnePlaceOfForwardLink (RoadGraph.build haversine segments profiles) data x t →
      Agree
        (shortestPath haversine (RoadGraph.build haversine segments profiles) mode x s
          maxExpansions)
        (shortestPath haversine (RoadGraph.build haversine segments profiles) mode x t
          maxExpansions)) := by
  have hb := built_build hmode
  by_cases hxCost : Usable data x
  swap
  · obtain ⟨hto, hfrom⟩ := no_duration hm hb hmode hcost hx hxCost h0 h1 maxExpansions
    obtain ⟨hto', hfrom'⟩ := no_duration hm hb hmode htCost hx hxCost h0 h1 maxExpansions
    exact ⟨fun _ _ _ _ => agree_of_no_duration hto hto',
      fun _ _ _ _ => agree_of_no_duration hfrom hfrom'⟩
  constructor
  · intro htoward htToward hplace htPlace
    exact origins_agree hm hl hb hmode hs ht hcost htCost hxCost h0 h1 htoward htToward hplace
      htPlace maxExpansions
  · intro haway htAway hplace htPlace
    obtain ⟨xCost, hxCost⟩ := hxCost
    exact agree_of_meets
      (hs.meets hm hl hb hmode hcost hxCost h0 h1 haway hplace maxExpansions)
      (ht.meets hm hl hb hmode htCost hxCost h0 h1 htAway htPlace maxExpansions)

/-- On foot, where one one-way street ends and the next begins. -/
theorem shortestPath_junction_equator :
    Agree (shortestPath cityBlock equatorGraph "walking" ⟨0, 1, 1 / 500, 0, 0⟩
        ⟨1, 1 / 2, 3 / 1000, 0, 0⟩ 1000)
      (shortestPath cityBlock equatorGraph "walking" ⟨1, 0, 1 / 500, 0, 0⟩
        ⟨1, 1 / 2, 3 / 1000, 0, 0⟩ 1000) ∧
    Agree (shortestPath cityBlock equatorGraph "walking" ⟨1, 1 / 2, 3 / 1000, 0, 0⟩
        ⟨0, 1, 1 / 500, 0, 0⟩ 1000)
      (shortestPath cityBlock equatorGraph "walking" ⟨1, 1 / 2, 3 / 1000, 0, 0⟩
        ⟨1, 0, 1 / 500, 0, 0⟩ 1000) := by
  have hl : LinksPositive equatorGraph := by
    unfold LinksPositive
    decide +kernel
  have hs : AtNode equatorGraph ⟨0, 1, 1 / 500, 0, 0⟩ true 1 :=
    ⟨by decide +kernel, by decide +kernel, by decide +kernel⟩
  have ht : AtNode equatorGraph ⟨1, 0, 1 / 500, 0, 0⟩ false 1 :=
    ⟨by decide +kernel, by decide +kernel, by decide +kernel⟩
  have hmode : equatorGraph.profiles "walking" =
      some ⟨walking, linkCosts walking equatorGraph.links⟩ := rfl
  have husable : ∀ i < 2,
      ((linkCosts walking equatorGraph.links).getD i none).isSome = true := by
    decide +kernel
  have hfree : ∀ s x, ¬ AtOnePlaceOfForwardLink equatorGraph
      ⟨walking, linkCosts walking equatorGraph.links⟩ s x := by
    intro s x h
    simp [AtOnePlaceOfForwardLink, RoadGraph.canTraverse, walking] at h
  obtain ⟨hfrom, hto⟩ := shortestPath_junction (x := ⟨1, 1 / 2, 3 / 1000, 0, 0⟩)
    isMetric_cityBlock.pseudo [reverseStreet, equatorStreet] [walking] hmode hl hs ht
    (Option.isSome_iff_exists.mp (husable 0 (by omega)))
    (Option.isSome_iff_exists.mp (husable 1 (by omega))) (by decide +kernel) (by norm_num)
    (by norm_num) 1000
  exact ⟨hfrom rfl rfl (hfree _ _) (hfree _ _), hto rfl rfl (hfree _ _) (hfree _ _)⟩

/-- Two one-way streets out of one place. -/
def streetsOut : List (RoadSegment ℚ) :=
  [{ coordinates := [(0, 0), (1 / 500, 0)], direction := .forward },
    { coordinates := [(0, 0), (0, 1 / 500)], direction := .forward }]

/-- Along the first of them a path is found from its own start only. -/
theorem shortestPath_junction_streetsOut :
    ¬ ∀ haversine : Point ℚ → Point ℚ → ℚ, IsMetric haversine →
      ∀ (segments : List (RoadSegment ℚ)) (profiles : List (TravelProfile ℚ)) (mode : String)
        (data : ProfileData ℚ) (n : ℕ) (s t x : Snap ℚ) (atEnd tEnd : Bool)
        (maxExpansions : ℤ),
      (RoadGraph.build haversine segments profiles).profiles mode = some data →
      AtNode (RoadGraph.build haversine segments profiles) s atEnd n →
      AtNode (RoadGraph.build haversine segments profiles) t tEnd n →
      (∃ cost, data.linkCost.getD s.link none = some cost) →
      (∃ cost, data.linkCost.getD t.link none = some cost) →
      (∃ cost, data.linkCost.getD x.link none = some cost) →
      0 ≤ x.fraction → x.fraction ≤ 1 →
      Agree
        (shortestPath haversine (RoadGraph.build haversine segments profiles) mode s x
          maxExpansions)
        (shortestPath haversine (RoadGraph.build haversine segments profiles) mode t x
          maxExpansions) ∧
      Agree
        (shortestPath haversine (RoadGraph.build haversine segments profiles) mode x s
          maxExpansions)
        (shortestPath haversine (RoadGraph.build haversine segments profiles) mode x t
          maxExpansions) := by
  intro h
  have husable : ∀ i < 2, ((linkCosts driving
      (RoadGraph.build cityBlock streetsOut [driving]).links).getD i none).isSome = true := by
    decide +kernel
  have hagree := (h cityBlock isMetric_cityBlock streetsOut [driving] "driving" _ 0
    ⟨0, 0, 0, 0, 0⟩ ⟨1, 0, 0, 0, 0⟩ ⟨0, 1, 1 / 500, 0, 0⟩ false false 1000 rfl
    ⟨by decide +kernel, by decide +kernel, by decide +kernel⟩
    ⟨by decide +kernel, by decide +kernel, by decide +kernel⟩
    (Option.isSome_iff_exists.mp (husable 0 (by omega)))
    (Option.isSome_iff_exists.mp (husable 1 (by omega)))
    (Option.isSome_iff_exists.mp (husable 0 (by omega))) (by norm_num) (by norm_num)).1
  have hfirst : (shortestPath cityBlock (RoadGraph.build cityBlock streetsOut [driving])
      "driving" ⟨0, 0, 0, 0, 0⟩ ⟨0, 1, 1 / 500, 0, 0⟩ 1000).isOk = true := by
    decide +kernel
  have hsecond : shortestPath cityBlock (RoadGraph.build cityBlock streetsOut [driving])
      "driving" ⟨1, 0, 0, 0, 0⟩ ⟨0, 1, 1 / 500, 0, 0⟩ 1000 = .error .noPath := by
    decide +kernel
  rw [hsecond] at hagree
  cases hr : shortestPath cityBlock (RoadGraph.build cityBlock streetsOut [driving]) "driving"
      ⟨0, 0, 0, 0, 0⟩ ⟨0, 1, 1 / 500, 0, 0⟩ 1000 with
  | ok r =>
    rw [hr] at hagree
    exact hagree
  | error e =>
    rw [hr] at hfirst
    cases hfirst

end GeoPlatform.Geo
