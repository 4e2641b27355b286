import GeoPlatform.Library.Csr
import Mathlib.Algebra.Order.Floor.Ring
import Mathlib.Algebra.Order.Field.Basic
import Mathlib.Tactic

/-! The road graph (`services/geo/road_graph.py`) in exact arithmetic: numbers are in an
ordered field `K` with a floor, and `haversine_m` is a parameter. -/
namespace GeoPlatform.Geo
variable {K : Type} [Field K] [LinearOrder K] [FloorRing K]

-- Modules on real numbers and on rings read their numerals through these named instances.
theorem atLeastTwo_two : Nat.AtLeastTwo 2 := inferInstance

theorem atLeastTwo_three : Nat.AtLeastTwo 3 := inferInstance

theorem atLeastTwo_hundred : Nat.AtLeastTwo 100 := inferInstance

/-! ### Points -/

/-- Longitude and latitude. -/
abbrev Point (K : Type) := K × K

def COORDINATE_PRECISION : ℕ := 1000000

/-- Python's `round`: ties go to the even integer. -/
def roundHalfEven (x : K) : ℤ :=
  if x - ⌊x⌋ < 1 / 2 then ⌊x⌋
  else if 1 / 2 < x - ⌊x⌋ then ⌊x⌋ + 1
  else if Even ⌊x⌋ then ⌊x⌋ else ⌊x⌋ + 1

/-- Rounds to seven decimals. -/
def roundCoordinate (x : K) : K := roundHalfEven (x * 10 ^ 7) / 10 ^ 7

def nodeKey (p : Point K) : ℤ × ℤ :=
  (roundHalfEven (p.1 * COORDINATE_PRECISION), roundHalfEven (p.2 * COORDINATE_PRECISION))

/-- Great-circle distance, as far as the search relies on it. -/
structure IsMetric (haversine : Point K → Point K → K) : Prop where
  self : ∀ p, haversine p p = 0
  eq_of_zero : ∀ p q, haversine p q = 0 → p = q
  symm : ∀ p q, haversine p q = haversine q p
  triangle : ∀ p q r, haversine p r ≤ haversine p q + haversine q r

/-- What the estimate needs of it: two points may be at distance zero, as the two sides of the
antimeridian are. -/
structure IsPseudoMetric (haversine : Point K → Point K → K) : Prop where
  self : ∀ p, haversine p p = 0
  symm : ∀ p q, haversine p q = haversine q p
  triangle : ∀ p q r, haversine p r ≤ haversine p q + haversine q r

omit [FloorRing K] in
theorem IsMetric.pseudo {haversine : Point K → Point K → K} (h : IsMetric haversine) :
    IsPseudoMetric haversine :=
  ⟨h.self, h.symm, h.triangle⟩

omit [FloorRing K] in
theorem IsPseudoMetric.nonneg [IsStrictOrderedRing K] {haversine : Point K → Point K → K}
    (h : IsPseudoMetric haversine) (p q : Point K) : 0 ≤ haversine p q := by
  have htriangle := h.triangle p q p
  rw [h.self, h.symm q p] at htriangle
  linarith

/-! ### Segments, profiles and links -/

inductive Direction
  | both | forward | reverse
  deriving DecidableEq, Repr

structure RoadSegment (K : Type) where
  coordinates : List (Point K)
  roadClass : Option String := none
  direction : Direction := .both
  speedKmh : Option K := none

/-- The profiles are built with a positive top speed (`build_travel_profiles`). -/
structure TravelProfile (K : Type) [Zero K] [LT K] where
  mode : String
  excludedClasses : List String
  respectsOneway : Bool
  defaultSpeedKmh : K
  maxSpeedKmh : K
  classSpeedsKmh : Option (List (String × K)) := none
  useDataSpeed : Bool := false
  maxSpeed_pos : 0 < maxSpeedKmh

def TravelProfile.classSpeed (p : TravelProfile K) (roadClass : Option String) : Option K :=
  roadClass.bind fun c => p.classSpeedsKmh.bind (List.lookup c)

def TravelProfile.speedKmh (p : TravelProfile K) (roadClass : Option String)
    (dataSpeed : Option K) : K :=
  let speed :=
    match if p.useDataSpeed then dataSpeed.filter (0 < ·) else none with
    | some s => s
    | none => (p.classSpeed roadClass).getD p.defaultSpeedKmh
  min (max speed 1) p.maxSpeedKmh

def TravelProfile.allowsClass (p : TravelProfile K) : Option String → Bool
  | none => true
  | some c => c ∉ p.excludedClasses

structure Link (K : Type) where
  u : ℕ
  v : ℕ
  length : K
  dir : Direction
  roadClass : Option String
  speedKmh : Option K

/-- `linkCost` is `none` where the source has `math.inf`. -/
structure ProfileData (K : Type) [Zero K] [LT K] where
  profile : TravelProfile K
  linkCost : List (Option K)

def ProfileData.maxSpeedMps (data : ProfileData K) : K := data.profile.maxSpeedKmh / (36 / 10)

structure RoadGraph (K : Type) [Zero K] [LT K] where
  nodes : List (Point K)
  links : List (Link K)
  arcs : Csr.Rows (ℕ × Bool)
  profiles : String → Option (ProfileData K)

/-! ### Construction -/

structure Building (K : Type) where
  nodeIndex : ℤ × ℤ → Option ℕ := fun _ => none
  nodes : List (Point K) := []
  links : List (Link K) := []

def Building.addNode (b : Building K) (p : Point K) : Building K :=
  { b with
    nodeIndex := Function.update b.nodeIndex (nodeKey p) (some b.nodes.length)
    nodes := b.nodes ++ [p] }

def nodeFor (b : Building K) (p : Point K) : Building K × ℕ :=
  match b.nodeIndex (nodeKey p) with
  | some node => (b, node)
  | none => (b.addNode p, b.nodes.length)

def Building.addLink (haversine : Point K → Point K → K) (segment : RoadSegment K)
    (b : Building K) (previous node : ℕ) : Building K :=
  { b with
    links := b.links ++
      [{ u := previous, v := node
         length := haversine (b.nodes.getD previous 0) (b.nodes.getD node 0)
         dir := segment.direction
         roadClass := segment.roadClass
         speedKmh := segment.speedKmh }] }

/-- One turn of the loop over a segment's coordinates, with the node before. -/
def addVertex (haversine : Point K → Point K → K) (segment : RoadSegment K)
    (st : Building K × Option ℕ) (p : Point K) : Building K × Option ℕ :=
  let (b, node) := nodeFor st.1 p
  match st.2 with
  | none => (b, some node)
  | some previous =>
    if node ≠ previous then (b.addLink haversine segment previous node, some node)
    else (b, some node)

def addSegment (haversine : Point K → Point K → K) (b : Building K) (segment : RoadSegment K) :
    Building K :=
  (segment.coordinates.foldl (addVertex haversine segment) (b, none)).1

/-- Both ends of every link: the node, the link, and whether the link starts there. -/
def linkEnds (links : List (Link K)) : List (ℕ × ℕ × Bool) :=
  links.zipIdx.flatMap fun x => [(x.1.u, x.2, true), (x.1.v, x.2, false)]

def buildAdjacency (nodeCount : ℕ) (links : List (Link K)) : Csr.Rows (ℕ × Bool) :=
  Csr.build (0, false) nodeCount (linkEnds links)

/-- The costs that `_build_profile` computes. -/
def linkCosts (profile : TravelProfile K) (links : List (Link K)) : List (Option K) :=
  links.map fun l =>
    if profile.allowsClass l.roadClass then
      some (l.length / (profile.speedKmh l.roadClass l.speedKmh / (36 / 10)))
    else none

def buildProfiles (profiles : List (TravelProfile K)) (links : List (Link K)) :
    String → Option (ProfileData K) :=
  profiles.foldl (fun m p => Function.update m p.mode (some ⟨p, linkCosts p links⟩))
    fun _ => none

def RoadGraph.build (haversine : Point K → Point K → K) (segments : List (RoadSegment K))
    (profiles : List (TravelProfile K)) : RoadGraph K :=
  let b := segments.foldl (addSegment haversine) {}
  { nodes := b.nodes
    links := b.links
    arcs := buildAdjacency b.nodes.length b.links
    profiles := buildProfiles profiles b.links }

/-! ### What `build` guarantees -/

/-- A link joins two nodes at different places, and is as long as they are apart. -/
structure LinkOk (haversine : Point K → Point K → K) (nodes : List (Point K)) (l : Link K)
    (p q : Point K) : Prop where
  left : nodes[l.u]? = some p
  right : nodes[l.v]? = some q
  ne : p ≠ q
  length : l.length = haversine p q

structure RoadGraph.WellFormed (haversine : Point K → Point K → K) (g : RoadGraph K) : Prop where
  links : ∀ l ∈ g.links, ∃ p q, LinkOk haversine g.nodes l p q
  arcs : g.arcs = buildAdjacency g.nodes.length g.links
  profiles : ∀ mode data, g.profiles mode = some data →
    data.linkCost = linkCosts data.profile g.links

structure Building.Ok (haversine : Point K → Point K → K) (b : Building K) : Prop where
  index : ∀ k i, b.nodeIndex k = some i ↔ ∃ p, b.nodes[i]? = some p ∧ nodeKey p = k
  links : ∀ l ∈ b.links, ∃ p q, LinkOk haversine b.nodes l p q

variable {haversine : Point K → Point K → K}

omit [Field K] [LinearOrder K] [FloorRing K] in
theorem LinkOk.mono {nodes nodes' : List (Point K)} {l : Link K} {p q : Point K}
    (hnodes : nodes <+: nodes') (h : LinkOk haversine nodes l p q) :
    LinkOk haversine nodes' l p q := by
  have hget : ∀ (i : ℕ) (x : Point K), nodes[i]? = some x → nodes'[i]? = some x := by
    intro i x hx
    obtain ⟨t, rfl⟩ := hnodes
    rw [List.getElem?_append_left (List.getElem?_eq_some_iff.mp hx).1, hx]
  exact ⟨hget _ _ h.left, hget _ _ h.right, h.ne, h.length⟩

theorem addNode_ok {b : Building K} (h : b.Ok haversine) {p : Point K}
    (hk : b.nodeIndex (nodeKey p) = none) : (b.addNode p).Ok haversine := by
  refine ⟨fun k i => ?_, fun l hl => ?_⟩
  · rcases Nat.lt_trichotomy i b.nodes.length with hlt | rfl | hgt
    · have hold : (b.addNode p).nodes[i]? = b.nodes[i]? := List.getElem?_append_left hlt
      rw [hold, ← h.index]
      by_cases hkp : k = nodeKey p
      · subst hkp
        simp [Building.addNode, hk, hlt.ne']
      · simp only [Building.addNode, Function.update_of_ne hkp]
    · have hnew : (b.addNode p).nodes[b.nodes.length]? = some p := by
        simp [Building.addNode]
      rw [hnew]
      by_cases hkp : k = nodeKey p
      · subst hkp
        simp [Building.addNode]
      · have hnone : b.nodeIndex k ≠ some b.nodes.length := by
          intro hi
          obtain ⟨q, hq, -⟩ := (h.index _ _).mp hi
          exact lt_irrefl _ (List.getElem?_eq_some_iff.mp hq).1
        constructor
        · intro hi
          exact absurd ((Function.update_of_ne hkp ..).symm.trans hi) hnone
        · rintro ⟨q, hq, rfl⟩
          exact absurd (congrArg nodeKey (Option.some.inj hq)).symm hkp
    · have hnone : (b.addNode p).nodes[i]? = none := by
        apply List.getElem?_eq_none
        simpa [Building.addNode] using hgt
      have hindex : (b.addNode p).nodeIndex k ≠ some i := by
        intro hi
        by_cases hkp : k = nodeKey p
        · subst hkp
          simp only [Building.addNode, Function.update_self, Option.some.injEq] at hi
          omega
        · obtain ⟨q, hq, -⟩ := (h.index _ _).mp ((Function.update_of_ne hkp ..).symm.trans hi)
          have hlt := (List.getElem?_eq_some_iff.mp hq).1
          omega
      simp [hnone, hindex]
  · obtain ⟨q, r, hok⟩ := h.links l hl
    exact ⟨q, r, hok.mono (List.prefix_append ..)⟩

theorem nodeFor_ok {b : Building K} (h : b.Ok haversine) (p : Point K) :
    (nodeFor b p).1.Ok haversine ∧ b.nodes <+: (nodeFor b p).1.nodes ∧
      ∃ q, (nodeFor b p).1.nodes[(nodeFor b p).2]? = some q := by
  unfold nodeFor
  split
  · case _ node hk =>
    obtain ⟨q, hq, -⟩ := (h.index _ _).mp hk
    exact ⟨h, List.prefix_refl _, q, hq⟩
  · case _ hk => exact ⟨addNode_ok h hk, List.prefix_append .., p, by simp [Building.addNode]⟩

theorem addLink_ok {b : Building K} (h : b.Ok haversine) (segment : RoadSegment K)
    {previous node : ℕ} {p q : Point K} (hp : b.nodes[previous]? = some p)
    (hq : b.nodes[node]? = some q) (hne : node ≠ previous) :
    (b.addLink haversine segment previous node).Ok haversine := by
  refine ⟨h.index, fun l hl => ?_⟩
  rcases List.mem_append.mp hl with hl | hl
  · exact h.links l hl
  · rw [List.mem_singleton.mp hl]
    -- two nodes at one place would have one key, and so one index
    have hpq : p ≠ q := by
      intro heq
      have hsame := (h.index (nodeKey p) node).mpr ⟨q, hq, by rw [heq]⟩
      rw [(h.index (nodeKey p) previous).mpr ⟨p, hp, rfl⟩] at hsame
      exact hne (Option.some.inj hsame).symm
    refine ⟨p, q, hp, hq, hpq, ?_⟩
    simp [List.getD_eq_getElem?_getD, hp, hq]

theorem addVertex_ok (segment : RoadSegment K) {st : Building K × Option ℕ}
    (h : st.1.Ok haversine) (hprevious : ∀ i ∈ st.2, ∃ p, st.1.nodes[i]? = some p)
    (p : Point K) :
    (addVertex haversine segment st p).1.Ok haversine ∧
      ∀ i ∈ (addVertex haversine segment st p).2,
        ∃ q, (addVertex haversine segment st p).1.nodes[i]? = some q := by
  obtain ⟨hok, hprefix, q, hq⟩ := nodeFor_ok h p
  unfold addVertex
  generalize nodeFor st.1 p = x at hok hprefix hq
  obtain ⟨b, node⟩ := x
  cases hst : st.2 with
  | none => exact ⟨hok, fun i hi => ⟨q, by rwa [← Option.some.inj hi]⟩⟩
  | some previous =>
    obtain ⟨r, hr⟩ := hprevious previous hst
    obtain ⟨t, ht⟩ := hprefix
    have hr' : b.nodes[previous]? = some r := by
      rw [← ht, List.getElem?_append_left (List.getElem?_eq_some_iff.mp hr).1, hr]
    by_cases hne : node ≠ previous
    · simp only [if_pos hne]
      exact ⟨addLink_ok hok segment hr' hq hne, fun i hi => ⟨q, by rwa [← Option.some.inj hi]⟩⟩
    · simp only [if_neg hne]
      exact ⟨hok, fun i hi => ⟨q, by rwa [← Option.some.inj hi]⟩⟩

theorem addSegment_ok {b : Building K} (h : b.Ok haversine) (segment : RoadSegment K) :
    (addSegment haversine b segment).Ok haversine := by
  have hfold : ∀ (ps : List (Point K)) (st : Building K × Option ℕ), st.1.Ok haversine →
      (∀ i ∈ st.2, ∃ p, st.1.nodes[i]? = some p) →
      (ps.foldl (addVertex haversine segment) st).1.Ok haversine := by
    intro ps
    induction ps with
    | nil => exact fun st hst _ => hst
    | cons p ps ih =>
      intro st hst hprevious
      obtain ⟨hok, hnext⟩ := addVertex_ok segment hst hprevious p
      exact ih _ hok hnext
  exact hfold _ _ h fun i hi => by cases hi

omit [FloorRing K] in
theorem buildProfiles_spec (profiles : List (TravelProfile K)) (links : List (Link K))
    {mode : String} {data : ProfileData K} (h : buildProfiles profiles links mode = some data) :
    data.linkCost = linkCosts data.profile links := by
  unfold buildProfiles at h
  induction profiles using List.reverseRecOn with
  | nil => cases h
  | append_singleton profiles p ih =>
    rw [List.foldl_append, List.foldl_cons, List.foldl_nil] at h
    by_cases hmode : mode = p.mode
    · rw [hmode, Function.update_self, Option.some.injEq] at h
      rw [← h]
    · rw [Function.update_of_ne hmode] at h
      exact ih h

/-- What `build` returns is well formed, whatever the segments and the profiles. -/
theorem build_wellFormed (haversine : Point K → Point K → K) (segments : List (RoadSegment K))
    (profiles : List (TravelProfile K)) :
    (RoadGraph.build haversine segments profiles).WellFormed haversine := by
  have hok : (segments.foldl (addSegment haversine) {}).Ok haversine := by
    have hfold : ∀ b : Building K, b.Ok haversine →
        (segments.foldl (addSegment haversine) b).Ok haversine := by
      induction segments with
      | nil => exact fun b hb => hb
      | cons segment segments ih => exact fun b hb => ih _ (addSegment_ok hb segment)
    exact hfold {} ⟨by simp, by simp⟩
  exact ⟨hok.links, rfl, fun mode data h => buildProfiles_spec profiles _ h⟩

end GeoPlatform.Geo
