import GeoPlatform.Geo.Geodesy
import GeoPlatform.Geo.RoadReach

/-! What `snap` finds. It looks at the links of the grid cells that the envelope overlaps, and
the envelope takes a degree to be longer than `haversine_m` does: a link within the distance may
be in none of these cells. -/
namespace GeoPlatform.Geo
variable {K : Type}

/-! ### The least of some distances -/

/-- The least distance of the usable links, where it is within the limit. -/
def Nearest [LinearOrder K] (usable : ℕ → Prop) (distance : ℕ → K) (maxDistanceM : K) :
    Option (Snap K) → Prop
  | none => ∀ l, usable l → maxDistanceM < distance l
  | some s => s.distanceM ≤ maxDistanceM ∧ (∃ l, usable l ∧ distance l = s.distanceM) ∧
      ∀ l, usable l → s.distanceM ≤ distance l

section Least
variable [LinearOrder K] {usable usable' near : ℕ → Prop} {distance : ℕ → K} {maxDistanceM : K}
variable {o : Option (Snap K)}

theorem Nearest.congr (h : Nearest usable distance maxDistanceM o)
    (hiff : ∀ l, usable l ↔ usable' l) : Nearest usable' distance maxDistanceM o := by
  rwa [← funext fun l => propext (hiff l)]

/-- One more usable link, whose distance does not beat the best so far. -/
theorem Nearest.keep {link : ℕ} (h : Nearest usable distance maxDistanceM o)
    (hnot : ¬ (distance link ≤ maxDistanceM ∧
      AStar.Below (distance link) (o.map Snap.distanceM))) :
    Nearest (fun l => l = link ∨ usable l) distance maxDistanceM o := by
  cases o with
  | none =>
    rintro l (rfl | hl)
    · exact not_le.mp fun hle => hnot ⟨hle, by simp [AStar.Below]⟩
    · exact h l hl
  | some s =>
    obtain ⟨hmax, ⟨l, hl, hs⟩, hleast⟩ := h
    refine ⟨hmax, ⟨l, Or.inr hl, hs⟩, ?_⟩
    rintro l (rfl | hl)
    · by_contra hlt
      have hlt := not_le.mp hlt
      exact hnot ⟨hlt.le.trans hmax, by simpa [AStar.Below] using hlt⟩
    · exact hleast l hl

theorem Nearest.replace {link : ℕ} {s : Snap K} (h : Nearest usable distance maxDistanceM o)
    (hs : s.distanceM = distance link) (hmax : distance link ≤ maxDistanceM)
    (hbelow : AStar.Below (distance link) (o.map Snap.distanceM)) :
    Nearest (fun l => l = link ∨ usable l) distance maxDistanceM (some s) := by
  refine ⟨hs.trans_le hmax, ⟨link, Or.inl rfl, hs.symm⟩, ?_⟩
  rintro l (rfl | hl)
  · exact hs.le
  · rw [hs]
    cases o with
    | none => exact hmax.trans (h l hl).le
    | some s' => exact (hbelow s'.distanceM rfl).le.trans (h.2.2 l hl)

/-- The least of those that are near is the least of all where one of the least is near, or
where none is within the limit. -/
theorem nearest_iff (h : Nearest (fun l => near l ∧ usable l) distance maxDistanceM o) :
    Nearest usable distance maxDistanceM o ↔
      (∀ l, usable l → maxDistanceM < distance l) ∨
      ∃ l, near l ∧ usable l ∧ ∀ l', usable l' → distance l ≤ distance l' := by
  constructor
  · intro hall
    cases o with
    | none => exact Or.inl hall
    | some s =>
      obtain ⟨-, ⟨l, ⟨hnear, hl⟩, hs⟩, -⟩ := h
      exact Or.inr ⟨l, hnear, hl, fun l' hl' => hs.trans_le (hall.2.2 l' hl')⟩
  · intro hcases
    cases o with
    | none =>
      rcases hcases with hnone | ⟨l, hnear, hl, hleast⟩
      · exact hnone
      · exact fun l' hl' => (h l ⟨hnear, hl⟩).trans_le (hleast l' hl')
    | some s =>
      obtain ⟨hmax, ⟨k, ⟨-, hk⟩, hs⟩, hnearest⟩ := h
      rcases hcases with hnone | ⟨l, hnear, hl, hleast⟩
      · exact absurd (hs.trans_le hmax) (not_le.mpr (hnone k hk))
      · exact ⟨hmax, ⟨k, hk, hs⟩, fun l' hl' => (hnearest l ⟨hnear, hl⟩).trans (hleast l' hl')⟩

end Least

variable [Field K] [LinearOrder K] [FloorRing K]

/-! ### The links of a cell -/

/-- The cells of a link's bounding box. -/
def linkCells (g : RoadGraph K) (cell : K) (l : Link K) : List (ℤ × ℤ) :=
  let p := g.node l.u
  let q := g.node l.v
  cellsBetween cell (min p.1 q.1, min p.2 q.2) (max p.1 q.1, max p.2 q.2)

theorem mem_cellsBetween {cell : K} {low high : Point K} {c : ℤ × ℤ} :
    c ∈ cellsBetween cell low high ↔
      (⌊low.1 / cell⌋ ≤ c.1 ∧ c.1 ≤ ⌊high.1 / cell⌋) ∧
        ⌊low.2 / cell⌋ ≤ c.2 ∧ c.2 ≤ ⌊high.2 / cell⌋ := by
  obtain ⟨cx, cy⟩ := c
  simp only [cellsBetween, List.mem_flatMap, List.mem_map, Int.mem_range_iff, Prod.mk.injEq,
    Int.lt_add_one_iff]
  constructor
  · rintro ⟨x, hx, y, hy, rfl, rfl⟩
    exact ⟨hx, hy⟩
  · rintro ⟨hx, hy⟩
    exact ⟨cx, hx, cy, hy, rfl, rfl⟩

theorem mem_addToGrid (g : RoadGraph K) (cell : K) (grid : ℤ × ℤ → List ℕ) (x : Link K × ℕ)
    {c : ℤ × ℤ} {i : ℕ} :
    i ∈ addToGrid g cell grid x c ↔ i ∈ grid c ∨ i = x.2 ∧ c ∈ linkCells g cell x.1 := by
  change i ∈ (linkCells g cell x.1).foldl
    (fun grid c => Function.update grid c (grid c ++ [x.2])) grid c ↔ _
  generalize linkCells g cell x.1 = cells
  induction cells generalizing grid with
  | nil => simp
  | cons c' cells ih =>
    rw [List.foldl_cons, ih]
    by_cases hc : c = c'
    · subst hc
      simp only [Function.update_self, List.mem_append, List.mem_cons]
      tauto
    · simp only [Function.update_of_ne hc, List.mem_cons, hc, false_or]

theorem mem_grid (g : RoadGraph K) (cell : K) {c : ℤ × ℤ} {i : ℕ} :
    i ∈ g.grid cell c ↔ i < g.links.length ∧ c ∈ linkCells g cell (g.link i) := by
  have hfold : ∀ (xs : List (Link K × ℕ)) (grid : ℤ × ℤ → List ℕ),
      i ∈ xs.foldl (addToGrid g cell) grid c ↔
        i ∈ grid c ∨ ∃ x ∈ xs, i = x.2 ∧ c ∈ linkCells g cell x.1 := by
    intro xs
    induction xs with
    | nil => simp
    | cons x xs ih =>
      intro grid
      rw [List.foldl_cons, ih, mem_addToGrid]
      simp only [List.mem_cons, exists_eq_or_imp]
      tauto
  unfold RoadGraph.grid
  rw [hfold]
  constructor
  · rintro (h | ⟨⟨l, j⟩, hmem, rfl, hc⟩)
    · cases h
    · have hl := List.mem_zipIdx_iff_getElem?.mp hmem
      refine ⟨(List.getElem?_eq_some_iff.mp hl).1, ?_⟩
      rwa [link_eq hl]
  · rintro ⟨hi, hc⟩
    have hl := List.getElem?_eq_getElem hi
    refine Or.inr ⟨(g.links[i], i), List.mem_zipIdx_iff_getElem?.mpr hl, rfl, ?_⟩
    rwa [link_eq hl] at hc

/-! ### The scan -/

/-- The distance that `project_onto_segment` gives for a link. -/
def linkDistance (haversine : Point K → Point K → K) (cosDeg : K → K) (g : RoadGraph K)
    (p : Point K) (link : ℕ) : K :=
  (projectOntoSegment haversine cosDeg p (g.node (g.link link).u) (g.node (g.link link).v)).2.2

/-- A cell of the link's bounding box is among those that the envelope overlaps. -/
def SharesCell (cosDeg : K → K) (g : RoadGraph K) (cell : K) (p : Point K) (maxDistanceM : K)
    (link : ℕ) : Prop :=
  ∃ c ∈ cellsBetween cell (bufferEnvelope cosDeg p maxDistanceM).1
    (bufferEnvelope cosDeg p maxDistanceM).2, c ∈ linkCells g cell (g.link link)

variable {haversine : Point K → Point K → K} {cosDeg : K → K} {g : RoadGraph K}
variable {data : ProfileData K} {inMain : List Bool} {p : Point K} {maxDistanceM : K}

/-- The best snap is the nearest of the usable links seen so far. -/
def Scanned (haversine : Point K → Point K → K) (cosDeg : K → K) (g : RoadGraph K)
    (data : ProfileData K) (inMain : List Bool) (p : Point K) (maxDistanceM : K)
    (st : List ℕ × Option (Snap K)) : Prop :=
  Nearest (fun l => l ∈ st.1 ∧ g.snappable data inMain l = true)
    (linkDistance haversine cosDeg g p) maxDistanceM st.2

omit [FloorRing K] in
/-- A usable link that has not been seen: it becomes the best snap, or does not beat it. -/
theorem snapLink_usable {st : List ℕ × Option (Snap K)} {link : ℕ} (hseen : link ∉ st.1)
    (husable : g.snappable data inMain link = true) :
    (snapLink haversine cosDeg g data inMain p maxDistanceM st link).1 = link :: st.1 ∧
      ((∃ s, (snapLink haversine cosDeg g data inMain p maxDistanceM st link).2 = some s ∧
        s.distanceM = linkDistance haversine cosDeg g p link ∧
        linkDistance haversine cosDeg g p link ≤ maxDistanceM ∧
        AStar.Below (linkDistance haversine cosDeg g p link) (st.2.map Snap.distanceM)) ∨
      (snapLink haversine cosDeg g data inMain p maxDistanceM st link).2 = st.2 ∧
        ¬ (linkDistance haversine cosDeg g p link ≤ maxDistanceM ∧
          AStar.Below (linkDistance haversine cosDeg g p link) (st.2.map Snap.distanceM))) := by
  unfold snapLink linkDistance
  simp only [if_neg hseen, husable, not_true_eq_false, if_false]
  generalize projectOntoSegment haversine cosDeg p _ _ = x
  split_ifs with hbetter
  · exact ⟨rfl, Or.inl ⟨_, rfl, rfl, hbetter⟩⟩
  · exact ⟨rfl, Or.inr ⟨rfl, hbetter⟩⟩

omit [FloorRing K] in
theorem Scanned.snapLink {st : List ℕ × Option (Snap K)}
    (h : Scanned haversine cosDeg g data inMain p maxDistanceM st) (link : ℕ) :
    Scanned haversine cosDeg g data inMain p maxDistanceM
        (snapLink haversine cosDeg g data inMain p maxDistanceM st link) ∧
      ∀ l, l ∈ (snapLink haversine cosDeg g data inMain p maxDistanceM st link).1 ↔
        l = link ∨ l ∈ st.1 := by
  by_cases hseen : link ∈ st.1
  · rw [show GeoPlatform.Geo.snapLink haversine cosDeg g data inMain p maxDistanceM st link = st
      from if_pos hseen]
    refine ⟨h, fun l => ⟨Or.inr, ?_⟩⟩
    rintro (rfl | hl)
    · exact hseen
    · exact hl
  by_cases husable : g.snappable data inMain link = true
  · obtain ⟨hlinks, hbest⟩ := snapLink_usable hseen husable
    refine ⟨?_, fun l => by rw [hlinks, List.mem_cons]⟩
    unfold Scanned
    rw [hlinks]
    have hcongr : ∀ l, (l = link ∨ l ∈ st.1 ∧ g.snappable data inMain l = true) ↔
        l ∈ link :: st.1 ∧ g.snappable data inMain l = true := by
      intro l
      rw [List.mem_cons]
      constructor
      · rintro (rfl | ⟨hl, hu⟩)
        · exact ⟨Or.inl rfl, husable⟩
        · exact ⟨Or.inr hl, hu⟩
      · rintro ⟨rfl | hl, hu⟩
        · exact Or.inl rfl
        · exact Or.inr ⟨hl, hu⟩
    rcases hbest with ⟨s, hs, hdistance, hmax, hbelow⟩ | ⟨hs, hnot⟩
    · rw [hs]
      exact (Nearest.replace h hdistance hmax hbelow).congr hcongr
    · rw [hs]
      exact (Nearest.keep h hnot).congr hcongr
  · rw [show GeoPlatform.Geo.snapLink haversine cosDeg g data inMain p maxDistanceM st link =
      (link :: st.1, st.2) from (if_neg hseen).trans (if_pos husable)]
    refine ⟨h.congr fun l => ?_, by simp⟩
    rw [List.mem_cons]
    constructor
    · exact fun hl => ⟨Or.inr hl.1, hl.2⟩
    · rintro ⟨rfl | hl, hu⟩
      · exact absurd hu husable
      · exact ⟨hl, hu⟩

omit [FloorRing K] in
theorem scan_spec (links : List ℕ) {st : List ℕ × Option (Snap K)}
    (h : Scanned haversine cosDeg g data inMain p maxDistanceM st) :
    Nearest (fun l => (l ∈ links ∨ l ∈ st.1) ∧ g.snappable data inMain l = true)
      (linkDistance haversine cosDeg g p) maxDistanceM
      (links.foldl (snapLink haversine cosDeg g data inMain p maxDistanceM) st).2 := by
  induction links generalizing st with
  | nil => exact h.congr fun l => by simp
  | cons link links ih =>
    obtain ⟨hnext, hmem⟩ := h.snapLink link
    refine (ih hnext).congr fun l => ?_
    rw [hmem, List.mem_cons]
    tauto

variable [IsStrictOrderedRing K]

/-- `snap` finds the nearest of the usable links that share a cell with the envelope. -/
theorem snap_spec (cosDeg : K → K) (cell : K) (p : Point K) (maxDistanceM : K) {mode : String}
    (hb : Built haversine g data) (hmode : g.profiles mode = some data) :
    ∃ o, snap haversine cosDeg g cell mode p maxDistanceM = .ok o ∧
      Nearest (fun l => SharesCell cosDeg g cell p maxDistanceM l ∧
          g.snappable data (g.inMainComponent data) l = true)
        (linkDistance haversine cosDeg g p) maxDistanceM o := by
  unfold snap
  rw [hmode]
  refine ⟨_, rfl, ?_⟩
  have hempty : Scanned haversine cosDeg g data (g.inMainComponent data) p maxDistanceM
      ([], none) := by
    intro l hl
    cases hl.1
  refine (scan_spec _ hempty).congr fun l => ?_
  simp only [List.mem_flatMap, mem_grid]
  constructor
  · rintro ⟨⟨c, hc, -, hl⟩ | hnil, husable⟩
    · exact ⟨⟨c, hc, hl⟩, husable⟩
    · cases hnil
  · rintro ⟨⟨c, hc, hl⟩, husable⟩
    have hcost : (data.linkCost.getD l none).isSome = true :=
      (Bool.and_eq_true_iff.mp husable).1
    obtain ⟨cost, hcost⟩ := Option.isSome_iff_exists.mp hcost
    exact ⟨Or.inl ⟨c, hc, (pricedLink hb hcost).index, hl⟩, husable⟩

/-- `snap` finds the nearest usable link, if there is one within the limit, just where the
envelope reaches a cell of such a link. -/
theorem snap_nearest_iff (haversine : Point K → Point K → K) (cosDeg : K → K)
    (segments : List (RoadSegment K)) (profiles : List (TravelProfile K)) (cell : K)
    (mode : String) (p : Point K) (maxDistanceM : K) (data : ProfileData K)
    (hmode : (RoadGraph.build haversine segments profiles).profiles mode = some data) :
    let g := RoadGraph.build haversine segments profiles
    let usable := fun l => g.snappable data (g.inMainComponent data) l = true
    let distance := linkDistance haversine cosDeg g p
    (∃ o, snap haversine cosDeg g cell mode p maxDistanceM = .ok o ∧
        Nearest usable distance maxDistanceM o) ↔
      (∀ l, usable l → maxDistanceM < distance l) ∨
        ∃ l, SharesCell cosDeg g cell p maxDistanceM l ∧ usable l ∧
          ∀ l', usable l' → distance l ≤ distance l' := by
  intro g usable distance
  obtain ⟨o, ho, hnear⟩ := snap_spec cosDeg cell p maxDistanceM (built_build hmode) hmode
  rw [← nearest_iff hnear]
  constructor
  · rintro ⟨o', ho', hnearest⟩
    rw [ho] at ho'
    rwa [Except.ok.inj ho']
  · exact fun hnearest => ⟨o, ho, hnearest⟩

/-! ### On the meridian -/

open Real

noncomputable def cosDegrees (degrees : ℝ) : ℝ := cos (radians degrees)

noncomputable def meridianData : ProfileData ℝ :=
  ⟨drivingOnEarth, linkCosts drivingOnEarth meridianGraph.links⟩

theorem meridianGraph_profiles : meridianGraph.profiles "driving" = some meridianData :=
  rfl

theorem link_meridian : meridianGraph.link 0 =
    ⟨0, 1, haversineM southEnd northEnd, .forward, none, none⟩ := by
  simp [RoadGraph.link, meridianGraph_eq.2]

/-- The one street of the graph is usable. -/
theorem snappable_meridian {l : ℕ} :
    meridianGraph.snappable meridianData (meridianGraph.inMainComponent meridianData) l = true ↔
      l = 0 := by
  have hcosts : meridianData.linkCost.length = 1 := by
    simp [meridianData, linkCosts, meridianGraph_eq.2]
  constructor
  · intro h
    by_contra hl
    rw [RoadGraph.snappable, List.getD_eq_default _ _ (by omega)] at h
    simp at h
  · rintro rfl
    simp [RoadGraph.snappable, RoadGraph.inMainComponent, link_meridian, meridianData,
      meridianGraph_eq, linkCosts, TravelProfile.allowsClass, componentParents, countLink,
      markNode, UnionFind.uniteAll, UnionFind.union, UnionFind.find, OrderedMap.set,
      OrderedMap.get?, List.argmax, List.argAux, List.range_succ, Function.update]

theorem linkCells_meridian {c : ℤ × ℤ} :
    c ∈ linkCells meridianGraph (1 / 200) (meridianGraph.link 0) ↔
      c.1 = 0 ∧ 1 ≤ c.2 ∧ c.2 ≤ 2 := by
  have hsouth : ⌊(1 / 200 : ℝ) / (1 / 200)⌋ = 1 := by
    norm_num
  have hnorth : ⌊(1 / 100 : ℝ) / (1 / 200)⌋ = 2 := by
    norm_num
  have hnode : meridianGraph.node 0 = southEnd ∧ meridianGraph.node 1 = northEnd := by
    simp [RoadGraph.node, meridianGraph_eq.1]
  have hle : southEnd.2 ≤ northEnd.2 := by
    norm_num [southEnd, northEnd]
  simp only [linkCells, link_meridian, hnode, mem_cellsBetween, min_eq_left hle, max_eq_right hle]
  simp only [southEnd, northEnd, hsouth, hnorth, min_self, max_self, zero_div, Int.floor_zero]
  omega

/-- From the south, the nearest point of the street is its south end. -/
theorem linkDistance_meridian {y : ℝ} (h0 : 0 ≤ y) (h : y < 1 / 200) :
    linkDistance haversineM cosDegrees meridianGraph (0, y) 0 =
      EARTH_RADIUS_M * radians (1 / 200 - y) := by
  have hnode : meridianGraph.node 0 = southEnd ∧ meridianGraph.node 1 = northEnd := by
    simp [RoadGraph.node, meridianGraph_eq.1]
  have habs : |1 / 200 - y| = 1 / 200 - y := abs_of_pos (sub_pos.mpr h)
  have hprojected : projectOntoSegment haversineM cosDegrees (0, y) southEnd northEnd =
      (0, southEnd, haversineM (0, y) southEnd) := by
    have hlength : ((1 : ℝ) / 100 - 1 / 200) * (1 / 100 - 1 / 200) ≠ 0 := by
      norm_num
    have hfraction : (y - 1 / 200) * ((1 : ℝ) / 100 - 1 / 200) /
        ((1 / 100 - 1 / 200) * (1 / 100 - 1 / 200)) < 0 := by
      refine div_neg_of_neg_of_pos ?_ (by norm_num)
      nlinarith
    simp only [projectOntoSegment, southEnd, northEnd, sub_self, zero_mul, zero_add,
      if_neg hlength, if_pos hfraction, mul_zero, add_zero]
  unfold linkDistance
  rw [link_meridian, hnode.1, hnode.2, hprojected]
  show haversineM (0, y) (0, 1 / 200) = _
  rw [haversineM_meridian, habs]
  rw [habs]
  linarith

/-- The envelope around a point of the meridian reaches a cell of the street. -/
theorem sharesCell_meridian {y meters : ℝ} (hmeters : 0 ≤ meters) :
    SharesCell cosDegrees meridianGraph (1 / 200) (0, y) meters 0 ↔
      1 / 200 ≤ y + meters / 111320 ∧ y - meters / 111320 < 3 / 200 := by
  have hlon : 0 ≤ meters / ((111320 : ℝ) * max (1 / 100) (cosDegrees y)) :=
    div_nonneg hmeters (by positivity)
  have hcells : ∀ x : ℝ, x / (1 / 200) = 200 * x := by
    intro x
    ring
  simp only [SharesCell, mem_cellsBetween, linkCells_meridian, bufferEnvelope,
    METERS_PER_DEGREE_LAT, hcells]
  constructor
  · rintro ⟨c, ⟨-, hlow, hhigh⟩, -, hc1, hc2⟩
    have hlow := Int.floor_lt.mp (lt_of_le_of_lt (hlow.trans hc2) (by norm_num : (2 : ℤ) < 3))
    have hhigh := Int.le_floor.mp (hc1.trans hhigh)
    push_cast at hlow hhigh
    constructor <;> linarith
  · rintro ⟨hhigh, hlow⟩
    have hlow : ⌊200 * (y - meters / 111320)⌋ < 3 := Int.floor_lt.mpr (by push_cast; linarith)
    have hhigh : 1 ≤ ⌊200 * (y + meters / 111320)⌋ := Int.le_floor.mpr (by push_cast; linarith)
    have hle : ⌊200 * (y - meters / 111320)⌋ ≤ ⌊200 * (y + meters / 111320)⌋ := by
      have hlat : 0 ≤ meters / 111320 := by positivity
      exact Int.floor_mono (by linarith)
    refine ⟨(0, max 1 ⌊200 * (y - meters / 111320)⌋), ⟨⟨?_, ?_⟩, ?_⟩, rfl, ?_⟩
    · exact Int.floor_le_iff.mpr (by push_cast; linarith)
    · exact Int.le_floor.mpr (by push_cast; linarith)
    · constructor <;> omega
    · constructor <;> omega

theorem snap_nearest_meridian :
    ∃ o, snap haversineM cosDegrees meridianGraph (1 / 200) "driving" (0, 1 / 250) 500 = .ok o ∧
      Nearest (fun l => meridianGraph.snappable meridianData
          (meridianGraph.inMainComponent meridianData) l = true)
        (linkDistance haversineM cosDegrees meridianGraph (0, 1 / 250)) 500 o := by
  refine (snap_nearest_iff haversineM cosDegrees [meridianStreet] [drivingOnEarth] (1 / 200)
    "driving" (0, 1 / 250) 500 meridianData meridianGraph_profiles).mpr
    (Or.inr ⟨0, ?_, snappable_meridian.mpr rfl, fun l hl => ?_⟩)
  · exact (sharesCell_meridian (by norm_num)).mpr ⟨by norm_num, by norm_num⟩
  · rw [snappable_meridian.mp hl]

/-- The envelope ends south of the street, which is nearer than the limit. -/
theorem snap_nearest_misses :
    ¬ ∀ (segments : List (RoadSegment ℝ)) (profiles : List (TravelProfile ℝ)) (cell : ℝ)
        (mode : String) (p : Point ℝ) (maxDistanceM : ℝ) (data : ProfileData ℝ),
      0 < cell → |p.1| ≤ 180 → |p.2| ≤ 90 → 0 < maxDistanceM →
      (RoadGraph.build haversineM segments profiles).profiles mode = some data →
      let g := RoadGraph.build haversineM segments profiles
      ∃ o, snap haversineM cosDegrees g cell mode p maxDistanceM = .ok o ∧
        Nearest (fun l => g.snappable data (g.inMainComponent data) l = true)
          (linkDistance haversineM cosDegrees g p) maxDistanceM o := by
  intro h
  obtain ⟨o, ho, hnearest⟩ := h [meridianStreet] [drivingOnEarth] (1 / 200) "driving"
    (0, 253 / 500000) 500 meridianData (by norm_num) (by norm_num) (by norm_num [abs_of_pos])
    (by norm_num) meridianGraph_profiles
  obtain ⟨o', ho', hfound⟩ := snap_spec cosDegrees (1 / 200) (0, 253 / 500000) 500
    (built_build meridianGraph_profiles) meridianGraph_profiles
  have hdistance : linkDistance haversineM cosDegrees meridianGraph (0, 253 / 500000) 0 ≤ 500 := by
    rw [linkDistance_meridian (by norm_num) (by norm_num)]
    unfold EARTH_RADIUS_M radians
    linarith [pi_lt_d4]
  rw [ho', Except.ok.injEq] at ho
  subst ho
  cases o' with
  | none => exact absurd (hnearest 0 (snappable_meridian.mpr rfl)) (not_lt.mpr hdistance)
  | some s =>
    obtain ⟨-, ⟨l, ⟨hshares, husable⟩, -⟩, -⟩ := hfound
    rw [snappable_meridian.mp husable] at hshares
    have henvelope := ((sharesCell_meridian (by norm_num)).mp hshares).1
    norm_num at henvelope

end GeoPlatform.Geo
