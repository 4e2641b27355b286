import GeoPlatform.Geo.RoadSnap

/-! The mask of the main component: it marks the nodes of a component with the most links that
the profile may use, and every `find` on the way comes to an end. -/
namespace GeoPlatform.Geo
variable {K : Type} [Field K] [LinearOrder K]

/-! ### The mask, where a search that does not end is an error -/

section Checked
variable (nodeCount : ℕ)

def componentParents? (profile : TravelProfile K) (links : List (Link K)) : Option (ℕ → ℕ) :=
  UnionFind.uniteAll? nodeCount id
    ((links.filter fun l => profile.allowsClass l.roadClass).map fun l => (l.u, l.v))

def countLink? (st : (ℕ → ℕ) × List (ℕ × ℕ)) (x : Link K × Option K) :
    Option ((ℕ → ℕ) × List (ℕ × ℕ)) :=
  match x.2 with
  | none => some st
  | some _ => (UnionFind.find? nodeCount st.1 x.1.u).map fun (parent, root) =>
      (parent, OrderedMap.set st.2 root ((OrderedMap.get? st.2 root).getD 0 + 1))

def markNode? (mainRoot : ℕ) (st : (ℕ → ℕ) × List Bool) (node : ℕ) :
    Option ((ℕ → ℕ) × List Bool) :=
  (UnionFind.find? nodeCount st.1 node).map fun (parent, root) =>
    (parent, st.2 ++ [decide (root = mainRoot)])

end Checked

/-- Every `find` may take as many turns as there are nodes. -/
def RoadGraph.inMainComponent? (g : RoadGraph K) (data : ProfileData K) : Option (List Bool) :=
  let n := g.nodes.length
  (componentParents? n data.profile g.links).bind fun parent =>
    ((g.links.zip data.linkCost).foldlM (countLink? n) (parent, [])).bind fun (parent, sizes) =>
      match sizes.argmax Prod.snd with
      | none => some (List.replicate n false)
      | some (mainRoot, _) =>
        ((List.range n).foldlM (markNode? n mainRoot) (parent, [])).map Prod.snd

/-! ### The searches end -/

omit [Field K] [LinearOrder K] in
theorem countLink?_eq {root rank : ℕ → ℕ} {n : ℕ} {st : (ℕ → ℕ) × List (ℕ × ℕ)}
    (h : UnionFind.Forest (Finset.range n) st.1 root rank) {x : Link K × Option K}
    (hx : x.1.u < n) : countLink? n st x = some (countLink n st x) ∧
      UnionFind.Forest (Finset.range n) (countLink n st x).1 root rank := by
  obtain ⟨l, cost⟩ := x
  have hu : l.u ∈ Finset.range n := Finset.mem_range.mpr hx
  have hcard := (Finset.card_range n).le
  cases cost with
  | none => exact ⟨rfl, h⟩
  | some c =>
    simp only [countLink?, countLink, UnionFind.find?_eq h hu hcard, Option.map_some]
    exact ⟨trivial, (UnionFind.find_root h hu hcard).1⟩

theorem markNode?_eq {root rank : ℕ → ℕ} {n mainRoot node : ℕ} {st : (ℕ → ℕ) × List Bool}
    (h : UnionFind.Forest (Finset.range n) st.1 root rank) (hnode : node < n) :
    markNode? n mainRoot st node = some (markNode n mainRoot st node) ∧
      UnionFind.Forest (Finset.range n) (markNode n mainRoot st node).1 root rank := by
  have hmem : node ∈ Finset.range n := Finset.mem_range.mpr hnode
  have hcard := (Finset.card_range n).le
  unfold markNode? markNode
  rw [UnionFind.find?_eq h hmem hcard]
  exact ⟨rfl, (UnionFind.find_root h hmem hcard).1⟩

/-! ### Counting links -/

omit [Field K] [LinearOrder K] in
/-- One turn adds a link with a cost to the count of its root. -/
theorem countLink_sizes {root rank : ℕ → ℕ} {n : ℕ} {st : (ℕ → ℕ) × List (ℕ × ℕ)}
    (h : UnionFind.Forest (Finset.range n) st.1 root rank) {x : Link K × Option K}
    (hx : x.1.u < n) (r : ℕ) :
    (OrderedMap.get? (countLink n st x).2 r).getD 0 = (OrderedMap.get? st.2 r).getD 0 +
      if x.2.isSome ∧ root x.1.u = r then 1 else 0 := by
  obtain ⟨l, cost⟩ := x
  have hroot := (UnionFind.find_root h (Finset.mem_range.mpr hx) (Finset.card_range n).le).2
  cases cost with
  | none => simp [countLink]
  | some c =>
    simp only [countLink, hroot, OrderedMap.get?_set, Option.isSome_some, true_and]
    by_cases hr : r = root l.u
    · subst hr
      simp
    · simp [hr, Ne.symm hr]

/-- Each root has one entry, for one link at least. -/
structure Counted (sizes : List (ℕ × ℕ)) : Prop where
  keys : (sizes.map Prod.fst).Nodup
  positive : ∀ e ∈ sizes, 0 < e.2

omit [Field K] [LinearOrder K] in
theorem countLink_counted {n : ℕ} {st : (ℕ → ℕ) × List (ℕ × ℕ)} (h : Counted st.2)
    (x : Link K × Option K) : Counted (countLink n st x).2 := by
  unfold countLink
  split
  · exact h
  · refine ⟨OrderedMap.nodup_set h.keys _ _, fun e he => ?_⟩
    rcases OrderedMap.mem_set he with rfl | he
    · exact Nat.succ_pos _
    · exact h.positive e he

omit [Field K] [LinearOrder K] in
/-- After the loop each root has its links. -/
theorem countLinks_sizes {root rank : ℕ → ℕ} {n : ℕ} (xs : List (Link K × Option K))
    (hxs : ∀ x ∈ xs, x.1.u < n) (st : (ℕ → ℕ) × List (ℕ × ℕ))
    (h : UnionFind.Forest (Finset.range n) st.1 root rank) (r : ℕ) :
    (OrderedMap.get? (xs.foldl (countLink n) st).2 r).getD 0 = (OrderedMap.get? st.2 r).getD 0 +
      xs.countP fun x => x.2.isSome ∧ root x.1.u = r := by
  induction xs generalizing st with
  | nil => rfl
  | cons x xs ih =>
    have hx := hxs x (List.mem_cons_self ..)
    rw [List.foldl_cons, ih (fun y hy => hxs y (List.mem_cons_of_mem _ hy)) _
      (countLink?_eq h hx).2, countLink_sizes h hx, List.countP_cons]
    simp only [decide_eq_true_eq]
    omega

omit [Field K] [LinearOrder K] in
theorem countLinks_counted (n : ℕ) (xs : List (Link K × Option K))
    (st : (ℕ → ℕ) × List (ℕ × ℕ)) (h : Counted st.2) : Counted (xs.foldl (countLink n) st).2 := by
  induction xs generalizing st with
  | nil => exact h
  | cons x xs ih => exact ih _ (countLink_counted h x)

/-- A root with the most links, as `max` chooses it. -/
theorem Counted.argmax {sizes : List (ℕ × ℕ)} (h : Counted sizes) {r s : ℕ}
    (hmax : sizes.argmax Prod.snd = some (r, s)) :
    0 < s ∧ OrderedMap.get? sizes r = some s ∧
      ∀ q, (OrderedMap.get? sizes q).getD 0 ≤ s := by
  have hmem : (r, s) ∈ sizes := List.argmax_mem hmax
  refine ⟨h.positive _ hmem, OrderedMap.get?_of_mem h.keys hmem, fun q => ?_⟩
  cases hq : OrderedMap.get? sizes q with
  | none => exact Nat.zero_le s
  | some v => exact List.le_of_mem_argmax (OrderedMap.get?_eq_some hq) hmax

/-! ### The component with the most links -/

variable {haversine : Point K → Point K → K} {g : RoadGraph K} {data : ProfileData K}

/-- The links that the profile allows, of those whose first end has the root. -/
def linksOfRoot (g : RoadGraph K) (data : ProfileData K) (root : ℕ → ℕ) (r : ℕ) : ℕ :=
  g.links.countP fun l => data.profile.allowsClass l.roadClass ∧ root l.u = r

theorem countP_costs (hcosts : data.linkCost = linkCosts data.profile g.links) (root : ℕ → ℕ)
    (r : ℕ) : (g.links.zip data.linkCost).countP (fun x => x.2.isSome ∧ root x.1.u = r) =
      linksOfRoot g data root r := by
  have hzip : g.links.zip data.linkCost = g.links.map fun l => (l,
      if data.profile.allowsClass l.roadClass then
        some (l.length / (data.profile.speedKmh l.roadClass l.speedKmh / (36 / 10)))
        else none) := by
    rw [hcosts, linkCosts]
    simpa using List.zip_map' (f := id) (g := _) (l := g.links)
  rw [hzip, List.countP_map, linksOfRoot]
  refine List.countP_congr fun l _ => ?_
  cases hallowed : data.profile.allowsClass l.roadClass <;> simp [hallowed]

/-- Either no link is allowed and no node marked, or the marked nodes have the root of an allowed
link, and no root has more links. -/
theorem inMainComponent_cases (hg : g.WellFormed haversine)
    (hcosts : data.linkCost = linkCosts data.profile g.links) :
    ∃ root, UnionFind.Separates (allowedEnds g data) root ∧
      ((∀ l ∈ g.links, data.profile.allowsClass l.roadClass = false) ∧
          g.inMainComponent data = List.replicate g.nodes.length false ∨
        ∃ c ∈ g.links, data.profile.allowsClass c.roadClass = true ∧
          g.inMainComponent data =
            (List.range g.nodes.length).map (fun i => decide (root i = root c.u)) ∧
          ∀ r, linksOfRoot g data root r ≤ linksOfRoot g data root (root c.u)) := by
  obtain ⟨root, rank, hforest, hseparates⟩ :=
    UnionFind.uniteAll_spec (Finset.card_range g.nodes.length).le _ (allowedEnds_mem hg data)
  have hends : ∀ x ∈ g.links.zip data.linkCost, x.1.u < g.nodes.length :=
    fun x hx => (linkEnds_mem hg (List.of_mem_zip hx).1).1
  have hsizes := countLinks_sizes (g.links.zip data.linkCost) hends
    (componentParents g.nodes.length data.profile g.links, []) hforest
  have hcounted := countLinks_counted g.nodes.length (g.links.zip data.linkCost)
    (componentParents g.nodes.length data.profile g.links, []) ⟨by simp, by simp⟩
  have hforest' := countLinks_forest (g.links.zip data.linkCost) hends
    (componentParents g.nodes.length data.profile g.links, []) hforest
  simp only [countP_costs hcosts, OrderedMap.get?_nil, Option.getD_none, Nat.zero_add] at hsizes
  refine ⟨root, hseparates, ?_⟩
  unfold RoadGraph.inMainComponent
  simp only
  generalize (g.links.zip data.linkCost).foldl (countLink g.nodes.length)
    (componentParents g.nodes.length data.profile g.links, []) = st at hsizes hcounted hforest' ⊢
  cases hmax : st.2.argmax Prod.snd with
  | none =>
    refine Or.inl ⟨fun l hl => ?_, rfl⟩
    have hzero := hsizes (root l.u)
    rw [List.argmax_eq_none.mp hmax, OrderedMap.get?_nil, Option.getD_none, eq_comm, linksOfRoot,
      List.countP_eq_zero] at hzero
    simpa using hzero l hl
  | some main =>
    obtain ⟨mainRoot, s⟩ := main
    obtain ⟨hpos, hget, hle⟩ := hcounted.argmax hmax
    have hmain : linksOfRoot g data root mainRoot = s := by
      rw [← hsizes, hget, Option.getD_some]
    obtain ⟨c, hc, hroot⟩ := List.countP_pos_iff.mp (hmain ▸ hpos :
      0 < linksOfRoot g data root mainRoot)
    simp only [Bool.decide_and, Bool.decide_eq_true, Bool.and_eq_true, decide_eq_true_eq] at hroot
    refine Or.inr ⟨c, hc, hroot.1, ?_, fun r => ?_⟩
    · rw [hroot.2]
      exact markNodes_eq (fun i hi => List.mem_range.mp hi) hforest'
    · rw [hroot.2, hmain, ← hsizes]
      exact hle r

theorem inMainComponent?_eq (hg : g.WellFormed haversine) (data : ProfileData K) :
    g.inMainComponent? data = some (g.inMainComponent data) := by
  have hcard := (Finset.card_range g.nodes.length).le
  obtain ⟨root, rank, hforest, -⟩ := UnionFind.uniteAll_spec hcard _ (allowedEnds_mem hg data)
  have hparents : componentParents? g.nodes.length data.profile g.links =
      some (componentParents g.nodes.length data.profile g.links) :=
    UnionFind.uniteAll?_eq hcard _ (allowedEnds_mem hg data)
  have hends : ∀ x ∈ g.links.zip data.linkCost, x.1.u < g.nodes.length :=
    fun x hx => (linkEnds_mem hg (List.of_mem_zip hx).1).1
  have hcounts : (g.links.zip data.linkCost).foldlM (countLink? g.nodes.length)
        (componentParents g.nodes.length data.profile g.links, []) =
      some ((g.links.zip data.linkCost).foldl (countLink g.nodes.length)
        (componentParents g.nodes.length data.profile g.links, [])) :=
    (Loops.foldlM_eq_some_of_forall
      (fun st => UnionFind.Forest (Finset.range g.nodes.length) st.1 root rank) hforest
      fun st hst x hx => countLink?_eq hst (hends x hx)).1
  have hforest' := countLinks_forest (g.links.zip data.linkCost) hends
    (componentParents g.nodes.length data.profile g.links, []) hforest
  unfold RoadGraph.inMainComponent? RoadGraph.inMainComponent
  simp only [hparents, hcounts, Option.bind_some]
  generalize (g.links.zip data.linkCost).foldl (countLink g.nodes.length)
    (componentParents g.nodes.length data.profile g.links, []) = st at hforest' ⊢
  cases st.2.argmax Prod.snd with
  | none => rfl
  | some main =>
    have hmarks : (List.range g.nodes.length).foldlM (markNode? g.nodes.length main.1) (st.1, []) =
        some ((List.range g.nodes.length).foldl (markNode g.nodes.length main.1) (st.1, [])) :=
      (Loops.foldlM_eq_some_of_forall
        (fun st => UnionFind.Forest (Finset.range g.nodes.length) st.1 root rank) hforest'
        fun st hst node hnode => markNode?_eq hst (List.mem_range.mp hnode)).1
    simp only [hmarks, Option.map_some]

open Classical in
/-- The links that the profile allows in the component of a node. -/
noncomputable def componentLinks (g : RoadGraph K) (data : ProfileData K) (node : ℕ) : ℕ :=
  g.links.countP fun l => data.profile.allowsClass l.roadClass ∧
    UnionFind.Connected (allowedEnds g data) l.u node

theorem componentLinks_eq {root : ℕ → ℕ} (h : UnionFind.Separates (allowedEnds g data) root)
    (node : ℕ) : componentLinks g data node = linksOfRoot g data root (root node) := by
  classical
  unfold componentLinks linksOfRoot
  refine List.countP_congr fun l _ => ?_
  simp only [decide_eq_true_eq, h l.u node]

variable [FloorRing K]

/-- The mask of `_build_profile`: every search ends; without a link that the profile allows no
node is marked, and otherwise the marked nodes are those connected with a node whose component has
the most such links. -/
theorem inMainComponent_exact (haversine : Point K → Point K → K)
    (segments : List (RoadSegment K)) (profiles : List (TravelProfile K))
    (profile : TravelProfile K) :
    let g := RoadGraph.build haversine segments profiles
    let data : ProfileData K := ⟨profile, linkCosts profile g.links⟩
    g.inMainComponent? data = some (g.inMainComponent data) ∧
      (g.inMainComponent data).length = g.nodes.length ∧
      ((∀ l ∈ g.links, profile.allowsClass l.roadClass = false) →
        ∀ node < g.nodes.length, (g.inMainComponent data)[node]? = some false) ∧
      ((∃ l ∈ g.links, profile.allowsClass l.roadClass = true) →
        ∃ chosen < g.nodes.length,
          (∀ node < g.nodes.length, (g.inMainComponent data)[node]? = some true ↔
            UnionFind.Connected (allowedEnds g data) node chosen) ∧
          ∀ node, componentLinks g data node ≤ componentLinks g data chosen) := by
  intro g data
  have hg : g.WellFormed haversine := build_wellFormed haversine segments profiles
  have hcosts : data.linkCost = linkCosts data.profile g.links := rfl
  obtain ⟨root, hseparates, hcases⟩ := inMainComponent_cases hg hcosts
  refine ⟨inMainComponent?_eq hg data, ?_⟩
  rcases hcases with ⟨hnone, hmask⟩ | ⟨c, hc, hallowed, hmask, hmost⟩
  · refine ⟨by simp [hmask], fun _ node hnode => by simp [hmask, hnode], ?_⟩
    rintro ⟨l, hl, hallowed⟩
    exact absurd hallowed (by rw [hnone l hl]; exact Bool.false_ne_true)
  · refine ⟨by simp [hmask], fun hnone => ?_, fun _ => ?_⟩
    · exact absurd hallowed (by rw [hnone c hc]; exact Bool.false_ne_true)
    · refine ⟨c.u, (linkEnds_mem hg hc).1, fun node hnode => ?_, fun node => ?_⟩
      · rw [← hseparates, hmask]
        simp [hnode]
      · rw [componentLinks_eq hseparates, componentLinks_eq hseparates]
        exact hmost _

end GeoPlatform.Geo
