import GeoPlatform.Geo.RoadRoutes
import Mathlib.Data.List.Nodup

/-! `_build_adjacency`: the slots of a node are the ends of links at it, each once. -/
namespace GeoPlatform.Geo
variable {K : Type} [Field K] [LinearOrder K] {haversine : Point K → Point K → K}
variable {g : RoadGraph K}

/-- `_build_adjacency` where an index out of range is an error. -/
def buildAdjacency? (nodeCount : ℕ) (links : List (Link K)) : Option (Csr.Rows (ℕ × Bool)) :=
  Csr.build? (0, false) nodeCount (linkEnds links)

omit [Field K] [LinearOrder K] in
theorem snd_linkEnds (links : List (Link K)) :
    (linkEnds links).map Prod.snd =
      (List.range links.length).flatMap fun i => [(i, true), (i, false)] := by
  have hindex : links.zipIdx.map Prod.snd = List.range links.length := by
    rw [List.zipIdx_map_snd, List.range_eq_range']
  rw [← hindex, List.flatMap_map, linkEnds, List.map_flatMap]
  rfl

omit [Field K] [LinearOrder K] in
theorem nodup_snd_linkEnds (links : List (Link K)) : ((linkEnds links).map Prod.snd).Nodup := by
  rw [snd_linkEnds, List.nodup_flatMap]
  refine ⟨fun i _ => by simp, ?_⟩
  refine List.nodup_range.imp fun {i j} hij => ?_
  simp [Function.onFun, Ne.symm hij]

/-- No entry comes twice in a row. -/
theorem nodup_row (hg : g.WellFormed haversine) (n : ℕ) : (g.arcs.row (0, false) n).Nodup := by
  rw [row_eq hg]
  exact (nodup_snd_linkEnds g.links).sublist (List.filter_sublist.map _)

theorem count_row (hg : g.WellFormed haversine) {i : ℕ} {l : Link K} (hl : g.links[i]? = some l)
    (forward : Bool) :
    (g.arcs.row (0, false) (if forward then l.u else l.v)).count (i, forward) = 1 := by
  apply List.count_eq_one_of_mem (nodup_row hg _)
  rw [row_eq hg, Csr.mem_rowItems, mem_linkEnds]
  exact ⟨l, hl, rfl⟩

variable [FloorRing K]

/-- The adjacency of a graph that `build` makes: every index is in range, a node's slots hold the
ends of links at it, each once, and nothing else, and every slot belongs to one node. -/
theorem adjacency_exact (haversine : Point K → Point K → K) (segments : List (RoadSegment K))
    (profiles : List (TravelProfile K)) :
    let g := RoadGraph.build haversine segments profiles
    buildAdjacency? g.nodes.length g.links = some g.arcs ∧
      (∀ i l, g.links[i]? = some l → (g.arcs.row (0, false) l.u).count (i, true) = 1 ∧
        (g.arcs.row (0, false) l.v).count (i, false) = 1) ∧
      (∀ n i forward, (i, forward) ∈ g.arcs.row (0, false) n →
        ∃ l, g.links[i]? = some l ∧ n = if forward then l.u else l.v) ∧
      (∀ n slot, g.arcs.Holds n slot → slot < g.arcs.items.length) ∧
      ∀ slot < g.arcs.items.length, ∃! n, n < g.nodes.length ∧ g.arcs.Holds n slot := by
  intro g
  have hg : g.WellFormed haversine := build_wellFormed haversine segments profiles
  have hends := linkEnds_lt hg
  refine ⟨?_, fun i l hl => ?_, fun n i forward h => ?_, fun n slot h => ?_, fun slot h => ?_⟩
  · rw [hg.arcs]
    exact Csr.build?_eq _ hends
  · exact ⟨count_row hg hl true, count_row hg hl false⟩
  · rwa [row_eq hg, Csr.mem_rowItems, mem_linkEnds] at h
  · rw [hg.arcs] at h ⊢
    exact Csr.holds_lt hends _ h
  · rw [hg.arcs] at h ⊢
    exact Csr.exists_unique_holds hends _ h

end GeoPlatform.Geo
