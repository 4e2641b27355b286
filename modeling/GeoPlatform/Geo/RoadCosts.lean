import GeoPlatform.Geo.RoadSearch

/-! The search between snaps on links that the profile may use. Every number in it is finite,
so it is a search over these numbers, and `shortest_path` answers what that search finds. -/
namespace GeoPlatform.Geo
variable {K : Type} [Field K] [LinearOrder K]

/-! ### Finite costs -/

def directCost (g : RoadGraph K) (data : ProfileData K) (origin destination : Snap K)
    (oCost : K) : Option K :=
  if origin.link = destination.link then
    let forward := decide (origin.fraction ≤ destination.fraction)
    if g.canTraverse data origin.link forward then
      some (|destination.fraction - origin.fraction| * oCost)
    else none
  else none

def goalCosts (g : RoadGraph K) (data : ProfileData K) (destination : Snap K) (dCost : K) :
    ℕ → Option K :=
  let du := (g.link destination.link).u
  let dv := (g.link destination.link).v
  let atU : ℕ → Option K :=
    if g.canTraverse data destination.link true then
      Function.update (fun _ => none) du (some (destination.fraction * dCost))
    else fun _ => none
  if g.canTraverse data destination.link false then
    let extra := (1 - destination.fraction) * dCost
    Function.update atU dv (some (((atU dv).map (min · extra)).getD extra))
  else atU

def startCosts (g : RoadGraph K) (data : ProfileData K) (origin : Snap K) (oCost : K) :
    List (ℕ × K × ℕ) :=
  (if g.canTraverse data origin.link false then
    [((g.link origin.link).u, origin.fraction * oCost, origin.link)] else []) ++
  (if g.canTraverse data origin.link true then
    [((g.link origin.link).v, (1 - origin.fraction) * oCost, origin.link)] else [])

def costProblem (haversine : Point K → Point K → K) (g : RoadGraph K) (data : ProfileData K)
    (destination : Snap K) (dCost : K) : AStar.Problem ℕ ℕ K where
  arcs := g.arcsFrom data
  exit := goalCosts g data destination dCost
  h := fun n => haversine (g.node n) destination.point * (1 / data.maxSpeedMps)

/-- The run that `shortest_path` starts from the two snaps. -/
def costRun (haversine : Point K → Point K → K) (g : RoadGraph K) (data : ProfileData K)
    (origin destination : Snap K) (oCost dCost : K) (maxExpansions : ℤ) :
    Option (AStar.Search ℕ ℕ K) :=
  AStar.run (costProblem haversine g data destination dCost) maxExpansions.toNat
    (AStar.Search.begin (costProblem haversine g data destination dCost)
      (directCost g data origin destination oCost) (startCosts g data origin oCost))

def costResult [FloorRing K] (g : RoadGraph K) (origin destination : Snap K)
    (s : AStar.Search ℕ ℕ K) : Except PathError (PathResult K) :=
  pathResult g origin destination s.previous (s.best.map fun b => (.finite b.1, b.2))

variable {haversine : Point K → Point K → K} {g : RoadGraph K} {data : ProfileData K}
variable {origin destination : Snap K} {oCost dCost : K}

/-! ### They are the floats of the search -/

theorem directTotal_some : directTotal g data origin destination (some oCost) =
    (directCost g data origin destination oCost).map .finite := by
  unfold directTotal directCost
  split_ifs <;> simp [partCost, *]

omit [Field K] in
theorem merge_some (o : Option K) (x : K) :
    Option.merge min (o.map WithBot.some) (some (x : WithBot K)) =
      some (WithBot.some ((o.map (min · x)).getD x)) := by
  cases o with
  | none => rfl
  | some y => exact congrArg some (WithBot.coe_min y x).symm

theorem goals_some : goals g data destination (some dCost) =
    fun n => (goalCosts g data destination dCost n).map WithBot.some := by
  have hmap (f : ℕ → Option K) (n : ℕ) (x : K) :
      Function.update (fun m => (f m).map WithBot.some) n (some (WithBot.some x)) =
        fun m => (Function.update f n (some x) m).map WithBot.some := by
    funext m
    by_cases hmn : m = n
    · subst hmn
      simp
    · simp [Function.update_of_ne hmn]
  have hnone : (fun _ : ℕ => (none : Option (WithBot K))) =
      fun m => ((fun _ => none : ℕ → Option K) m).map WithBot.some := rfl
  unfold goals goalCosts
  simp only [partCost, Duration.score]
  rw [hnone]
  split_ifs <;> simp only [hmap, merge_some]

theorem startNodes_some : startNodes g data origin (some oCost) =
    (startCosts g data origin oCost).map fun x => (x.1, WithBot.some x.2.1, x.2.2) := by
  unfold startNodes startCosts
  split_ifs <;> simp [partCost, Duration.score]

theorem searchProblem_some {direct : Option (Duration K)} (hdirect : direct ≠ some .nan) :
    searchProblem haversine g data destination direct (some dCost) =
      (costProblem haversine g data destination dCost).map WithBot.some := by
  rw [searchProblem, if_neg hdirect, goals_some]
  rfl

/-! ### What is answered -/

theorem bestFound_map {s : AStar.Search ℕ ℕ K}
    (h : (directCost g data origin destination oCost).isSome → s.best.isSome) :
    bestFound ((directCost g data origin destination oCost).map .finite) (s.map WithBot.some) =
      s.best.map fun b => (.finite b.1, b.2) := by
  unfold bestFound
  cases hbest : s.best with
  | some b => simp [AStar.Search.map, hbest, Duration.ofScore]
  | none =>
    cases hdirect : directCost g data origin destination oCost with
    | none => simp [AStar.Search.map, hbest]
    | some t => simp [hbest, hdirect] at h

theorem getElem?_of_getD {i : ℕ} {c : K} (h : data.linkCost.getD i none = some c) :
    data.linkCost[i]? = some (some c) := by
  rw [List.getD_eq_getElem?_getD] at h
  cases hi : data.linkCost[i]? with
  | none => simp [hi] at h
  | some cost => simpa [hi] using h

variable [FloorRing K]

theorem shortestPath_of_usable {mode : String} {maxExpansions : ℤ}
    (hmode : g.profiles mode = some data)
    (ho : data.linkCost.getD origin.link none = some oCost)
    (hcost : data.linkCost.getD destination.link none = some dCost) :
    shortestPath haversine g mode origin destination maxExpansions =
      match costRun haversine g data origin destination oCost dCost maxExpansions with
      | none => .error .searchLimit
      | some s => costResult g origin destination s := by
  generalize hdirect : directCost g data origin destination oCost = direct
  have hnan : direct.map Duration.finite ≠ some .nan := by
    cases direct <;> simp
  have hscore : (direct.map Duration.finite).bind Duration.score = direct.map WithBot.some := by
    cases direct <;> rfl
  simp only [shortestPath, hmode, getElem?_of_getD ho, getElem?_of_getD hcost, directTotal_some,
    startNodes_some, hdirect, searchProblem_some hnan, hscore]
  rw [AStar.begin_map WithBot.coe_strictMono WithBot.coe_add,
    AStar.run_map WithBot.coe_strictMono WithBot.coe_add, ← hdirect]
  cases hrun : costRun haversine g data origin destination oCost dCost maxExpansions with
  | none =>
    unfold costRun at hrun
    rw [hrun]
    rfl
  | some s =>
    have hfound : (directCost g data origin destination oCost).isSome → s.best.isSome := by
      intro h
      apply AStar.run_found hrun
      rw [AStar.begin_best]
      simpa using h
    unfold costRun at hrun
    rw [hrun]
    simp only [Option.map_some, bestFound_map hfound]
    rfl

theorem shortestPath_of_none {mode : String} {maxExpansions : ℤ}
    (hmode : g.profiles mode = some data)
    (ho : data.linkCost.getD origin.link none = some oCost)
    (hcost : data.linkCost.getD destination.link none = some dCost)
    (hrun : costRun haversine g data origin destination oCost dCost maxExpansions = none) :
    shortestPath haversine g mode origin destination maxExpansions = .error .searchLimit := by
  rw [shortestPath_of_usable hmode ho hcost, hrun]

theorem shortestPath_of_some {mode : String} {maxExpansions : ℤ}
    (hmode : g.profiles mode = some data)
    (ho : data.linkCost.getD origin.link none = some oCost)
    (hcost : data.linkCost.getD destination.link none = some dCost) {s : AStar.Search ℕ ℕ K}
    (hrun : costRun haversine g data origin destination oCost dCost maxExpansions = some s) :
    shortestPath haversine g mode origin destination maxExpansions =
      costResult g origin destination s := by
  rw [shortestPath_of_usable hmode ho hcost, hrun]

end GeoPlatform.Geo
