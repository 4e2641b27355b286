import GeoPlatform.Geo.RoadGraph
import GeoPlatform.Library.AStarMap

/-! `RoadGraph.shortest_path`: partial first and last links, the direct route along a shared
link, and A* over the links that a profile may use. -/
namespace GeoPlatform.Geo
variable {K : Type} [Field K] [LinearOrder K] [FloorRing K]

structure Snap (K : Type) where
  link : ℕ
  fraction : K
  longitude : K
  latitude : K
  distanceM : K

def Snap.point (s : Snap K) : Point K := (s.longitude, s.latitude)

/-- A float that times are summed up in. A snap may be on a link of infinite cost, and then all
four kinds occur. -/
inductive Duration (K : Type)
  | finite (seconds : K)
  | infinity | negInfinity | nan
  deriving DecidableEq

structure PathResult (K : Type) where
  coordinates : List (Point K)
  distanceM : K
  durationS : Duration K
  deriving DecidableEq

/-- The reasons of `NoPathError`; `lookup` is any key or index that is not there. -/
inductive PathError
  | noPath | searchLimit | lookup
  deriving DecidableEq, Repr

/-! ### Floats -/

/-- `t * cost`; a cost of `none` is `math.inf`. -/
def partCost (t : K) : Option K → Duration K
  | some cost => .finite (t * cost)
  | none => if 0 < t then .infinity else if t < 0 then .negInfinity else .nan

/-- What compares below `math.inf`, which neither `math.inf` nor `nan` does. -/
def Duration.score : Duration K → Option (WithBot K)
  | .finite seconds => some seconds
  | .negInfinity => some ⊥
  | .infinity => none
  | .nan => none

def Duration.ofScore : WithBot K → Duration K
  | ⊥ => .negInfinity
  | (seconds : K) => .finite seconds

/-! ### Links and arcs -/

def RoadGraph.node (g : RoadGraph K) (n : ℕ) : Point K := g.nodes.getD n 0

def RoadGraph.link (g : RoadGraph K) (i : ℕ) : Link K :=
  g.links.getD i ⟨0, 0, 0, .both, none, none⟩

def RoadGraph.canTraverse (g : RoadGraph K) (data : ProfileData K) (link : ℕ)
    (forward : Bool) : Bool :=
  !data.profile.respectsOneway ||
    match (g.link link).dir with
    | .both => true
    | .forward => forward
    | .reverse => !forward

/-- The arc of one slot, unless its link costs too much or may not be taken this way. -/
def RoadGraph.arcOf (g : RoadGraph K) (data : ProfileData K) (slot : ℕ × Bool) :
    Option (AStar.Arc ℕ ℕ K) :=
  match data.linkCost.getD slot.1 none with
  | none => none
  | some cost =>
    if g.canTraverse data slot.1 slot.2 then
      some ⟨if slot.2 then (g.link slot.1).v else (g.link slot.1).u, cost, slot.1⟩
    else none

def RoadGraph.arcsFrom (g : RoadGraph K) (data : ProfileData K) (n : ℕ) :
    List (AStar.Arc ℕ ℕ K) :=
  (g.arcs.row (0, false) n).filterMap (g.arcOf data)

/-! ### The two snaps -/

/-- Along a shared link; the direction is read off the fractions. -/
def directTotal (g : RoadGraph K) (data : ProfileData K) (origin destination : Snap K)
    (oCost : Option K) : Option (Duration K) :=
  if origin.link = destination.link then
    let forward := decide (origin.fraction ≤ destination.fraction)
    if g.canTraverse data origin.link forward then
      some (partCost |destination.fraction - origin.fraction| oCost)
    else none
  else none

/-- A goal that costs `math.inf` or `nan` from its node on is like none: a total over it is
below nothing. -/
def goals (g : RoadGraph K) (data : ProfileData K) (destination : Snap K) (dCost : Option K) :
    ℕ → Option (WithBot K) :=
  let du := (g.link destination.link).u
  let dv := (g.link destination.link).v
  let atU : ℕ → Option (WithBot K) :=
    if g.canTraverse data destination.link true then
      Function.update (fun _ => none) du (partCost destination.fraction dCost).score
    else fun _ => none
  if g.canTraverse data destination.link false then
    let extra := (partCost (1 - destination.fraction) dCost).score
    Function.update atU dv (Option.merge min (atU dv) extra)
  else atU

def startNodes (g : RoadGraph K) (data : ProfileData K) (origin : Snap K) (oCost : Option K) :
    List (ℕ × WithBot K × ℕ) :=
  let start (node : ℕ) (cost : Duration K) : List (ℕ × WithBot K × ℕ) :=
    cost.score.toList.map fun score => (node, score, origin.link)
  (if g.canTraverse data origin.link false then
    start (g.link origin.link).u (partCost origin.fraction oCost) else []) ++
  (if g.canTraverse data origin.link true then
    start (g.link origin.link).v (partCost (1 - origin.fraction) oCost) else [])

/-- No total is below a direct total of `nan`. -/
def searchProblem (haversine : Point K → Point K → K) (g : RoadGraph K) (data : ProfileData K)
    (destination : Snap K) (direct : Option (Duration K)) (dCost : Option K) :
    AStar.Problem ℕ ℕ (WithBot K) where
  arcs := fun n => (g.arcsFrom data n).map (AStar.Arc.map WithBot.some)
  exit := if direct = some .nan then fun _ => none else goals g data destination dCost
  h := fun n => WithBot.some (haversine (g.node n) destination.point * (1 / data.maxSpeedMps))

/-! ### The result -/

def dedupe (coordinates : List (Point K)) : List (Point K) :=
  let result := coordinates.foldl (fun result p =>
    let point := (roundCoordinate p.1, roundCoordinate p.2)
    if result.getLast? = some point then result else result ++ [point]) []
  if result.length = 1 then result ++ result.take 1 else result

/-- The walk back over `previous`: the nodes from the goal on, and the metres before it. The
fuel stands for the `while True` loop. -/
def traceBack (g : RoadGraph K) (origin : Snap K) (previous : ℕ → Option (Option ℕ × ℕ)) :
    ℕ → ℕ → Option (List ℕ × K)
  | 0, _ => none
  | fuel + 1, node =>
    match previous node with
    | none => none
    | some (none, _) =>
      let fraction :=
        if node = (g.link origin.link).u then origin.fraction else 1 - origin.fraction
      some ([node], fraction * (g.link origin.link).length)
    | some (some before, link) =>
      (traceBack g origin previous fuel before).map fun r =>
        (node :: r.1, r.2 + (g.link link).length)

def pathResult (g : RoadGraph K) (origin destination : Snap K)
    (previous : ℕ → Option (Option ℕ × ℕ)) :
    Option (Duration K × Option ℕ) → Except PathError (PathResult K)
  | none => .error .noPath
  | some (total, none) =>
    .ok ⟨dedupe [origin.point, destination.point],
      |destination.fraction - origin.fraction| * (g.link origin.link).length, total⟩
  | some (total, some goal) =>
    match traceBack g origin previous (g.nodes.length + 1) goal with
    | none => .error .lookup
    | some (nodes, distance) =>
      let fraction := if goal = (g.link destination.link).u then destination.fraction
        else 1 - destination.fraction
      .ok ⟨dedupe (origin.point :: nodes.reverse.map g.node ++ [destination.point]),
        distance + fraction * (g.link destination.link).length, total⟩

/-- `best_total` and `best_goal`. A direct total of `math.inf` or `nan` is the answer where the
search finds no other. -/
def bestFound (direct : Option (Duration K)) (s : AStar.Search ℕ ℕ (WithBot K)) :
    Option (Duration K × Option ℕ) :=
  (s.best.map fun b => (.ofScore b.1, b.2)).or (direct.map fun total => (total, none))

def shortestPath (haversine : Point K → Point K → K) (g : RoadGraph K) (mode : String)
    (origin destination : Snap K) (maxExpansions : ℤ) : Except PathError (PathResult K) :=
  match g.profiles mode with
  | none => .error .lookup
  | some data =>
    match data.linkCost[origin.link]?, data.linkCost[destination.link]? with
    | some oCost, some dCost =>
      let direct := directTotal g data origin destination oCost
      let problem := searchProblem haversine g data destination direct dCost
      let s := AStar.Search.begin problem (direct.bind Duration.score)
        (startNodes g data origin oCost)
      -- at most `maxExpansions` nodes are expanded, so none when it is negative
      match AStar.run problem maxExpansions.toNat s with
      | none => .error .searchLimit
      | some s => pathResult g origin destination s.previous (bestFound direct s)
    | _, _ => .error .lookup

end GeoPlatform.Geo
