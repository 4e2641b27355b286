import GeoPlatform.ArcGIS.RoadNetwork

/-! The tasks around the road graph (`warm_up`, `_get_graph`, `_refresh` and `_rebuild` of
`ArcGISRoadNetworkRoutingProvider`). A task runs from one `await` to the next; the lock is held
from the start of a rebuild to its end. -/
namespace GeoPlatform.ArcGIS
open GeoPlatform.Geo
variable {K Req Answer : Type} [Field K] [LinearOrder K]

/-- A request or the warm-up, or the background refresh. There is one refresh at most, as it is
created only when the one before is done. -/
inductive Worker where
  | caller (i : ℕ)
  | refresh
  deriving DecidableEq, Repr

/-- What `_rebuild` waits for. -/
inductive Stage (K : Type) where
  | counting
  | querying
  | building (segments : List (RoadSegment K))

/-- Where a task stands. `request` is the route that the caller is asked for; the warm-up and the
refresh have none. -/
inductive Phase (K Req : Type) [Zero K] [LT K] where
  | idle
  | waiting (request : Option Req)
  | rebuilding (request : Option Req) (stage : Stage K)
  | routing (g : RoadGraph K) (request : Req)

structure RoutingState (K Req : Type) [Zero K] [LT K] where
  graph : Option (RoadGraph K) := none
  builtAt : ℚ := 0
  lock : Option Worker := none
  tasks : Worker → Phase K Req := fun _ => .idle
  now : ℚ := 0

def RoutingState.setTask (s : RoutingState K Req) (w : Worker) (t : Phase K Req) :
    RoutingState K Req :=
  { s with tasks := Function.update s.tasks w t }

/-- `counted`, `queried` and `built` tell how an `await` of `_rebuild` ended; with `none` or
`false` it raised. -/
inductive RoutingEvent (K Req : Type) where
  | call (i : ℕ) (request : Option Req)
  | acquire (w : Worker)
  | counted (w : Worker) (count : Option ℤ)
  | queried (w : Worker) (features : Option (List (EsriFeature K)))
  | built (w : Worker) (ok : Bool)
  | routed (i : ℕ)
  | cancel (w : Worker)
  | clock (t : ℚ)

inductive RoutingReply (K Answer : Type) [Zero K] [LT K] where
  | reads (g : RoadGraph K)
  | queued
  | started
  | built (g : RoadGraph K)
  | answered (a : Answer)
  | raised
  | done
  | disabled

theorem RoutingState.setTask_self (s : RoutingState K Req) (w : Worker) (t : Phase K Req) :
    (s.setTask w t).tasks w = t :=
  Function.update_self ..

theorem RoutingState.setTask_of_ne (s : RoutingState K Req) {w w' : Worker} (h : w' ≠ w)
    (t : Phase K Req) : (s.setTask w t).tasks w' = s.tasks w' :=
  Function.update_of_ne h ..

/-- What the tasks read of the configuration. -/
structure RoadTasks (K Req Answer : Type) [Zero K] [LT K] where
  haversine : Point K → Point K → K
  text : TextFunctions K
  fields : RoadsFieldMap
  profiles : List (TravelProfile K)
  settings : RoadSettings
  graphTtlS : ℚ
  /-- `_route_sync`. -/
  routeSync : RoadGraph K → Req → Answer

variable (cfg : RoadTasks K Req Answer)

/-! ### Steps -/

/-- A task that has its graph: a request routes over it, the others are done. -/
def RoutingState.goOn (s : RoutingState K Req) (w : Worker) (request : Option Req)
    (g : RoadGraph K) : RoutingState K Req :=
  s.setTask w (request.elim .idle (.routing g))

/-- A stale graph has the refresh created, unless one is under way. -/
def RoutingState.startRefresh (s : RoutingState K Req) : RoutingState K Req :=
  match s.tasks .refresh with
  | .idle => if cfg.graphTtlS < s.now - s.builtAt then s.setTask .refresh (.waiting none) else s
  | _ => s

/-- `_get_graph` up to the lock. -/
def RoutingState.call (s : RoutingState K Req) (i : ℕ) (request : Option Req) :
    RoutingReply K Answer × RoutingState K Req :=
  match s.graph with
  | some g => (.reads g, (s.startRefresh cfg).goOn (.caller i) request g)
  | none => (.queued, s.setTask (.caller i) (.waiting request))

/-- From the lock on. A caller that finds a graph gives the lock back at once. -/
def RoutingState.acquire (s : RoutingState K Req) (w : Worker) (request : Option Req) :
    RoutingReply K Answer × RoutingState K Req :=
  match w, s.graph with
  | .caller _, some g => (.reads g, s.goOn w request g)
  | _, _ => (.started, { s.setTask w (.rebuilding request .counting) with lock := some w })

/-- An exception inside `_rebuild` leaves the lock and ends the task. -/
def RoutingState.fail (s : RoutingState K Req) (w : Worker) :
    RoutingReply K Answer × RoutingState K Req :=
  (.raised, { s.setTask w .idle with lock := none })

def RoutingState.counted (s : RoutingState K Req) (w : Worker) (request : Option Req) :
    Option ℤ → RoutingReply K Answer × RoutingState K Req
  | none => s.fail w
  | some count =>
      if cfg.settings.routingMaxFeatures < count then s.fail w
      else (.done, s.setTask w (.rebuilding request .querying))

def RoutingState.queried (s : RoutingState K Req) (w : Worker) (request : Option Req) :
    Option (List (EsriFeature K)) → RoutingReply K Answer × RoutingState K Req
  | none => s.fail w
  | some features =>
      match features.mapM (segmentsOf cfg.text cfg.fields) with
      | .error _ => s.fail w
      | .ok segments => (.done, s.setTask w (.rebuilding request (.building segments.flatten)))

variable [FloorRing K]

/-- The end of `_rebuild`, which has no further `await`. -/
def RoutingState.built (s : RoutingState K Req) (w : Worker) (request : Option Req)
    (segments : List (RoadSegment K)) (ok : Bool) :
    RoutingReply K Answer × RoutingState K Req :=
  if ok then
    let g := RoadGraph.build cfg.haversine segments cfg.profiles
    (.built g, { s.goOn w request g with graph := some g, builtAt := s.now, lock := none })
  else s.fail w

/-- One atomic step. A free lock goes to any task that waits for it. -/
def routingStep (s : RoutingState K Req) :
    RoutingEvent K Req → RoutingReply K Answer × RoutingState K Req
  | .call i request =>
      match s.tasks (.caller i) with
      | .idle => s.call cfg i request
      | _ => (.disabled, s)
  | .acquire w =>
      match s.tasks w, s.lock with
      | .waiting request, none => s.acquire w request
      | _, _ => (.disabled, s)
  | .counted w count =>
      match s.tasks w with
      | .rebuilding request .counting => s.counted cfg w request count
      | _ => (.disabled, s)
  | .queried w features =>
      match s.tasks w with
      | .rebuilding request .querying => s.queried cfg w request features
      | _ => (.disabled, s)
  | .built w ok =>
      match s.tasks w with
      | .rebuilding request (.building segments) => s.built cfg w request segments ok
      | _ => (.disabled, s)
  | .routed i =>
      match s.tasks (.caller i) with
      | .routing g request => (.answered (cfg.routeSync g request), s.setTask (.caller i) .idle)
      | _ => (.disabled, s)
  | .cancel w =>
      match s.tasks w with
      | .idle => (.disabled, s)
      | .rebuilding _ _ => s.fail w
      | _ => (.raised, s.setTask w .idle)
  | .clock t => (.done, { s with now := t })

end GeoPlatform.ArcGIS
