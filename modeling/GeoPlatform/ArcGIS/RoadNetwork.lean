import GeoPlatform.ArcGIS.Pagination
import GeoPlatform.Geo.RoadGraph

/-! `ArcGISRoadNetworkRoutingProvider._rebuild`: a count query against one limit, then all
features up to the smaller of two, then the graph. -/
namespace GeoPlatform.ArcGIS
open GeoPlatform.Geo
variable {K Row : Type} [Field K] [LinearOrder K]

/-! ### Geometry -/

/-- From here on an integer is too large for a float: it would be rounded to `2 ^ 1024`. -/
def floatBound : ℕ := (2 ^ 54 - 1) * 2 ^ 970

/-- `float(n)`. -/
def floatOf (n : ℤ) : Except QueryError K :=
  if n.natAbs < floatBound then .ok n else .error .overflow

omit [LinearOrder K] in
theorem floatOf_small {n : ℤ} (h : n.natAbs < 2 ^ 53) : floatOf n = .ok (n : K) := by
  have hone : ∀ k, 1 ≤ 2 ^ k := fun k => Nat.one_le_two_pow
  have hbound : 2 ^ 53 ≤ (2 ^ 54 - 1) * 1 := by norm_num
  exact if_pos (h.trans_le (hbound.trans (Nat.mul_le_mul_left _ (hone _))))

omit [LinearOrder K] in
@[simp]
theorem floatOf_zero : floatOf 0 = .ok (0 : K) := by
  simpa using floatOf_small (K := K) (n := 0) (by decide)

omit [LinearOrder K] in
@[simp]
theorem floatOf_one : floatOf 1 = .ok (1 : K) := by
  simpa using floatOf_small (K := K) (n := 1) (by decide)

/-- `isinstance(value, (int, float))`, which takes in Booleans, and the float. -/
def Json.number : Json K → Option (Except QueryError K)
  | .int n => some (floatOf n)
  | .float x => some (.ok x)
  | .bool b => some (.ok (if b then 1 else 0))
  | _ => none

def position : Json K → Except QueryError (Point K)
  | .list (x :: y :: _) =>
    match x.number, y.number with
    | some x, some y => x.bind fun x => y.map fun y => (x, y)
    | _, _ => .error (.arcgis .response "Geometry contains a non-numeric coordinate")
  | _ => .error (.arcgis .response "Geometry contains an invalid coordinate")

def polylinePath : Json K → Except QueryError (List (Point K))
  | .list coords => coords.mapM position
  | _ => .error (.arcgis .response "Polyline path is not a list")

/-- Paths with fewer than two coordinates are left out. -/
def polylinePaths : Option (List (String × Json K)) → Except QueryError (List (List (Point K)))
  | none | some [] => .ok []
  | some geometry =>
    match geometry.lookup "paths" with
    | some (.list paths) => (paths.mapM polylinePath).map (List.filter (2 ≤ ·.length))
    | _ => .error (.arcgis .response "Expected a polyline geometry")

/-! ### Segments -/

/-- Python's `str(…).strip()`, `str.lower` and `float` of a text. -/
structure TextFunctions (K : Type) where
  str : Json K → String
  lower : String → String
  float : String → Option K

structure RoadsFieldMap where
  name : Option String
  roadClass : Option String
  oneway : Option String
  speed : Option String
  onewayForward : List String
  onewayReverse : List String

def textOf (text : TextFunctions K) (attributes : String → Option (Json K))
    (field : Option String) : Option String :=
  match (field.filter (· ≠ "")).bind attributes with
  | none | some .null => none
  | some value => (some (text.str value)).filter (· ≠ "")

def numberOf (text : TextFunctions K) (attributes : String → Option (Json K))
    (field : Option String) : Except QueryError (Option K) :=
  match (field.filter (· ≠ "")).bind attributes with
  | some (.int n) => (floatOf n).map some
  | some (.float x) => .ok (some x)
  | some (.str s) => .ok (text.float s)
  | _ => .ok none

def directionOf (text : TextFunctions K) (f : RoadsFieldMap) : Option String → Direction
  | none => .both
  | some oneway =>
    if oneway ∈ f.onewayForward ∨ text.lower oneway ∈ f.onewayForward then .forward
    else if oneway ∈ f.onewayReverse ∨ text.lower oneway ∈ f.onewayReverse then .reverse
    else .both

/-- The speed is read once for each path, so not at all where there is none. -/
def segmentsOf (text : TextFunctions K) (f : RoadsFieldMap) (feature : EsriFeature K) :
    Except QueryError (List (RoadSegment K)) :=
  (polylinePaths feature.geometry).bind fun paths => paths.mapM fun path =>
    (numberOf text feature.attributes f.speed).map fun speedKmh =>
      { coordinates := path
        roadClass := (textOf text feature.attributes f.roadClass).map text.lower
        direction := directionOf text f (textOf text feature.attributes f.oneway)
        speedKmh := speedKmh }

/-! ### Rebuilding -/

/-- `ROUTING_MAX_FEATURES` and `ARCGIS_MAX_RECORDS`, as far as `Settings` restricts them. -/
structure RoadSettings where
  routingMaxFeatures : ℤ := 250000
  arcgisMaxRecords : ℤ := 250000
  one_le_maxFeatures : 1 ≤ routingMaxFeatures := by decide
  one_le_maxRecords : 1 ≤ arcgisMaxRecords := by decide

inductive RebuildError
  | timeout (message : String)
  | unavailable (message : String)
  | provider (message : String)
  | graphTooLarge (message : String)
  | invalidField (name : String)
  | overflow
  | other (exception : String)

/-- `translate_arcgis_errors`, which lets through what is no `ArcGISError`. -/
def translateErrors : QueryError → RebuildError
  | .arcgis .timeout message => .timeout message
  | .arcgis .unavailable message => .unavailable message
  | .arcgis _ message => .provider message
  | .invalidField name => .invalidField name
  | .overflow => .overflow
  | .other exception => .other exception

/-- The fields that are configured, each once. -/
def roadFields (f : RoadsFieldMap) : List String :=
  let names := (([f.name, f.roadClass, f.oneway, f.speed].filterMap id).filter (· ≠ "")).eraseDups
  if names = [] then ["*"] else names

def roadsQuery (f : RoadsFieldMap) : Query K := { outFields := roadFields f }

/-- A graph, with the features it was built from; the source keeps their number in its log. -/
structure LoadedGraph (K : Type) [Zero K] [LT K] where
  features : List (EsriFeature K)
  graph : RoadGraph K

structure RoutingProvider (K : Type) [Zero K] [LT K] where
  graph : Option (LoadedGraph K) := none

section Rebuild
variable [FloorRing K] (haversine : Point K → Point K → K) (text : TextFunctions K)
variable (f : RoadsFieldMap) (profiles : List (TravelProfile K))

def loadGraph (cfg : RoadSettings) (up : Upstream K) : Except RebuildError (LoadedGraph K) :=
  match count up {} with
  | .error e => .error (translateErrors e)
  | .ok n =>
    if cfg.routingMaxFeatures < n then
      .error (.graphTooLarge ("Road layer has " ++ toString n ++
        " features; ROUTING_MAX_FEATURES is " ++ toString cfg.routingMaxFeatures))
    else
      match queryAll up cfg.arcgisMaxRecords (roadsQuery f) (some cfg.routingMaxFeatures) with
      | .error e => .error (translateErrors e)
      | .ok features =>
        match features.mapM (segmentsOf text f) with
        | .error e => .error (translateErrors e)
        | .ok segments => .ok ⟨features, RoadGraph.build haversine segments.flatten profiles⟩

/-- `_rebuild`. An error leaves the graph that was there. -/
def rebuild (cfg : RoadSettings) (up : Upstream K) (p : RoutingProvider K) :
    Except RebuildError Unit × RoutingProvider K :=
  match loadGraph haversine text f profiles cfg up with
  | .error e => (.error e, p)
  | .ok loaded => (.ok (), { p with graph := some loaded })

end Rebuild
end GeoPlatform.ArcGIS
