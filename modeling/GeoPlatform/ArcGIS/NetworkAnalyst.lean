import GeoPlatform.ArcGIS.Geometry

/-! A reply of the route service (`_to_result` in `network_analyst.py`). The reply is any JSON
object, and what Python raises on values of the wrong kind comes up as it is. -/
namespace GeoPlatform.ArcGIS
open GeoPlatform.Geo
variable {K : Type}

/-! ### Values -/

/-- Python's floats, as far as a reply is read with them. Only the conversions and `haversine_m`
raise. -/
structure Floats (K : Type) where
  ofInt : ℤ → Except PyException K
  ofStr : String → Except PyException K
  literal : ℚ → K
  isZero : K → Bool
  eq : K → K → Bool
  round : K → ℕ → K
  add : K → K → K
  mul : K → K → K
  haversine : Point K → Point K → Except PyException K

/-- `isinstance(value, (int, float))`. -/
def Json.isNumber : Json K → Bool
  | .int _ | .float _ | .bool _ => true
  | _ => false

/-- `value.get(key)`. -/
def Json.get (value : Json K) (key : String) : Except PyException (Json K) :=
  match value with
  | .dict entries => .ok ((entries.lookup key).getD .null)
  | _ => .error .attributeError

/-- `len(value)`. -/
def Json.len : Json K → Except PyException ℕ
  | .list xs => .ok xs.length
  | .str s => .ok s.toList.length
  | .dict entries => .ok entries.length
  | _ => .error .typeError

/-- `value[i]`. The keys of a dictionary are texts. -/
def Json.item (value : Json K) (i : ℕ) : Except PyException (Json K) :=
  match value with
  | .list xs => xs[i]?.elim (.error .indexError) .ok
  | .str s => s.toList[i]?.elim (.error .indexError) fun c => .ok (.str (String.singleton c))
  | .dict _ => .error .keyError
  | _ => .error .typeError

namespace Floats
variable (F : Floats K)

def truthy : Json K → Bool
  | .null => false
  | .bool b => b
  | .int n => n ≠ 0
  | .float x => !F.isZero x
  | .str s => s ≠ ""
  | .list xs => !xs.isEmpty
  | .dict entries => !entries.isEmpty

/-- `value or {}`. -/
def orDict (value : Json K) : Json K := if F.truthy value then value else .dict []

/-- `value or []`. -/
def orList (value : Json K) : Json K := if F.truthy value then value else .list []

/-- `float(value)`. -/
def float : Json K → Except PyException K
  | .int n => F.ofInt n
  | .bool b => F.ofInt (if b then 1 else 0)
  | .float x => .ok x
  | .str s => F.ofStr s
  | _ => .error .typeError

/-- `==` of two positions. -/
def same (p q : Point K) : Bool := F.eq p.1 q.1 && F.eq p.2 q.2

end Floats

/-! ### The parts of a reply -/

structure RouteDescription where
  attributeUnits : List (String × String)

def TIME_UNITS_SECONDS : List (String × ℚ) :=
  [("esriNAUSeconds", 1), ("esriNAUMinutes", 60), ("esriNAUHours", 3600), ("esriNAUDays", 86400)]

def LENGTH_UNITS_METERS : List (String × ℚ) :=
  [("esriNAUMeters", 1), ("esriNAUKilometers", 1000), ("esriNAUMiles", 1609.344),
    ("esriNAUFeet", 0.3048), ("esriNAUYards", 0.9144), ("esriNAUNauticalMiles", 1852),
    ("esriNAUInches", 0.0254), ("esriNAUCentimeters", 0.01), ("esriNAUMillimeters", 0.001),
    ("esriNAUDecimeters", 0.1)]

structure SnappedPoint (K : Type) where
  input : Point K
  location : Point K
  snapDistanceMeters : K
  roadName : Option String

structure RouteResult (K : Type) where
  distanceMeters : K
  durationSeconds : K
  coordinates : List (Point K)
  origin : SnappedPoint K
  destination : SnappedPoint K

/-- What `_to_result` raises: two errors of the API, or an exception of Python. -/
inductive RouteFailure where
  | routeNotFound (message reason : String)
  | geoProvider (message : String)
  | python (e : PyException)
  deriving DecidableEq, Repr

/-- The features of a member that is an object with a list of features. -/
def featuresOf (payload : List (String × Json K)) (key : String) : Option (List (Json K)) :=
  match (payload.lookup key).getD .null with
  | .dict entries =>
      match (entries.lookup "features").getD .null with
      | .list features => some features
      | _ => none
  | _ => none

variable (F : Floats K)

/-- One turn of the comprehension over the positions of a path. -/
def Floats.readPosition (p : Json K) : Except PyException (Option (Point K)) := do
  let n ← p.len
  if n < 2 then return none
  else do
    let x ← F.float (← p.item 0)
    let y ← F.float (← p.item 1)
    return some (F.round x 7, F.round y 7)

def coordinatesOf (route : Json K) : Except PyException (List (Point K)) := do
  let geometry ← route.get "geometry"
  let paths ← (F.orDict geometry).get "paths"
  let paths ← (F.orList paths).iter
  let parts ← paths.mapM fun path => path.iter.bind fun ps => ps.mapM F.readPosition
  return parts.flatten.filterMap id

def totalCandidates (d : RouteDescription) (name : Option String) (factors : List (String × ℚ)) :
    List String :=
  let named := (name.filter (· ≠ "")).toList
  named ++ (d.attributeUnits.filter fun a =>
    (factors.lookup a.2).isSome && !decide (a.1 ∈ named)).map Prod.fst

/-- The factor of an attribute's unit, if it is one of the right kind. -/
def factorOf (d : RouteDescription) (factors : List (String × ℚ)) (name : String) : Option ℚ :=
  (d.attributeUnits.lookup name).bind fun unit => factors.lookup unit

/-- The loop of `_total`. -/
def totalOf (attributes : Json K) (d : RouteDescription) (factors : List (String × ℚ)) :
    List String → Except PyException (Option K)
  | [] => .ok none
  | name :: names => do
      let value ← attributes.get ("Total_" ++ name)
      match value.isNumber, factorOf d factors name with
      | true, some factor => return some (F.mul (← F.float value) (F.literal factor))
      | _, _ => totalOf attributes d factors names

/-- `_total`. -/
def total (attributes : Json K) (d : RouteDescription) (name : Option String)
    (factors : List (String × ℚ)) : Except PyException (Option K) :=
  totalOf F attributes d factors (totalCandidates d name factors)

/-- The length of the line through the coordinates. -/
def lineLength (coordinates : List (Point K)) : Except PyException K := do
  let sides ← (coordinates.zip coordinates.tail).mapM fun side => F.haversine side.1 side.2
  return sides.foldl F.add (F.literal 0)

def snapDistance (stop : Json K) : Except PyException (Option K) := do
  let attributes ← stop.get "attributes"
  let value ← (F.orDict attributes).get "DistanceToNetworkInMeters"
  if value.isNumber then return some (← F.float value) else return none

/-- `_stop_snap_distances`. -/
def stopSnapDistances (payload : List (String × Json K)) :
    Except PyException (Option K × Option K) := do
  let values ← ((featuresOf payload "stops").getD []).mapM (snapDistance F)
  return (values[0]?.join, values[1]?.join)

/-- `_snapped`. -/
def snapped (point first : Point K) (reported : Option K) :
    Except PyException (SnappedPoint K) := do
  let distance ← match reported with
    | some d => .ok d
    | none => F.haversine point first
  return ⟨point, first, F.round distance 1, none⟩

/-- `_dedupe`. -/
def Floats.dedupe (coordinates : List (Point K)) : List (Point K) :=
  coordinates.foldl (fun result point =>
    if result.getLast?.any (F.same · point) then result else result ++ [point]) []

/-- The distance that is reported, or the length of the line. -/
def distanceOf (attributes : Json K) (d : RouteDescription) (distanceAttr : Option String)
    (coordinates : List (Point K)) : Except PyException K := do
  let distance ← total F attributes d distanceAttr LENGTH_UNITS_METERS
  distance.elim (lineLength F coordinates) .ok

/-- The route through the positions, once its totals are known. -/
def resultOf (payload : List (String × Json K)) (origin destination : Point K)
    (distance duration : K) (first second : Point K) (rest : List (Point K)) :
    Except PyException (RouteResult K) := do
  let snaps ← stopSnapDistances F payload
  let start ← snapped F origin first snaps.1
  let finish ← snapped F destination ((second :: rest).getLast (List.cons_ne_nil _ _)) snaps.2
  return ⟨distance, duration, F.dedupe (first :: second :: rest), start, finish⟩

/-- `_to_result`. -/
def toResult (payload : List (String × Json K)) (origin destination : Point K)
    (d : RouteDescription) (timeAttr distanceAttr : Option String) :
    Except RouteFailure (RouteResult K) :=
  match featuresOf payload "routes" with
  | none | some [] =>
      .error (.routeNotFound "No route connects the origin and the destination." "no_path")
  | some (route :: _) => do
      let attributes ← (route.get "attributes").mapError .python
      let coordinates ← (coordinatesOf F route).mapError .python
      match coordinates with
      | first :: second :: rest => do
          let duration ← (total F (F.orDict attributes) d timeAttr
            TIME_UNITS_SECONDS).mapError .python
          let distance ← (distanceOf F (F.orDict attributes) d distanceAttr
            (first :: second :: rest)).mapError .python
          match duration with
          | none => .error (.geoProvider "The route service returned no travel time")
          | some duration =>
              (resultOf F payload origin destination distance duration first second
                rest).mapError .python
      | _ => .error (.geoProvider "The route service returned a route without geometry")

end GeoPlatform.ArcGIS
