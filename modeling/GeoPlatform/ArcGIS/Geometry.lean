import GeoPlatform.ArcGIS.RoadNetwork
import Mathlib.Data.List.MinMax

/-! `representative_point`: one position for a geometry of any type. Where a geometry has not the
shape that the code expects, Python's own exceptions come up beside `ArcGISResponseError`. -/
namespace GeoPlatform.ArcGIS
open GeoPlatform.Geo
attribute [local instance] atLeastTwo_two
variable {K : Type}

/-! ### Decoded values in Python -/

/-- The exceptions that the operations of Python raise on values of the wrong shape. -/
inductive PyException
  | attributeError
  | typeError
  | keyError
  | indexError
  | valueError
  | overflowError
  deriving DecidableEq, Repr

/-- What a loop over the value sees: items, characters or keys. -/
def Json.iter : Json K → Except PyException (List (Json K))
  | .list xs => .ok xs
  | .str s => .ok (s.toList.map fun c => .str (String.singleton c))
  | .dict entries => .ok (entries.map fun entry => .str entry.1)
  | _ => .error .typeError

/-- `value[0]`. The keys of a dictionary are texts. -/
def Json.first : Json K → Except PyException (Json K)
  | .list xs => xs.head?.elim (.error .indexError) .ok
  | .str s => s.toList.head?.elim (.error .indexError) fun c => .ok (.str (String.singleton c))
  | .dict _ => .error .keyError
  | _ => .error .typeError

/-- What reading a geometry may raise. -/
inductive GeometryError
  | query (e : QueryError)
  | python (e : PyException)

variable [Field K] [LinearOrder K]

/-! ### Points -/

def readPosition (value : Json K) : Except GeometryError (Point K) :=
  (position value).mapError .query

/-- One turn of the loop over the sides of a ring: twice the area, and the weighted sums. -/
def addSide (sums : K × K × K) (side : Point K × Point K) : K × K × K :=
  let cross := side.1.1 * side.2.2 - side.2.1 * side.1.2
  (sums.1 + cross, sums.2.1 + (side.1.1 + side.2.1) * cross,
    sums.2.2 + (side.1.2 + side.2.2) * cross)

/-- The centroid of a ring, and its area. Where the area is zero, it is the mean of the
corners. -/
def ringCentroid (ring : List (Point K)) : Point K × K :=
  let (area, cx, cy) := (ring.zip (ring.drop 1 ++ ring.take 1)).foldl addSide (0, 0, 0)
  if area = 0 then
    (((ring.map Prod.fst).sum / ring.length, (ring.map Prod.snd).sum / ring.length), 0)
  else ((cx / (3 * area), cy / (3 * area)), |area / 2|)

def readRing (ring : Json K) : Except GeometryError (List (Point K)) :=
  (ring.iter.mapError .python).bind fun corners => corners.mapM readPosition

/-- The centroid of the first of the largest rings. -/
def largestRing (rings : Json K) : Except GeometryError (Option (Point K)) :=
  (rings.iter.mapError .python).bind fun rings =>
    ((rings.filter Json.truthy).mapM readRing).map fun rings =>
      ((rings.map ringCentroid).argmax Prod.snd).map Prod.fst

/-- The corner in the middle of the first path. -/
def middleOfPath (geometry : List (String × Json K)) : Except GeometryError (Option (Point K)) :=
  ((polylinePaths (some geometry)).mapError .query).map fun paths =>
    paths.head?.bind fun path => path[path.length / 2]?

def representativePoint (geometry : Option (List (String × Json K))) :
    Except GeometryError (Option (Point K)) :=
  match geometry with
  | none | some [] => .ok none
  | some geometry =>
    match geometry.lookup "x", geometry.lookup "y" with
    | some .null, some _ | some _, some .null => .ok none
    | some x, some y => (readPosition (.list [x, y])).map some
    | _, _ =>
      match (geometry.lookup "points").filter Json.truthy with
      | some points => ((points.first.mapError .python).bind readPosition).map some
      | none =>
        if (geometry.lookup "paths").isSome then middleOfPath geometry
        else
          match geometry.lookup "rings" with
          | some rings => largestRing rings
          | none => .error (.query (.arcgis .response "Unsupported geometry type"))

end GeoPlatform.ArcGIS
