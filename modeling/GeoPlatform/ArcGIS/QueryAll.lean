import GeoPlatform.ArcGIS.Circuit
import Mathlib.Data.Rat.Defs
import Mathlib.Tactic

/-! `layer_info`, `query` and `query_all` of `ArcGISFeatureServerClient`. What a request comes
back with, after retries and parsing, is a parameter. -/
namespace GeoPlatform.ArcGIS
variable {K : Type}

/-! ### Responses -/

/-- A decoded JSON value. `K` stands for the numbers with a fraction. -/
inductive Json (K : Type)
  | null
  | bool (b : Bool)
  | int (n : ℤ)
  | float (x : K)
  | str (s : String)
  | list (xs : List (Json K))
  | dict (entries : List (String × Json K))

def Json.truthy [Zero K] [DecidableEq K] : Json K → Bool
  | .null => false
  | .bool b => b
  | .int n => n ≠ 0
  | .float x => x ≠ 0
  | .str s => s ≠ ""
  | .list xs => !xs.isEmpty
  | .dict entries => !entries.isEmpty

/-- `isinstance(value, int)`: the number, and its text in a clause. A Boolean is one. -/
def Json.asInt : Json K → Option (ℤ × String)
  | .int n => some (n, toString n)
  | .bool b => some (if b then (1, "True") else (0, "False"))
  | _ => none

structure EsriFeature (K : Type) where
  attributes : String → Option (Json K) := fun _ => none
  geometry : Option (List (String × Json K)) := none

structure EsriFeatureSet (K : Type) where
  features : List (EsriFeature K) := []
  exceededTransferLimit : Bool := false

structure EsriField where
  name : String
  type : String

structure EsriLayer (K : Type) where
  geometryType : Option String := none
  objectIdField : Option String := none
  maxRecordCount : ℤ := 1000
  fields : List EsriField := []
  advancedQueryCapabilities : List (String × Json K) := []

structure LayerInfo where
  objectIdField : String
  maxRecordCount : ℤ
  geometryType : Option String
  fieldNames : List String
  supportsPagination : Bool
  one_le_maxRecordCount : 1 ≤ maxRecordCount

/-- An `ArcGISError` with its message, the `ValueError` of `validate_field_name`, the
`OverflowError` of `float`, or any other exception of a request. -/
inductive QueryError
  | arcgis (e : ArcGISError) (message : String)
  | invalidField (name : String)
  | overflow
  | other (exception : String)
  deriving DecidableEq, Repr

def layerInfo [Zero K] [DecidableEq K] (layer : EsriLayer K) : Except QueryError LayerInfo :=
  match layer.objectIdField.filter (· ≠ "") <|>
      (layer.fields.find? (·.type = "esriFieldTypeOID")).map (·.name) with
  | none => .error (.arcgis .response "Layer metadata does not declare an OBJECTID field")
  | some oid => .ok
      { objectIdField := oid
        maxRecordCount := max 1 layer.maxRecordCount
        geometryType := layer.geometryType
        fieldNames := layer.fields.map (·.name)
        supportsPagination :=
          ((layer.advancedQueryCapabilities.lookup "supportsPagination").map Json.truthy).getD false
        one_le_maxRecordCount := le_max_left .. }

/-! ### Requests -/

inductive GeometryFilter (K : Type)
  | point (longitude latitude distanceM : K)
  | envelope (xmin ymin xmax ymax : K)

/-- The parameters of a `/query` request that vary. -/
structure QueryParams (K : Type) where
  whereClause : String
  outFields : List String
  returnGeometry : Bool
  geometry : Option (GeometryFilter K)
  orderByFields : Option String := none
  resultRecordCount : Option ℤ := none

/-- What the service answers to the metadata request, to the count, and to the `i`-th page
request of a run. -/
structure Upstream (K : Type) where
  layer : Except QueryError (EsriLayer K)
  count : QueryParams K → Except QueryError ℤ
  query : ℕ → QueryParams K → Except QueryError (EsriFeatureSet K)

def validFieldName (name : String) : Bool :=
  match name.toList with
  | [] => false
  | c :: cs => (c.isAlpha || c = '_') && cs.all fun c => c.isAlphanum || c = '_' || c = '.'

/-- The arguments that `query`, `query_all` and `count` share. -/
structure Query (K : Type) where
  whereClause : String := "1=1"
  outFields : List String := ["*"]
  geometry : Option (GeometryFilter K) := none
  returnGeometry : Bool := true

def queryParams (q : Query K) : Except QueryError (QueryParams K) :=
  match q.outFields.find? fun f => f ≠ "*" ∧ ¬ validFieldName f with
  | some f => .error (.invalidField f)
  | none => .ok
      { whereClause := q.whereClause, outFields := q.outFields
        returnGeometry := q.returnGeometry, geometry := q.geometry }

def query (up : Upstream K) (info : LayerInfo) (i : ℕ) (q : Query K) (orderBy : Option String)
    (recordCount : Option ℤ) : Except QueryError (EsriFeatureSet K) :=
  match queryParams q with
  | .error e => .error e
  | .ok params => up.query i
      { params with
        orderByFields := orderBy.filter (· ≠ "")
        resultRecordCount := recordCount.bind fun c =>
          if info.supportsPagination then some (min c info.maxRecordCount) else none }

def count (up : Upstream K) (q : Query K) : Except QueryError ℤ :=
  match queryParams { q with outFields := ["*"], returnGeometry := false } with
  | .error e => .error e
  | .ok params => up.count params

/-! ### Every page -/

/-- `max_records or self._max_records` takes a zero for no limit of its own. -/
def queryCap (selfMaxRecords : ℤ) (maxRecords : Option ℤ) : ℤ :=
  min ((maxRecords.filter (· ≠ 0)).getD selfMaxRecords) selfMaxRecords

/-- The requested fields, with the object id among them. -/
def requestedFields (info : LayerInfo) (q : Query K) : List String :=
  if "*" ∉ q.outFields ∧ info.objectIdField ∉ q.outFields then
    q.outFields ++ [info.objectIdField]
  else q.outFields

def pageWhere (info : LayerInfo) (whereClause : String) : Option (ℤ × String) → String
  | none => whereClause
  | some last => "(" ++ whereClause ++ ") AND " ++ info.objectIdField ++ " > " ++ last.2

def paginationError : QueryError :=
  .arcgis .response "Pagination did not advance; results are not ordered by OBJECTID"

/-- The loop, at its `i`-th request. A negative `cap` cuts off nothing: it finds no features. -/
def queryPages (up : Upstream K) (info : LayerInfo) (q : Query K) (cap : ℤ) (i : ℕ)
    (features : List (EsriFeature K)) (last : Option (ℤ × String)) :
    Except QueryError (List (EsriFeature K)) :=
  if (features.length : ℤ) < cap then
    match query up info i { q with whereClause := pageWhere info q.whereClause last }
        (some (info.objectIdField ++ " ASC"))
        (some (min info.maxRecordCount (cap - features.length))) with
    | .error e => .error e
    | .ok page =>
      match _hpage : page.features.getLast? with
      | none => .ok (features.take cap.toNat)
      | some feature =>
        match (feature.attributes info.objectIdField).bind Json.asInt with
        | none => .error paginationError
        | some pageLast =>
          if ∃ l ∈ last, pageLast.1 ≤ l.1 then .error paginationError
          else if ¬ page.exceededTransferLimit ∧
              (page.features.length : ℤ) < info.maxRecordCount then
            .ok ((features ++ page.features).take cap.toNat)
          else queryPages up info q cap (i + 1) (features ++ page.features) (some pageLast)
  else .ok (features.take cap.toNat)
termination_by (cap - features.length).toNat
decreasing_by
  have hpos := List.length_pos_of_mem (List.mem_of_getLast? _hpage)
  rw [List.length_append]
  omega

def queryAll [Zero K] [DecidableEq K] (up : Upstream K) (selfMaxRecords : ℤ) (q : Query K)
    (maxRecords : Option ℤ) : Except QueryError (List (EsriFeature K)) :=
  match up.layer.bind layerInfo with
  | .error e => .error e
  | .ok info =>
    queryPages up info { q with outFields := requestedFields info q }
      (queryCap selfMaxRecords maxRecords) 0 [] none

end GeoPlatform.ArcGIS
