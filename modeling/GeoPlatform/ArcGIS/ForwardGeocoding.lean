import GeoPlatform.ArcGIS.ReverseGeocoding
import GeoPlatform.ArcGIS.Where
import GeoPlatform.Library.SqlLike
import Mathlib.Data.Prod.Lex
import Mathlib.Data.String.Basic

/-! `ArcGISGeocodingProvider.search`: two pages of candidates, one for the texts that start with
the query and one for those that contain its words, merged, ranked and cut. -/
namespace GeoPlatform.ArcGIS
open GeoPlatform.Geo SqlText
variable {K Row : Type}

/-- Python's functions on texts, with `str` as `f"…"` writes it. -/
structure PlaceTexts (P : PyText) (K : Type) extends TextFunctions K where
  format : Json K → String
  str_str : ∀ s, str (.str s) = String.ofList (strip P s.toList)
  format_int : ∀ n, format (.int n) = toString n

structure Place (K : Type) where
  id : String
  name : String
  altName : Option String
  address : Option String
  type : String
  location : Point K
  importance : K

structure GeocodingProvider where
  fields : PlacesFieldMap
  candidateLimit : ℤ
  defaultAddress : Option String := none

/-! ### Places -/

section Search
variable [Field K] [LinearOrder K] {P : PyText} (texts : PlaceTexts P K) (p : GeocodingProvider)

/-- `_to_place`. The importance is read last, and only of a place. -/
def toPlace (feature : EsriFeature K) (oidField : String) :
    Except GeometryError (Option (Place K)) :=
  let f := p.fields
  let read := textOf texts.toTextFunctions feature.attributes
  (representativePoint feature.geometry).bind fun point =>
    match read (some f.name) <|> read f.altName, point,
        (feature.attributes oidField).filter fun oid => ¬ oid matches .null with
    | some name, some point, some oid =>
      ((numberOf texts.toTextFunctions feature.attributes f.importance).mapError .query).map
        fun importance => some
          { id := "plc_" ++ texts.format oid
            name := name
            altName := read f.altName
            address := read f.address <|> p.defaultAddress
            type := texts.lower ((read f.type).getD "place")
            location := point
            importance := importance.getD 0 }
    | _, _, _ => .ok none

/-- `places.setdefault(place.id, place)`: of the places with one id the first stays. -/
def setDefault (places : List (Place K)) (place : Place K) : List (Place K) :=
  if ∃ q ∈ places, q.id = place.id then places else places ++ [place]

/-! ### Ranking -/

/-- `name.replace(",", " ").split()`. -/
def words (P : PyText) (name : String) : List (List Char) :=
  ((name.toList.map fun c => if c = ',' then ' ' else c).splitOnP P.space).filter (· ≠ [])

/-- How well a name in upper case matches the query in upper case. -/
def level (P : PyText) (query : String) (tokens : List String) (name : String) : ℕ :=
  if name = query then 0
  else if query.toList <+: name.toList then 1
  else if ∀ token ∈ tokens, ∃ word ∈ words P name, (P.upperText token).toList <+: word then 2
  else 3

/-- `_rank`. -/
def rank (P : PyText) (query : String) (tokens : List String) (place : Place K) :
    ℕ ×ₗ K ×ₗ ℕ ×ₗ String :=
  let names := (place.name :: (orNone place.altName).toList).map P.upperText
  toLex (((names.map (level P query tokens)).min?).getD 0,
    toLex (-place.importance, toLex (place.name.length, place.name)))

/-! ### Searching -/

def searchFields : List String := fieldsOf [some p.fields.name, p.fields.altName]

/-- The fields that are asked for: those that are configured, and the object id. -/
def candidateFields (info : LayerInfo) : List String :=
  let f := p.fields
  fieldsOf [some f.name, f.altName, f.address, f.type, f.importance] ++ [info.objectIdField]

/-- One of the two pages. -/
def candidatePage (up : Upstream K) (info : LayerInfo) (i : ℕ) (whereClause : String) :
    Except GeometryError (List (EsriFeature K)) :=
  ((query up info i { whereClause := whereClause, outFields := candidateFields p info } none
    (some p.candidateLimit)).map EsriFeatureSet.features).mapError .query

/-- The places of the candidates, each once, in the order of their rank. -/
def rankPlaces (normalized : String) (oidField : String) (features : List (EsriFeature K)) :
    Except GeometryError (List (Place K)) :=
  (features.mapM fun feature => toPlace texts p feature oidField).map fun places =>
    (places.reduceOption.foldl setDefault []).insertionSort fun a b =>
      rank P (P.upperText normalized) (searchTokens normalized) a ≤
        rank P (P.upperText normalized) (searchTokens normalized) b

/-- `search`. The two queries run side by side; which of two errors is raised is left to time. -/
def search (up : Upstream K) (text : String) (limit : ℕ) :
    Except GeometryError (List (Place K)) :=
  let normalized := normalizeSearchText P text
  if normalized = "" then .ok []
  else
    ((up.layer.bind layerInfo).mapError .query).bind fun info =>
    ((prefixClause P (searchFields p) normalized).mapError .query).bind fun starts =>
    ((containsAllTokensClause P (searchFields p) (searchTokens normalized)).mapError .query).bind
      fun contains =>
    (candidatePage p up info 0 starts).bind fun prefixPage =>
    (candidatePage p up info 1 contains).bind fun containsPage =>
    (rankPlaces texts p normalized info.objectIdField (prefixPage ++ containsPage)).map
      (List.take limit)

end Search
end GeoPlatform.ArcGIS
