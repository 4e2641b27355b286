import GeoPlatform.ArcGIS.Geometry
import GeoPlatform.Geo.Geodesy
import GeoPlatform.Geo.RoadSnap
import GeoPlatform.Library.Closest
import Mathlib.Data.List.ReduceOption

/-! The three finders of `ArcGISReverseGeocodingProvider`. The nearest road is looked for among
the named ones. The nearest address and the nearest place are looked for among all features, and
only the one that is found is asked for its address or name. -/
namespace GeoPlatform.ArcGIS
open GeoPlatform.Geo
variable {K : Type}

/-! ### Configuration -/

structure AddressFieldMap where
  formatted : Option String := none
  name : Option String := none
  street : Option String := none
  houseNumber : Option String := none
  district : Option String := none
  city : Option String := none
  country : Option String := none

structure PlacesFieldMap where
  name : String
  altName : Option String := none
  address : Option String := none
  type : Option String := none
  importance : Option String := none

/-- The layers that are configured, each with what its service answers. -/
structure ReverseLayers (K : Type) where
  addresses : Option (Upstream K) := none
  places : Option (Upstream K) := none
  roads : Option (Upstream K) := none

structure ReverseProvider (K : Type) where
  layers : ReverseLayers K := {}
  addressFields : AddressFieldMap := {}
  placesFields : PlacesFieldMap
  roadNameField : Option String := none
  defaultCity : Option String := none
  defaultCountry : Option String := none

inductive MatchType
  | address
  | place
  | street
  deriving DecidableEq, Repr

structure AddressMatch (K : Type) where
  formatted : String
  matchType : MatchType
  location : Point K
  distanceMeters : WithTop K
  name : Option String := none
  houseNumber : Option String := none
  street : Option String := none
  district : Option String := none
  city : Option String := none
  country : Option String := none

/-! ### Texts -/

/-- `part or none`. -/
def orNone (part : Option String) : Option String := part.filter (· ≠ "")

/-- `_fields`: the names that are configured, each once. -/
def fieldsOf (names : List (Option String)) : List String :=
  (names.filterMap orNone).eraseDups

/-- The parts that are there, each once. -/
def compose (parts : List (Option String)) : String :=
  ", ".intercalate (fieldsOf parts)

variable [Field K] [LinearOrder K]

/-! ### Features near a point -/

/-- `_nearby`. The parameters are checked before the layer is asked for. -/
def nearby (up : Upstream K) (point : Point K) (radius : K) (fields : List String) :
    Except QueryError (List (EsriFeature K)) :=
  let q : Query K :=
    { outFields := if fields = [] then ["*"] else fields
      geometry := some (.point point.1 point.2 radius) }
  (queryParams q).bind fun _ => (up.layer.bind layerInfo).bind fun info =>
    (query up info 0 q none (some 200)).map EsriFeatureSet.features

/-- The features of a layer, where it is configured. -/
def page (layer : Option (Upstream K)) (point : Point K) (radius : K) (fields : List String) :
    Option (Except GeometryError (List (EsriFeature K))) :=
  layer.map fun up => (nearby up point radius fields).mapError .query

/-- A feature with its location. -/
structure Located (K : Type) where
  feature : EsriFeature K
  location : Point K

def locate (feature : EsriFeature K) : Except GeometryError (Option (Located K)) :=
  (representativePoint feature.geometry).map (Option.map (Located.mk feature))

/-- The features that have a location. -/
def located (features : List (EsriFeature K)) : Except GeometryError (List (Located K)) :=
  (features.mapM locate).map List.reduceOption

section Finders
variable (haversine : Point K → Point K → K) (cosDeg : K → K) (text : TextFunctions K)
variable (p : ReverseProvider K)

/-- `_closest_point_feature`. -/
def closestPointFeature (features : List (EsriFeature K)) (point : Point K) :
    Except GeometryError (Option (Located K)) :=
  (located features).map (List.argmin fun x => haversine point x.location)

/-! ### The nearest address -/

/-- `" ".join(p for p in (house, street) if p) or None`. -/
def streetLine (house street : Option String) : Option String :=
  orNone (some (" ".intercalate [house, street].reduceOption))

/-- What is read of the attributes, or else the configured default. -/
def cityOf (x : Located K) : Option String :=
  textOf text x.feature.attributes p.addressFields.city <|> p.defaultCity

def countryOf (x : Located K) : Option String :=
  textOf text x.feature.attributes p.addressFields.country <|> p.defaultCountry

/-- The formatted text of an address, which may come out empty. -/
def formattedAddress (x : Located K) : String :=
  let f := p.addressFields
  let read := textOf text x.feature.attributes
  match read f.formatted with
  | none =>
    compose [read f.name, streetLine (read f.houseNumber) (read f.street), read f.district,
      cityOf text p x, countryOf text p x]
  | some formatted =>
    if ∃ c ∈ orNone (countryOf text p x), ¬ c.toList <:+: formatted.toList then
      compose [some formatted, cityOf text p x, countryOf text p x]
    else formatted

def addressMatch (point : Point K) (x : Located K) : Option (AddressMatch K) :=
  let f := p.addressFields
  let read := textOf text x.feature.attributes
  if formattedAddress text p x = "" then none
  else some
    { formatted := formattedAddress text p x
      matchType := .address
      location := x.location
      distanceMeters := haversine point x.location
      name := read f.name
      houseNumber := read f.houseNumber
      street := read f.street
      district := read f.district
      city := cityOf text p x
      country := countryOf text p x }

def addressesPage (point : Point K) (radius : K) :
    Option (Except GeometryError (List (EsriFeature K))) :=
  let f := p.addressFields
  page p.layers.addresses point radius
    (fieldsOf [f.formatted, f.name, f.street, f.houseNumber, f.district, f.city, f.country])

def nearestAddress (point : Point K) (radius : K) :
    Except GeometryError (Option (AddressMatch K)) :=
  match addressesPage p point radius with
  | none => .ok none
  | some features => features.bind fun features =>
      (closestPointFeature haversine features point).map
        (Option.bind · (addressMatch haversine text p point))

/-! ### The nearest place -/

/-- The name of a place, or its alternative name. -/
def placeName (x : Located K) : Option String :=
  textOf text x.feature.attributes (some p.placesFields.name) <|>
    textOf text x.feature.attributes p.placesFields.altName

def placeMatch (point : Point K) (x : Located K) : Option (AddressMatch K) :=
  (placeName text p x).map fun name =>
    { formatted := compose [some name, textOf text x.feature.attributes p.placesFields.address,
        p.defaultCity, p.defaultCountry]
      matchType := .place
      location := x.location
      distanceMeters := haversine point x.location
      name := some name
      city := p.defaultCity
      country := p.defaultCountry }

def placesPage (point : Point K) (radius : K) :
    Option (Except GeometryError (List (EsriFeature K))) :=
  let f := p.placesFields
  page p.layers.places point radius (fieldsOf [some f.name, f.altName, f.address])

def nearestPlace (point : Point K) (radius : K) :
    Except GeometryError (Option (AddressMatch K)) :=
  match placesPage p point radius with
  | none => .ok none
  | some features => features.bind fun features =>
      (closestPointFeature haversine features point).map
        (Option.bind · (placeMatch haversine text p point))

/-! ### The nearest road -/

/-- `distance_to_polyline_m`. -/
def distanceToPolyline (point : Point K) : List (Point K) → WithTop K
  | [q] => haversine point q
  | path => (path.zip path.tail).foldl (fun best side =>
      min best ((projectOntoSegment haversine cosDeg point side.1 side.2).2.2 : WithTop K)) ⊤

/-- The paths of a road, under its name. A road without a name has none. -/
def namedPaths (feature : EsriFeature K) :
    Except GeometryError (List (String × List (Point K))) :=
  match textOf text feature.attributes p.roadNameField with
  | none => .ok []
  | some name => ((polylinePaths feature.geometry).mapError .query).map (List.map (name, ·))

def namedRoads (features : List (EsriFeature K)) :
    Except GeometryError (List (String × List (Point K))) :=
  (features.mapM (namedPaths text p)).map List.flatten

def roadMatch (point : Point K) (road : String × List (Point K)) : AddressMatch K where
  formatted := compose [some road.1, p.defaultCity, p.defaultCountry]
  matchType := .street
  location := point
  distanceMeters := distanceToPolyline haversine cosDeg point road.2
  name := some road.1
  street := some road.1
  city := p.defaultCity
  country := p.defaultCountry

def roadsPage (point : Point K) (radius : K) :
    Option (Except GeometryError (List (EsriFeature K))) :=
  (orNone p.roadNameField).bind fun name => page p.layers.roads point radius [name]

def nearestRoad (point : Point K) (radius : K) :
    Except GeometryError (Option (AddressMatch K)) :=
  match roadsPage p point radius with
  | none => .ok none
  | some features => features.bind fun features =>
      (namedRoads text p features).map fun roads =>
        (roads.argmin fun road => distanceToPolyline haversine cosDeg point road.2).map
          (roadMatch haversine cosDeg p point)

end Finders

variable {haversine : Point K → Point K → K} {cosDeg : K → K} {text : TextFunctions K}
variable {p : ReverseProvider K} {point : Point K} {radius : K} {x : Located K}

/-! ### Which features have an address -/

omit [Field K] [LinearOrder K] in
theorem textOf_ne_empty {attributes : String → Option (Json K)} {field : Option String}
    {s : String} (h : textOf text attributes field = some s) : s ≠ "" := by
  unfold textOf at h
  split at h
  · cases h
  · cases h
  · rw [Option.filter_eq_some_iff] at h
    simpa using h.2

theorem intercalate_eq_empty {sep : String} {l : List String} (h : ∀ s ∈ l, s ≠ "") :
    sep.intercalate l = "" ↔ l = [] := by
  cases l with
  | nil => simp
  | cons s l =>
    have hs := h s (List.mem_cons_self ..)
    constructor
    · intro hempty
      have hlist := congrArg String.toList hempty
      rw [String.toList_intercalate] at hlist
      cases l with
      | nil => exact absurd (by simpa using hlist) hs
      | cons t l =>
        rw [List.map_cons, List.map_cons, List.intercalate_cons_cons, List.append_assoc,
          String.toList_empty, List.append_eq_nil_iff] at hlist
        exact absurd (by simpa using hlist.1) hs
    · intro hnil
      cases hnil

theorem mem_fieldsOf {names : List (Option String)} {s : String} :
    s ∈ fieldsOf names ↔ some s ∈ names ∧ s ≠ "" := by
  unfold fieldsOf
  rw [List.mem_eraseDups, List.mem_filterMap]
  constructor
  · rintro ⟨o, ho, hs⟩
    rw [orNone, Option.filter_eq_some_iff] at hs
    exact ⟨hs.1 ▸ ho, by simpa using hs.2⟩
  · rintro ⟨hs, hne⟩
    exact ⟨some s, hs, by simp [orNone, hne]⟩

theorem compose_eq_empty {parts : List (Option String)} :
    compose parts = "" ↔ ¬ ∃ s, some s ∈ parts ∧ s ≠ "" := by
  unfold compose
  rw [intercalate_eq_empty fun s hs => (mem_fieldsOf.mp hs).2, List.eq_nil_iff_forall_not_mem]
  simp only [mem_fieldsOf, not_exists]

/-- What a formatted address is made of. -/
def addressParts (text : TextFunctions K) (p : ReverseProvider K) (x : Located K) :
    List (Option String) :=
  let f := p.addressFields
  [f.formatted, f.name, f.houseNumber, f.street, f.district].map
      (textOf text x.feature.attributes) ++ [cityOf text p x, countryOf text p x]

/-- One of the parts of a formatted address is there. -/
def HasAddress (text : TextFunctions K) (p : ReverseProvider K) (x : Located K) : Prop :=
  ∃ s, some s ∈ addressParts text p x ∧ s ≠ ""

theorem streetLine_ne_empty {house street : Option String} {s : String}
    (h : streetLine house street = some s) : s ≠ "" := by
  unfold streetLine orNone at h
  rw [Option.filter_eq_some_iff] at h
  simpa using h.2

theorem streetLine_eq_none {house street : Option String} (hhouse : ∀ s ∈ house, s ≠ "")
    (hstreet : ∀ s ∈ street, s ≠ "") :
    streetLine house street = none ↔ house = none ∧ street = none := by
  have hparts : ∀ s ∈ [house, street].reduceOption, s ≠ "" := by
    intro s hs
    rw [List.reduceOption_mem_iff] at hs
    simp only [List.mem_cons, List.not_mem_nil, or_false] at hs
    rcases hs with hs | hs
    · exact hhouse s hs.symm
    · exact hstreet s hs.symm
  have hnil : [house, street].reduceOption = [] ↔ house = none ∧ street = none := by
    cases house <;> cases street <;> simp [List.reduceOption]
  rw [← hnil, ← @intercalate_eq_empty " " _ hparts]
  unfold streetLine orNone
  rw [Option.filter_eq_none_iff]
  simp

theorem exists_text {o : Option String} (h : ∀ s ∈ o, s ≠ "") :
    (∃ s, some s = o ∧ s ≠ "") ↔ ¬ o = none := by
  cases o with
  | none => simp
  | some s => simpa using h s rfl

omit [Field K] [LinearOrder K] in
theorem formattedAddress_eq_empty :
    formattedAddress text p x = "" ↔ ¬ HasAddress text p x := by
  have hread := fun field s => @textOf_ne_empty K text x.feature.attributes field s
  unfold formattedAddress HasAddress
  cases hformatted : textOf text x.feature.attributes p.addressFields.formatted with
  | some formatted =>
    have hne := hread _ _ hformatted
    have hhas : ∃ s, some s ∈ addressParts text p x ∧ s ≠ "" :=
      ⟨formatted, by simp [addressParts, hformatted], hne⟩
    simp only [hformatted, hhas, not_true_eq_false, iff_false]
    split_ifs
    · rw [compose_eq_empty, not_not]
      exact ⟨formatted, by simp, hne⟩
    · exact hne
  | none =>
    have hhouse := exists_text (hread p.addressFields.houseNumber)
    have hstreet := exists_text (hread p.addressFields.street)
    have hnone := @streetLine_eq_none (textOf text x.feature.attributes p.addressFields.houseNumber)
      (textOf text x.feature.attributes p.addressFields.street) (hread _) (hread _)
    have hline := exists_text fun s (hs : s ∈ streetLine
      (textOf text x.feature.attributes p.addressFields.houseNumber)
      (textOf text x.feature.attributes p.addressFields.street)) => streetLine_ne_empty hs
    simp only [hformatted, compose_eq_empty, addressParts, List.map_cons,
      List.map_nil, List.cons_append, List.nil_append, List.mem_cons, List.not_mem_nil, or_false,
      reduceCtorEq, false_or, or_and_right, exists_or, hhouse, hstreet, hline, hnone, not_and_or,
      or_assoc]

omit [Field K] [LinearOrder K] in
theorem addressMatch_eq_none :
    addressMatch haversine text p point x = none ↔ ¬ HasAddress text p x := by
  rw [← formattedAddress_eq_empty]
  unfold addressMatch
  split_ifs with hempty
  · simp [hempty]
  · simp [hempty]

omit [Field K] [LinearOrder K] in
theorem placeMatch_eq_none :
    placeMatch haversine text p point x = none ↔ placeName text p x = none :=
  Option.map_eq_none_iff

/-! ### What the finders return -/

/-- What is found is right just where the first of the closest features qualifies, if any feature
does. -/
def FirstQualifies (haversine : Point K → Point K → K) (point : Point K) (xs : List (Located K))
    (qualifies : Located K → Prop) : Prop :=
  (∀ x ∈ xs, ¬ qualifies x) ∨
    ∃ x, Closest.IsFirst (fun x => haversine point x.location) xs x ∧ qualifies x

omit [Field K] in
theorem describes_closest_iff {xs : List (Located K)} {qualifies : Located K → Prop}
    {describe : Located K → Option (AddressMatch K)}
    (h : ∀ x, describe x = none ↔ ¬ qualifies x) :
    Closest.Describes (fun x => haversine point x.location) describe xs
        ((xs.argmin fun x => haversine point x.location).bind describe) ↔
      FirstQualifies haversine point xs qualifies := by
  have hsome : ∀ x, (describe x).isSome ↔ qualifies x := by
    intro x
    rw [Option.isSome_iff_ne_none, Ne, h, not_not]
  rw [Closest.argmin_bind_iff]
  simp only [h, hsome, FirstQualifies]

theorem nearestAddress_eq {features : List (EsriFeature K)} {xs : List (Located K)}
    (hpage : addressesPage p point radius = some (.ok features))
    (hlocated : located features = .ok xs) : nearestAddress haversine text p point radius =
      .ok ((xs.argmin fun x => haversine point x.location).bind
        (addressMatch haversine text p point)) := by
  unfold nearestAddress closestPointFeature
  simp only [hpage, Except.bind, hlocated, Except.map]

theorem nearestPlace_eq {features : List (EsriFeature K)} {xs : List (Located K)}
    (hpage : placesPage p point radius = some (.ok features))
    (hlocated : located features = .ok xs) : nearestPlace haversine text p point radius =
      .ok ((xs.argmin fun x => haversine point x.location).bind
        (placeMatch haversine text p point)) := by
  unfold nearestPlace closestPointFeature
  simp only [hpage, Except.bind, hlocated, Except.map]

/-- The finder of the nearest address and that of the nearest place return what they should just
where the first of the closest features qualifies, or none does. That of the nearest road always
does. -/
theorem nearest_qualifying_iff (haversine : Point K → Point K → K) (cosDeg : K → K)
    (text : TextFunctions K) (p : ReverseProvider K) (point : Point K) (radius : K) :
    (∀ features xs, addressesPage p point radius = some (.ok features) →
      located features = .ok xs → ∃ found,
        nearestAddress haversine text p point radius = .ok found ∧
        (Closest.Describes (fun x => haversine point x.location)
          (addressMatch haversine text p point) xs found ↔
            FirstQualifies haversine point xs (HasAddress text p))) ∧
    (∀ features xs, placesPage p point radius = some (.ok features) →
      located features = .ok xs → ∃ found,
        nearestPlace haversine text p point radius = .ok found ∧
        (Closest.Describes (fun x => haversine point x.location)
          (placeMatch haversine text p point) xs found ↔
            FirstQualifies haversine point xs fun x => placeName text p x ≠ none)) ∧
    ∀ features roads, roadsPage p point radius = some (.ok features) →
      namedRoads text p features = .ok roads → ∃ found,
        nearestRoad haversine cosDeg text p point radius = .ok found ∧
        Closest.Describes (fun road => distanceToPolyline haversine cosDeg point road.2)
          (fun road => some (roadMatch haversine cosDeg p point road)) roads found := by
  refine ⟨?_, ?_, ?_⟩
  · intro features xs hpage hlocated
    exact ⟨_, nearestAddress_eq hpage hlocated, describes_closest_iff fun x => addressMatch_eq_none⟩
  · intro features xs hpage hlocated
    exact ⟨_, nearestPlace_eq hpage hlocated,
      describes_closest_iff fun x => placeMatch_eq_none.trans (not_not).symm⟩
  · intro features roads hpage hroads
    refine ⟨_, ?_, Closest.describes_argmin_map⟩
    unfold nearestRoad
    simp only [hpage, Except.bind, hroads, Except.map]

/-! ### An unnamed feature at the very point -/

/-- Texts as they are, and nothing else. -/
def plainTexts : TextFunctions ℝ where
  str
    | .str s => s
    | _ => ""
  lower := id
  float _ := none

def fountain : EsriFeature ℝ where
  geometry := some [("x", .int 0), ("y", .int 0)]

def museum : EsriFeature ℝ where
  attributes name := if name = "name" then some (.str "Museum") else none
  geometry := some [("x", .int 0), ("y", .int 1)]

def mainStreet : EsriFeature ℝ where
  attributes name := if name = "name" then some (.str "Main Street") else none
  geometry := some [("paths", .list [.list [.list [.int 0, .int 1], .list [.int 0, .int 0]]])]

/-- At the far end of the street, without a name. -/
def statue : EsriFeature ℝ where
  geometry := some [("x", .int 0), ("y", .int 1)]

/-- A layer that shows these features, and no others. -/
def serviceOf (features : List (EsriFeature ℝ)) : Upstream ℝ where
  layer := .ok { objectIdField := some "oid" }
  count _ := .ok features.length
  query _ _ := .ok { features := features }

def providerOf (features : List (EsriFeature ℝ)) : ReverseProvider ℝ where
  layers := ⟨some (serviceOf features), some (serviceOf features), some (serviceOf features)⟩
  addressFields := { name := some "name" }
  placesFields := { name := "name" }
  roadNameField := some "name"

theorem pages_providerOf (features : List (EsriFeature ℝ)) :
    addressesPage (providerOf features) (0, 0) 100 = some (.ok features) ∧
    placesPage (providerOf features) (0, 0) 100 = some (.ok features) ∧
    roadsPage (providerOf features) (0, 0) 100 = some (.ok features) := by
  have haddress : fieldsOf [none, some "name", none, none, none, none, none] = ["name"] := by
    decide
  have hplace : fieldsOf [some "name", none, none] = ["name"] := by
    decide
  have hvalid : validFieldName "name" = true := by
    decide
  have hnearby : (nearby (serviceOf features) (0, 0) 100 ["name"]).mapError GeometryError.query =
      .ok features := by
    simp [nearby, queryParams, hvalid, serviceOf, layerInfo, query, Except.bind, Except.map,
      Except.mapError, Option.filter_some]
  refine ⟨?_, ?_, ?_⟩
  · show some ((nearby _ _ _ (fieldsOf [none, some "name", none, none, none, none, none])).mapError
      GeometryError.query) = _
    rw [haddress]
    exact congrArg some hnearby
  · show some ((nearby _ _ _ (fieldsOf [some "name", none, none])).mapError
      GeometryError.query) = _
    rw [hplace]
    exact congrArg some hnearby
  · exact congrArg some hnearby

theorem locate_point {feature : EsriFeature ℝ} {x y : ℤ} {a b : ℝ}
    (hgeometry : feature.geometry = some [("x", .int x), ("y", .int y)])
    (hx : floatOf x = .ok a) (hy : floatOf y = .ok b) :
    locate feature = .ok (some ⟨feature, (a, b)⟩) := by
  simp [locate, representativePoint, hgeometry, readPosition, position, Json.number, hx, hy,
    List.lookup_cons, Except.map, Except.mapError, Except.bind]

theorem located_museum : located [fountain, museum] =
    .ok [⟨fountain, (0, 0)⟩, ⟨museum, (0, 1)⟩] := by
  have hfountain : locate fountain = .ok (some ⟨fountain, (0, 0)⟩) :=
    locate_point rfl floatOf_zero floatOf_zero
  have hmuseum : locate museum = .ok (some ⟨museum, (0, 1)⟩) :=
    locate_point rfl floatOf_zero floatOf_one
  unfold located
  rw [List.mapM_cons, List.mapM_cons, List.mapM_nil, hfountain, hmuseum]
  rfl

theorem paths_mainStreet : polylinePaths mainStreet.geometry = .ok [[(0, 1), (0, 0)]] := by
  simp [polylinePaths, polylinePath, mainStreet, position, Json.number, Except.map,
    List.mapM_cons, List.mapM_nil, pure, Except.pure, bind, Except.bind]

theorem located_mainStreet : located [statue, mainStreet] =
    .ok [⟨statue, (0, 1)⟩, ⟨mainStreet, (0, 0)⟩] := by
  have hstatue : locate statue = .ok (some ⟨statue, (0, 1)⟩) :=
    locate_point rfl floatOf_zero floatOf_one
  have hpoint : representativePoint mainStreet.geometry = .ok (some (0, 0)) := by
    have hpaths := paths_mainStreet
    simp only [mainStreet] at hpaths ⊢
    simp [representativePoint, middleOfPath, List.lookup_cons, hpaths, Except.map, Except.mapError]
  unfold located
  rw [List.mapM_cons, List.mapM_cons, List.mapM_nil, hstatue, locate, hpoint]
  rfl

theorem name_mainStreet :
    textOf plainTexts mainStreet.attributes (some "name") = some "Main Street" := by
  simp [textOf, mainStreet, plainTexts, Option.filter_some]

theorem namedRoads_mainStreet :
    namedRoads plainTexts (providerOf [statue, mainStreet]) [statue, mainStreet] =
      .ok [("Main Street", [(0, 1), (0, 0)])] := by
  have hunnamed : textOf plainTexts statue.attributes (some "name") = none := by
    simp [textOf, statue, Option.filter_some]
  unfold namedRoads
  rw [List.mapM_cons, List.mapM_cons, List.mapM_nil, namedPaths, namedPaths]
  simp only [providerOf, hunnamed, name_mainStreet, paths_mainStreet]
  rfl

/-- The street passes the point, and the statue is away from it. -/
theorem firstQualifies_mainStreet {qualifies : Located ℝ → Prop}
    (h : qualifies ⟨mainStreet, (0, 0)⟩) : FirstQualifies haversineM (0, 0)
      [⟨statue, (0, 1)⟩, ⟨mainStreet, (0, 0)⟩] qualifies := by
  refine Or.inr ⟨⟨mainStreet, (0, 0)⟩, ⟨[⟨statue, (0, 1)⟩], [], rfl, ?_, by simp⟩, h⟩
  intro y hy
  rw [List.mem_singleton.mp hy]
  show haversineM (0, 0) (0, 0) < haversineM (0, 0) (0, 1)
  rw [isPseudoMetric_haversineM.self, haversineM_meridian]
  · norm_num [EARTH_RADIUS_M, radians, Real.pi_pos]
  · norm_num

/-- On a page with a named feature and one without a name. -/
theorem nearest_qualifying_iff_mainStreet : ∃ address place road,
    nearestAddress haversineM plainTexts (providerOf [statue, mainStreet]) (0, 0) 100 =
      .ok address ∧
    Closest.Describes (fun x => haversineM (0, 0) x.location)
      (addressMatch haversineM plainTexts (providerOf [statue, mainStreet]) (0, 0))
      [⟨statue, (0, 1)⟩, ⟨mainStreet, (0, 0)⟩] address ∧
    nearestPlace haversineM plainTexts (providerOf [statue, mainStreet]) (0, 0) 100 =
      .ok place ∧
    Closest.Describes (fun x => haversineM (0, 0) x.location)
      (placeMatch haversineM plainTexts (providerOf [statue, mainStreet]) (0, 0))
      [⟨statue, (0, 1)⟩, ⟨mainStreet, (0, 0)⟩] place ∧
    nearestRoad haversineM (Real.cos ∘ radians) plainTexts (providerOf [statue, mainStreet])
      (0, 0) 100 = .ok road ∧
    Closest.Describes
      (fun road => distanceToPolyline haversineM (Real.cos ∘ radians) (0, 0) road.2)
      (fun road => some (roadMatch haversineM (Real.cos ∘ radians)
        (providerOf [statue, mainStreet]) (0, 0) road))
      [("Main Street", [(0, 1), (0, 0)])] road := by
  obtain ⟨haddresses, hplaces, hroads⟩ := pages_providerOf [statue, mainStreet]
  obtain ⟨haddress, hplace, hroad⟩ := nearest_qualifying_iff haversineM (Real.cos ∘ radians)
    plainTexts (providerOf [statue, mainStreet]) (0, 0) 100
  obtain ⟨address, ha, hisAddress⟩ := haddress _ _ haddresses located_mainStreet
  obtain ⟨place, hp, hisPlace⟩ := hplace _ _ hplaces located_mainStreet
  obtain ⟨road, hr, hisRoad⟩ := hroad _ _ hroads namedRoads_mainStreet
  refine ⟨address, place, road, ha, hisAddress.mpr (firstQualifies_mainStreet ?_), hp,
    hisPlace.mpr (firstQualifies_mainStreet ?_), hr, hisRoad⟩
  · exact ⟨"Main Street", by simp [addressParts, providerOf, name_mainStreet], by decide⟩
  · simp [placeName, providerOf, name_mainStreet]

/-- A place without a name at the very point hides the named ones. -/
theorem unnamed_place_hides_named :
    ¬ ∀ (p : ReverseProvider ℝ) (point : Point ℝ) (radius : ℝ) features xs,
      placesPage p point radius = some (.ok features) → located features = .ok xs →
      ∃ found, nearestPlace haversineM plainTexts p point radius = .ok found ∧
        Closest.Describes (fun x => haversineM point x.location)
          (placeMatch haversineM plainTexts p point) xs found := by
  intro h
  have hpage := (pages_providerOf [fountain, museum]).2.1
  obtain ⟨found, hfound, hnearest⟩ := h _ _ _ _ _ hpage located_museum
  rw [nearestPlace_eq hpage located_museum] at hfound
  obtain rfl := Except.ok.inj hfound
  rw [describes_closest_iff fun x => placeMatch_eq_none.trans (not_not).symm] at hnearest
  rcases hnearest with hnone | ⟨x, hfirst, hnamed⟩
  · refine hnone ⟨museum, (0, 1)⟩ (by simp) ?_
    simp [placeName, providerOf, museum, textOf, plainTexts, Option.filter_some]
  · have hfountain : Closest.IsFirst (fun x => haversineM (0, 0) x.location)
        [⟨fountain, (0, 0)⟩, ⟨museum, (0, 1)⟩] (⟨fountain, (0, 0)⟩ : Located ℝ) := by
      refine ⟨[], [⟨museum, (0, 1)⟩], rfl, by simp, ?_⟩
      intro y hy
      show haversineM (0, 0) (0, 0) ≤ _
      rw [isPseudoMetric_haversineM.self]
      exact isPseudoMetric_haversineM.nonneg _ _
    rw [← hfountain.unique hfirst] at hnamed
    simp [placeName, providerOf, fountain, textOf] at hnamed

end GeoPlatform.ArcGIS
