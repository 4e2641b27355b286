import GeoPlatform.ArcGIS.RoadNetwork
import GeoPlatform.Geo.RoadOptimal
import GeoPlatform.Library.ExceptMap

/-! When a rebuild installs the whole road layer. The count is held against
`ROUTING_MAX_FEATURES` alone, but the pages stop at `ARCGIS_MAX_RECORDS` too. -/
namespace GeoPlatform.ArcGIS
open GeoPlatform.Geo
variable {K Row : Type}

variable [Field K] [LinearOrder K]
variable {haversine : Point K → Point K → K} {text : TextFunctions K} {f : RoadsFieldMap}
variable {profiles : List (TravelProfile K)} {cfg : RoadSettings} {up : Upstream K}
variable {L : Layer K Row} {before : RoutingProvider K}

/-- Every row that the count query counts, as the service shows it. -/
def allFeatures (L : Layer K Row) (info : LayerInfo) (f : RoadsFieldMap) : List (EsriFeature K) :=
  L.shown info (roadsQuery f) (L.matching "1=1" none)

/-- A `GraphTooLargeError` or an error of the provider, rather than one of Python's own. -/
def RebuildError.OfProvider : RebuildError → Prop
  | .invalidField _ | .overflow | .other _ => False
  | _ => True

/-- Either an error of the provider is raised and nothing installed, or a graph of the whole
layer is. -/
def WholeLayer [FloorRing K] (haversine : Point K → Point K → K) (text : TextFunctions K)
    (f : RoadsFieldMap) (profiles : List (TravelProfile K)) (L : Layer K Row) (up : Upstream K)
    (before : RoutingProvider K) (outcome : Except RebuildError Unit × RoutingProvider K) : Prop :=
  match outcome.1 with
  | .error e => e.OfProvider ∧ outcome.2 = before
  | .ok () => ∃ info segments, up.layer.bind layerInfo = .ok info ∧
      (allFeatures L info f).mapM (segmentsOf text f) = .ok segments ∧
      outcome.2.graph = some
        ⟨allFeatures L info f, RoadGraph.build haversine segments.flatten profiles⟩

/-- A request that fails does so with an `ArcGISError`. -/
def FailsAsArcGIS {α : Type} (answer : Except QueryError α) : Prop :=
  ∀ e, answer = .error e → ∃ kind message, e = .arcgis kind message

/-- The service answers the count truthfully and the pages in OBJECTID order, whenever it
answers. -/
structure RoadsServed (L : Layer K Row) (f : RoadsFieldMap) (up : Upstream K) : Prop where
  pages : ∀ info, up.layer.bind layerInfo = .ok info →
    L.Reads info (roadsQuery f) ∧ L.Honest info up
  counts : ∀ params n, up.count params = .ok n →
    n = (L.matching params.whereClause params.geometry).length

/-- The requests that a load makes fail only with an `ArcGISError`: the count and, where it fits
`ROUTING_MAX_FEATURES`, the others. -/
def FailuresTranslated (L : Layer K Row) (cfg : RoadSettings) (up : Upstream K) : Prop :=
  FailsAsArcGIS (count up {}) ∧
    (cfg.routingMaxFeatures < (L.matching "1=1" none).length ∨
      FailsAsArcGIS up.layer ∧ ∀ i params, FailsAsArcGIS (up.query i params))

/-- The rows up to both limits. -/
def loadedRows (L : Layer K Row) (cfg : RoadSettings) : List Row :=
  (L.matching "1=1" none).take (min cfg.routingMaxFeatures cfg.arcgisMaxRecords).toNat

/-- The segments of a row, read from what the service shows of it. -/
def rowSegments (text : TextFunctions K) (L : Layer K Row) (info : LayerInfo) (f : RoadsFieldMap)
    (r : Row) : Except QueryError (List (RoadSegment K)) :=
  segmentsOf text f (L.render (requestedFields info (roadsQuery (K := K) f)) true r)

/-- The first of the rows that cannot be read has a geometry that is no polyline. -/
def BadGeometryFirst (text : TextFunctions K) (L : Layer K Row) (info : LayerInfo)
    (f : RoadsFieldMap) (rows : List Row) : Prop :=
  ∃ before r after, rows = before ++ r :: after ∧
    (∀ x ∈ before, ∃ segments, rowSegments text L info f x = .ok segments) ∧
    ∃ kind message, rowSegments text L info f r = .error (.arcgis kind message)

/-- The count does not fit `ROUTING_MAX_FEATURES`; or the names of the fields are valid, and
either the count fits `ARCGIS_MAX_RECORDS` and every number a float, or a bad geometry stops the
build. -/
def LimitsAgree (text : TextFunctions K) (L : Layer K Row) (f : RoadsFieldMap)
    (cfg : RoadSettings) (up : Upstream K) : Prop :=
  cfg.routingMaxFeatures < (L.matching "1=1" none).length ∨
  ∀ info, up.layer.bind layerInfo = .ok info →
    (∀ name ∈ requestedFields info (roadsQuery (K := K) f),
      name = "*" ∨ validFieldName name = true) ∧
    (((L.matching "1=1" none).length : ℤ) ≤ cfg.arcgisMaxRecords ∧
        (∀ r ∈ loadedRows L cfg, ∃ segments, rowSegments text L info f r = .ok segments) ∨
      BadGeometryFirst text L info f (loadedRows L cfg))

/-! ### The cap -/

theorem queryCap_settings (cfg : RoadSettings) :
    queryCap cfg.arcgisMaxRecords (some cfg.routingMaxFeatures) =
      min cfg.routingMaxFeatures cfg.arcgisMaxRecords := by
  have hne : cfg.routingMaxFeatures ≠ 0 := by
    have hone := cfg.one_le_maxFeatures
    omega
  rw [queryCap, Option.filter_some, if_pos (by simpa using hne), Option.getD_some]

theorem one_le_queryCap (cfg : RoadSettings) :
    1 ≤ queryCap cfg.arcgisMaxRecords (some cfg.routingMaxFeatures) := by
  rw [queryCap_settings]
  exact le_min cfg.one_le_maxFeatures cfg.one_le_maxRecords

/-! ### Rows -/

omit [LinearOrder K] in
theorem segments_ok_iff (text : TextFunctions K) (info : LayerInfo) (rows : List Row) :
    (∃ segments, (L.shown info (roadsQuery f) rows).mapM (segmentsOf text f) = .ok segments) ↔
      ∀ r ∈ rows, ∃ segments, rowSegments text L info f r = .ok segments := by
  constructor
  · rintro ⟨segments, hsegments⟩ r hr
    obtain ⟨hread, -⟩ := ExceptMap.mapM_mem hsegments
    obtain ⟨s, -, hs⟩ := hread _ (List.mem_map_of_mem hr)
    exact ⟨s, hs⟩
  · intro hgood
    apply ExceptMap.mapM_ok
    intro feature hfeature
    obtain ⟨r, hr, rfl⟩ := List.mem_map.mp hfeature
    exact hgood r hr

omit [LinearOrder K] in
theorem segments_error_iff (text : TextFunctions K) (info : LayerInfo) (rows : List Row) :
    (∃ kind message, (L.shown info (roadsQuery f) rows).mapM (segmentsOf text f) =
      .error (.arcgis kind message)) ↔ BadGeometryFirst text L info f rows := by
  constructor
  · rintro ⟨kind, message, h⟩
    obtain ⟨before, x, after, heq, hok, hx⟩ := ExceptMap.mapM_eq_error.mp h
    obtain ⟨rows₁, rows₂, rfl, rfl, hafter⟩ := List.map_eq_append_iff.mp heq
    obtain ⟨r, rows₂, rfl, rfl, rfl⟩ := List.map_eq_cons_iff.mp hafter
    exact ⟨rows₁, r, rows₂, rfl, fun y hy => hok _ (List.mem_map_of_mem hy), kind, message, hx⟩
  · rintro ⟨before, r, after, rfl, hok, kind, message, hr⟩
    refine ⟨kind, message, ExceptMap.mapM_eq_error.mpr
      ⟨L.shown info (roadsQuery f) before, _, L.shown info (roadsQuery f) after, ?_, ?_, hr⟩⟩
    · rw [Layer.shown, List.map_append]
      rfl
    · intro feature hfeature
      obtain ⟨x, hx, rfl⟩ := List.mem_map.mp hfeature
      exact hok x hx

/-! ### Rebuilding -/

theorem queryRoads_cases (hserved : RoadsServed L f up) (cfg : RoadSettings) :
    (∃ info, up.layer.bind layerInfo = .ok info ∧
      queryAll up cfg.arcgisMaxRecords (roadsQuery f) (some cfg.routingMaxFeatures) =
        .ok (L.shown info (roadsQuery f) (loadedRows L cfg))) ∨
    ∃ e, queryAll up cfg.arcgisMaxRecords (roadsQuery f) (some cfg.routingMaxFeatures) = .error e ∧
      ¬ up.Answers (roadsQuery f) := by
  rw [loadedRows, ← queryCap_settings]
  exact queryAll_cases L up (roadsQuery f) hserved.pages cfg.arcgisMaxRecords
    (some cfg.routingMaxFeatures)

/-- A successful load counted within the one limit, and holds the rows up to both. -/
theorem loadGraph_ok [FloorRing K] (hserved : RoadsServed L f up) {loaded : LoadedGraph K}
    (h : loadGraph haversine text f profiles cfg up = .ok loaded) :
    ((L.matching "1=1" none).length : ℤ) ≤ cfg.routingMaxFeatures ∧
      ∃ info segments, up.layer.bind layerInfo = .ok info ∧
        (L.shown info (roadsQuery f) (loadedRows L cfg)).mapM (segmentsOf text f) = .ok segments ∧
        loaded = ⟨L.shown info (roadsQuery f) (loadedRows L cfg),
          RoadGraph.build haversine segments.flatten profiles⟩ := by
  unfold loadGraph at h
  split at h
  · cases h
  · case _ n hcount =>
    have hn : n = (L.matching "1=1" none).length := hserved.counts _ n hcount
    split_ifs at h with hlarge
    rw [hn, not_lt] at hlarge
    rcases queryRoads_cases hserved cfg with ⟨info, hinfo, hall⟩ | ⟨e, he, -⟩
    · simp only [hall] at h
      split at h
      · cases h
      · case _ segments hsegments =>
        cases h
        exact ⟨hlarge, info, segments, hinfo, hsegments, rfl⟩
    · rw [he] at h
      cases h

theorem ofProvider_iff (e : QueryError) :
    (translateErrors e).OfProvider ↔ ∃ kind message, e = .arcgis kind message := by
  cases e with
  | arcgis kind message => cases kind <;> simp [translateErrors, RebuildError.OfProvider]
  | invalidField name => simp [translateErrors, RebuildError.OfProvider]
  | overflow => simp [translateErrors, RebuildError.OfProvider]
  | other exception => simp [translateErrors, RebuildError.OfProvider]

theorem layer_fails (h : FailsAsArcGIS up.layer) : FailsAsArcGIS (up.layer.bind layerInfo) := by
  intro e he
  cases hlayer : up.layer with
  | error e' =>
    rw [hlayer] at he
    cases he
    exact h e hlayer
  | ok layer =>
    simp only [hlayer, Except.bind, layerInfo] at he
    split at he
    · cases he
      exact ⟨_, _, rfl⟩
    · cases he

/-- Where the limits agree and the failures of requests are translated, a load fails with an
error of the provider. -/
theorem loadGraph_error [FloorRing K] (hserved : RoadsServed L f up)
    (hfailures : FailuresTranslated L cfg up) (h : LimitsAgree text L f cfg up) {e : RebuildError}
    (hload : loadGraph haversine text f profiles cfg up = .error e) : e.OfProvider := by
  unfold loadGraph at hload
  split at hload
  · case _ e' hcount =>
    cases hload
    exact (ofProvider_iff e').mpr (hfailures.1 e' hcount)
  · case _ n hcount =>
    have hn : n = (L.matching "1=1" none).length := hserved.counts _ n hcount
    split_ifs at hload with hlarge
    · cases hload
      trivial
    · obtain ⟨hlayerFails, hpageFails⟩ := hfailures.2.resolve_left (hn ▸ hlarge)
      replace h := h.resolve_left (hn ▸ hlarge)
      rcases queryRoads_cases hserved cfg with ⟨info, hinfo, hall⟩ | ⟨e', he', -⟩
      · simp only [hall] at hload
        split at hload
        · case _ e' hsegments =>
          cases hload
          rcases (h info hinfo).2 with ⟨-, hread⟩ | hbad
          · obtain ⟨segments, hok⟩ := (segments_ok_iff text info _).mpr hread
            cases hok.symm.trans hsegments
          · obtain ⟨kind, message, hbad⟩ := (segments_error_iff text info _).mpr hbad
            cases hbad.symm.trans hsegments
            exact (ofProvider_iff _).mpr ⟨kind, message, rfl⟩
        · cases hload
      · simp only [he'] at hload
        cases hload
        rw [ofProvider_iff]
        rcases queryAll_error L up (roadsQuery f) hserved.pages (fun info hinfo => (h info hinfo).1)
          _ _ he' with hlayer | ⟨i, params, hpage⟩
        · exact layer_fails hlayerFails e' hlayer
        · exact hpageFails i params e' hpage

omit [Field K] [LinearOrder K] in
theorem loadedRows_all (h : ((L.matching "1=1" none).length : ℤ) ≤ cfg.arcgisMaxRecords)
    (hfits : ((L.matching "1=1" none).length : ℤ) ≤ cfg.routingMaxFeatures) :
    loadedRows L cfg = L.matching "1=1" none := by
  apply List.take_of_length_le
  omega

omit [Field K] [LinearOrder K] in
theorem loadedRows_cut (h : ¬ ((L.matching "1=1" none).length : ℤ) ≤ cfg.arcgisMaxRecords)
    (hfits : ((L.matching "1=1" none).length : ℤ) ≤ cfg.routingMaxFeatures) :
    loadedRows L cfg = (L.matching "1=1" none).take cfg.arcgisMaxRecords.toNat := by
  rw [loadedRows, min_eq_right (by omega)]

/-- Where the limits agree, an installed graph is one of the whole layer. -/
theorem rebuild_whole [FloorRing K] (hserved : RoadsServed L f up)
    (hfailures : FailuresTranslated L cfg up) (h : LimitsAgree text L f cfg up) :
    WholeLayer haversine text f profiles L up before
      (rebuild haversine text f profiles cfg up before) := by
  unfold rebuild
  cases hload : loadGraph haversine text f profiles cfg up with
  | error e => exact ⟨loadGraph_error hserved hfailures h hload, rfl⟩
  | ok loaded =>
    obtain ⟨hfits, info, segments, hinfo, hsegments, rfl⟩ := loadGraph_ok hserved hload
    rcases (h.resolve_left (not_lt.mpr hfits) info hinfo).2 with ⟨hrecords, -⟩ | hbad
    · rw [loadedRows_all hrecords hfits] at hsegments ⊢
      exact ⟨info, segments, hinfo, hsegments, rfl⟩
    · obtain ⟨kind, message, hbad⟩ := (segments_error_iff text info _).mpr hbad
      cases hbad.symm.trans hsegments

/-- When the count is answered and fits, a load is what is read of the rows. -/
theorem loadGraph_counted [FloorRing K] (hserved : RoadsServed L f up)
    (hcount : ∃ n, count up {} = .ok n)
    (hfits : ((L.matching "1=1" none).length : ℤ) ≤ cfg.routingMaxFeatures) :
    loadGraph haversine text f profiles cfg up =
      match queryAll up cfg.arcgisMaxRecords (roadsQuery f) (some cfg.routingMaxFeatures) with
      | .error e => .error (translateErrors e)
      | .ok features =>
        match features.mapM (segmentsOf text f) with
        | .error e => .error (translateErrors e)
        | .ok segments => .ok ⟨features, RoadGraph.build haversine segments.flatten profiles⟩ := by
  obtain ⟨n, hn⟩ := hcount
  have hlen : n = (L.matching "1=1" none).length := hserved.counts _ n hn
  unfold loadGraph
  rw [hn]
  exact if_neg (by rw [hlen]; exact not_lt.mpr hfits)

/-- Where the service answers, the whole layer is installed, or an error of the provider
raised, only if the limits agree. -/
theorem limitsAgree_of_whole [FloorRing K] (hserved : RoadsServed L f up)
    (hpages : ∀ i params, ∃ page, up.query i params = .ok page)
    (hcount : ∃ n, count up {} = .ok n)
    (hwhole : WholeLayer haversine text f profiles L up before
      (rebuild haversine text f profiles cfg up before)) : LimitsAgree text L f cfg up := by
  rw [LimitsAgree, or_iff_not_imp_left, not_lt]
  intro hfits info hinfo
  have hload := @loadGraph_counted K Row _ _ haversine text f profiles cfg up L _ hserved hcount
    hfits
  unfold rebuild at hwhole
  have hvalid : ∀ name ∈ requestedFields info (roadsQuery (K := K) f),
      name = "*" ∨ validFieldName name = true := by
    by_contra hn
    push Not at hn
    obtain ⟨name, hname, hinvalid⟩ := hn
    obtain ⟨bad, hbad⟩ := queryAll_invalidField up (roadsQuery f) hinfo hname
      (fun hor => hor.elim hinvalid.1 hinvalid.2) cfg.arcgisMaxRecords
      (some cfg.routingMaxFeatures) (one_le_queryCap cfg)
    simp only [hbad] at hload
    rw [hload] at hwhole
    exact hwhole.1
  refine ⟨hvalid, ?_⟩
  rcases queryRoads_cases hserved cfg with ⟨info', hinfo', hall⟩ | ⟨e, -, hnot⟩
  · cases hinfo.symm.trans hinfo'
    cases hsegments : (L.shown info (roadsQuery f) (loadedRows L cfg)).mapM (segmentsOf text f) with
    | error e =>
      simp only [hall, hsegments] at hload
      rw [hload] at hwhole
      obtain ⟨kind, message, rfl⟩ := (ofProvider_iff e).mp hwhole.1
      exact Or.inr ((segments_error_iff text info _).mp ⟨kind, message, hsegments⟩)
    | ok segments =>
      simp only [hall, hsegments] at hload
      rw [hload] at hwhole
      obtain ⟨info', segments', -, -, hgraph⟩ := hwhole
      refine Or.inl ⟨?_, (segments_ok_iff text info _).mp ⟨segments, hsegments⟩⟩
      -- a part of the layer has fewer features than the layer
      by_contra hrecords
      have hone := cfg.one_le_maxRecords
      have hfeatures := congrArg (fun g => (g.map LoadedGraph.features).map List.length) hgraph
      simp only [Option.map_some, Option.some.injEq, allFeatures, L.length_shown,
        loadedRows_cut hrecords hfits, List.length_take] at hfeatures
      omega
  · exact absurd ⟨info, hinfo, hvalid, hpages⟩ hnot

/-- Of a service that answers, a load that is the whole layer or an error of the provider has had
no other exception from a request. -/
theorem failuresTranslated_of_whole [FloorRing K] (hserved : RoadsServed L f up)
    (hpages : ∀ i params, ∃ page, up.query i params = .ok page)
    (hcount : ∃ n, count up {} = .ok n)
    (hwhole : WholeLayer haversine text f profiles L up before
      (rebuild haversine text f profiles cfg up before)) : FailuresTranslated L cfg up := by
  have hcounted : FailsAsArcGIS (count up {}) := by
    obtain ⟨n, hn⟩ := hcount
    intro e he
    cases hn.symm.trans he
  refine ⟨hcounted, ?_⟩
  rw [or_iff_not_imp_left, not_lt]
  intro hfits
  constructor
  · intro e he
    have hall : queryAll up cfg.arcgisMaxRecords (roadsQuery f) (some cfg.routingMaxFeatures) =
        .error e := by
      simp [queryAll, he, Except.bind]
    have hload := @loadGraph_counted K Row _ _ haversine text f profiles cfg up L _ hserved hcount
      hfits
    simp only [hall] at hload
    unfold rebuild at hwhole
    rw [hload] at hwhole
    exact (ofProvider_iff e).mp hwhole.1
  · intro i params e he
    obtain ⟨page, hpage⟩ := hpages i params
    cases hpage.symm.trans he

def streetFields : RoadsFieldMap := ⟨none, none, none, none, ["FT"], ["TF"]⟩

def asciiText : TextFunctions ℚ where
  str
    | .str s => s
    | _ => ""
  lower := String.toLower
  float _ := none

theorem threeRows_served :
    RoadsServed threeRows streetFields (threeRows.served pagesOfTwo threeRowsLayer) := by
  constructor
  · intro info hinfo
    have hlayer : (threeRows.served pagesOfTwo threeRowsLayer).layer.bind layerInfo =
        .ok pagesOfTwo := rfl
    cases hlayer.symm.trans hinfo
    exact ⟨threeRows_reads, threeRows.served_honest pagesOfTwo threeRowsLayer⟩
  · intro params n hn
    exact (Except.ok.inj hn).symm

theorem threeRows_translated (cfg : RoadSettings) :
    FailuresTranslated threeRows cfg (threeRows.served pagesOfTwo threeRowsLayer) := by
  refine ⟨?_, Or.inr ⟨?_, ?_⟩⟩
  · intro e he
    cases he
  · intro e he
    cases he
  · intro i params e he
    cases he

theorem threeRows_read (info : LayerInfo) (r : ℤ) :
    ∃ segments, rowSegments asciiText threeRows info streetFields r = .ok segments := by
  cases h : rowSegments asciiText threeRows info streetFields r with
  | ok segments => exact ⟨segments, rfl⟩
  | error e =>
    simp [rowSegments, segmentsOf, threeRows, polylinePaths, polylinePath, position, Json.number,
      numberOf, streetFields, Except.bind, Except.map, bind, pure, Except.pure] at h

theorem length_threeRows : (threeRows.matching "1=1" none).length = 3 := by
  have hall : threeRows.matching "1=1" none = Keyset.inOrder threeRows.oid threeRows.rows := by
    apply List.filter_eq_self.mpr
    intro oid _
    show selectsAfter "1=1" oid = true
    rw [selectsAfter, if_pos rfl]
  rw [hall, Keyset.inOrder, List.length_mergeSort]
  rfl

theorem one_le_two_records : (1 : ℤ) ≤ 2 := by decide

/-- `ROUTING_MAX_FEATURES` leaves room for the three streets, `ARCGIS_MAX_RECORDS` for two. -/
def twoRecords : RoadSettings :=
  { routingMaxFeatures := 3, arcgisMaxRecords := 2, one_le_maxRecords := one_le_two_records }

end GeoPlatform.ArcGIS
