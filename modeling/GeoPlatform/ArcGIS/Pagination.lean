import GeoPlatform.ArcGIS.QueryAll
import GeoPlatform.Library.Keyset
import Std.Data.String.ToInt

/-! What `query_all` returns from a layer that answers in OBJECTID order. The pages it takes are
the rows in order, cut at arbitrary places, so that nothing is lost or fetched twice. -/
namespace GeoPlatform.ArcGIS
variable {K Row : Type}

/-! ### Layers -/

/-- The rows behind a layer, which of them a clause and a geometry select, and what the service
makes of a row. -/
structure Layer (K Row : Type) where
  rows : List Row
  oid : Row → ℤ
  distinct : (rows.map oid).Nodup
  selects : String → Option (GeometryFilter K) → Row → Bool
  render : List String → Bool → Row → EsriFeature K

def Layer.matching (L : Layer K Row) (whereClause : String)
    (geometry : Option (GeometryFilter K)) : List Row :=
  (Keyset.inOrder L.oid L.rows).filter (L.selects whereClause geometry)

/-- The rows that one page holds at most. -/
def pageLimit (info : LayerInfo) (params : QueryParams K) : ℤ :=
  if info.supportsPagination then params.resultRecordCount.getD info.maxRecordCount
  else info.maxRecordCount

/-- A page of `k` rows: the first that match. It is not empty when a row matches, and says so
when more rows match than the layer's page size let through. -/
structure Layer.PageOf (L : Layer K Row) (info : LayerInfo) (params : QueryParams K)
    (page : EsriFeatureSet K) (k : ℕ) : Prop where
  features : page.features = ((L.matching params.whereClause params.geometry).take k).map
    (L.render params.outFields params.returnGeometry)
  pos : L.matching params.whereClause params.geometry ≠ [] → 1 ≤ k
  le_limit : (k : ℤ) ≤ pageLimit info params
  exceeded : k < (L.matching params.whereClause params.geometry).length →
    (k : ℤ) < info.maxRecordCount → page.exceededTransferLimit = true

/-- Every page is one of the layer's, when it is asked for in OBJECTID order and, where the
size is asked for at all, for at least one row. -/
def Layer.Honest (L : Layer K Row) (info : LayerInfo) (up : Upstream K) : Prop :=
  ∀ i params page, params.orderByFields = some (info.objectIdField ++ " ASC") →
    (∀ c ∈ params.resultRecordCount, 1 ≤ c) → up.query i params = .ok page →
    ∃ k, L.PageOf info params page k

/-- What a clause and an attribute mean: the clause of a later page selects, of the rows that
the given clause selects, those with a larger object id; and a row shows its object id. -/
structure Layer.Reads (L : Layer K Row) (info : LayerInfo) (q : Query K) : Prop where
  beyond : ∀ n r, L.selects (pageWhere info q.whereClause (some (n, toString n))) q.geometry r =
    (L.selects q.whereClause q.geometry r && decide (n < L.oid r))
  objectId : ∀ r, (L.render (requestedFields info q) q.returnGeometry r).attributes
    info.objectIdField = some (.int (L.oid r))

variable {L : Layer K Row} {info : LayerInfo} {up : Upstream K} {q : Query K} {cap : ℤ}
variable {seen rest : List Row}

/-! ### One page -/

def Layer.lastOid (L : Layer K Row) (seen : List Row) : Option (ℤ × String) :=
  seen.getLast?.map fun r => (L.oid r, toString (L.oid r))

theorem Layer.matching_climbs (L : Layer K Row) (whereClause : String)
    (geometry : Option (GeometryFilter K)) :
    Keyset.Climbs L.oid (L.matching whereClause geometry) :=
  (Keyset.inOrder_climbs L.distinct).filter _

/-- The clause of the next page selects the rows that have not been seen. -/
theorem Layer.matching_beyond (hreads : L.Reads info q)
    (h : L.matching q.whereClause q.geometry = seen ++ rest) :
    L.matching (pageWhere info q.whereClause (L.lastOid seen)) q.geometry = rest := by
  rcases List.eq_nil_or_concat seen with rfl | ⟨seen, last, rfl⟩
  · rw [List.nil_append] at h
    exact h
  · have hclimbs := L.matching_climbs q.whereClause q.geometry
    rw [List.concat_eq_append, List.append_assoc, List.singleton_append] at h
    have hfilter : L.matching (pageWhere info q.whereClause (L.lastOid (seen.concat last)))
        q.geometry = (L.matching q.whereClause q.geometry).filter
          fun r => decide (L.oid last < L.oid r) := by
      unfold Layer.matching
      rw [List.filter_filter]
      apply List.filter_congr
      intro r _
      simp only [Layer.lastOid, List.concat_eq_append, List.getLast?_append,
        List.getLast?_singleton, Option.some_or, Option.map_some]
      rw [hreads.beyond, Bool.and_comm]
    rw [hfilter, h]
    rw [h] at hclimbs
    exact hclimbs.beyond

theorem Layer.lastOid_lt (h : Keyset.Climbs L.oid (seen ++ rest)) {r : Row} (hr : r ∈ rest) :
    ¬ ∃ l ∈ L.lastOid seen, L.oid r ≤ l.1 := by
  rintro ⟨l, hl, hle⟩
  obtain ⟨last, hlast, rfl⟩ := Option.map_eq_some_iff.mp hl
  have hlt := (List.pairwise_append.mp h).2.2 last (List.mem_of_getLast? hlast) r hr
  exact absurd hle (not_le.mpr hlt)

theorem Layer.lastOid_append {r : Row} (h : rest.getLast? = some r) :
    L.lastOid (seen ++ rest) = some (L.oid r, toString (L.oid r)) := by
  simp [Layer.lastOid, List.getLast?_append, h]

/-- The parameters of a page request. -/
def pageParams (info : LayerInfo) (q : Query K) (last : Option (ℤ × String)) (recordCount : ℤ) :
    QueryParams K where
  whereClause := pageWhere info q.whereClause last
  outFields := requestedFields info q
  returnGeometry := q.returnGeometry
  geometry := q.geometry
  orderByFields := some (info.objectIdField ++ " ASC")
  resultRecordCount :=
    if info.supportsPagination then some (min recordCount info.maxRecordCount) else none

theorem query_page (hfields : ∀ f ∈ requestedFields info q, f = "*" ∨ validFieldName f = true)
    (i : ℕ) (last : Option (ℤ × String)) (recordCount : ℤ) :
    query up info i { q with
        whereClause := pageWhere info q.whereClause last, outFields := requestedFields info q }
      (some (info.objectIdField ++ " ASC")) (some recordCount) =
    up.query i (pageParams info q last recordCount) := by
  have hvalid : (requestedFields info q).find? (fun f => f ≠ "*" ∧ ¬ validFieldName f) = none := by
    rw [List.find?_eq_none]
    intro f hf
    rcases hfields f hf with h | h <;> simp [h]
  have horder : (some (info.objectIdField ++ " ASC")).filter (· ≠ "") =
      some (info.objectIdField ++ " ASC") := by
    rw [Option.filter_some, if_pos]
    rw [decide_eq_true_eq]
    intro h
    simpa using congrArg String.length h
  unfold query queryParams
  simp only [hvalid, horder]
  rfl

/-! ### The loop -/

/-- What the rows become in a page. -/
def Layer.shown (L : Layer K Row) (info : LayerInfo) (q : Query K) (rows : List Row) :
    List (EsriFeature K) :=
  rows.map (L.render (requestedFields info q) q.returnGeometry)

theorem Layer.shown_append (L : Layer K Row) (info : LayerInfo) (q : Query K) (a b : List Row) :
    L.shown info q (a ++ b) = L.shown info q a ++ L.shown info q b := List.map_append ..

theorem Layer.shown_take (L : Layer K Row) (info : LayerInfo) (q : Query K) (n : ℕ)
    (rows : List Row) : (L.shown info q rows).take n = L.shown info q (rows.take n) :=
  List.map_take.symm

theorem Layer.length_shown (L : Layer K Row) (info : LayerInfo) (q : Query K) (rows : List Row) :
    (L.shown info q rows).length = rows.length := List.length_map ..

/-- An honest page after `seen` is a first part of the rest, empty only if the rest is, and all
of the rest if the loop takes it for the last one. -/
theorem Layer.Honest.page (hhonest : L.Honest info up) (hreads : L.Reads info q)
    (h : L.matching q.whereClause q.geometry = seen ++ rest) {recordCount : ℤ}
    (hcount : 1 ≤ recordCount) {i : ℕ} {page : EsriFeatureSet K}
    (hpage : up.query i (pageParams info q (L.lastOid seen) recordCount) = .ok page) :
    ∃ here rest', rest = here ++ rest' ∧ page.features = L.shown info q here ∧
      (here = [] → rest = []) ∧
      (page.exceededTransferLimit = false → (here.length : ℤ) < info.maxRecordCount →
        rest' = []) := by
  have hasked : ∀ c ∈ (pageParams info q (L.lastOid seen) recordCount).resultRecordCount,
      1 ≤ c := by
    intro c hc
    simp only [pageParams] at hc
    split_ifs at hc
    · rw [← Option.some.inj hc]
      exact le_min hcount info.one_le_maxRecordCount
    · cases hc
  obtain ⟨k, hfeatures, hpos, -, hexceeded⟩ := hhonest i _ page rfl hasked hpage
  have hmatching : L.matching (pageParams info q (L.lastOid seen) recordCount).whereClause
      (pageParams info q (L.lastOid seen) recordCount).geometry = rest :=
    L.matching_beyond hreads h
  rw [hmatching] at hfeatures hpos hexceeded
  refine ⟨rest.take k, rest.drop k, (List.take_append_drop ..).symm, hfeatures, ?_, ?_⟩
  · intro hnil
    by_contra hne
    have hk := hpos hne
    rcases List.take_eq_nil_iff.mp hnil with h0 | hrest
    · omega
    · exact hne hrest
  · intro hlimit hlt
    rw [List.drop_eq_nil_iff]
    by_contra hmore
    rw [not_le] at hmore
    rw [List.length_take, min_eq_left hmore.le] at hlt
    rw [hexceeded hmore hlt] at hlimit
    cases hlimit

section Turns
variable {features : List (EsriFeature K)} {last : Option (ℤ × String)} {i : ℕ}
variable {page : EsriFeatureSet K}

/-- An empty page ends the loop. -/
theorem queryPages_empty (hlt : (features.length : ℤ) < cap)
    (hpage : query up info i { q with whereClause := pageWhere info q.whereClause last }
      (some (info.objectIdField ++ " ASC"))
      (some (min info.maxRecordCount (cap - features.length))) = .ok page)
    (hnone : page.features = []) :
    queryPages up info q cap i features last = .ok (features.take cap.toNat) := by
  rw [queryPages, if_pos hlt, hpage]
  simp only
  split
  · rfl
  · case _ hlast =>
    rw [hnone] at hlast
    cases hlast

/-- A page that advances ends the loop if it is short and nothing exceeds it. -/
theorem queryPages_page (hlt : (features.length : ℤ) < cap)
    (hpage : query up info i { q with whereClause := pageWhere info q.whereClause last }
      (some (info.objectIdField ++ " ASC"))
      (some (min info.maxRecordCount (cap - features.length))) = .ok page)
    {feature : EsriFeature K} (hlast : page.features.getLast? = some feature)
    {pageLast : ℤ × String}
    (hid : (feature.attributes info.objectIdField).bind Json.asInt = some pageLast)
    (hadvances : ¬ ∃ l ∈ last, pageLast.1 ≤ l.1) :
    queryPages up info q cap i features last =
      if ¬ page.exceededTransferLimit ∧ (page.features.length : ℤ) < info.maxRecordCount then
        .ok ((features ++ page.features).take cap.toNat)
      else queryPages up info q cap (i + 1) (features ++ page.features) (some pageLast) := by
  rw [queryPages, if_pos hlt, hpage]
  simp only
  split
  · case _ hnone =>
    rw [hlast] at hnone
    cases hnone
  · case _ feature' hlast' =>
    obtain rfl : feature' = feature := Option.some.inj (hlast'.symm.trans hlast)
    simp only [hid, if_neg hadvances]

end Turns

/-- From any point of the rows on, the loop collects the rest up to the cap, or passes on the
error of a request. -/
theorem queryPages_cases (hhonest : L.Honest info up) (hreads : L.Reads info q)
    (hfields : ∀ f ∈ requestedFields info q, f = "*" ∨ validFieldName f = true)
    (h : L.matching q.whereClause q.geometry = seen ++ rest) (cap : ℤ) (i : ℕ) :
    queryPages up info { q with outFields := requestedFields info q } cap i
        (L.shown info q seen) (L.lastOid seen) =
      .ok (L.shown info q ((seen ++ rest).take cap.toNat)) ∨
    ∃ j params e, up.query j params = .error e ∧
      queryPages up info { q with outFields := requestedFields info q } cap i
        (L.shown info q seen) (L.lastOid seen) = .error e := by
  induction hn : rest.length using Nat.strong_induction_on generalizing seen rest i with
  | _ n ih =>
    by_cases hlt : ((L.shown info q seen).length : ℤ) < cap
    swap
    · left
      rw [queryPages, if_neg hlt, L.shown_take, List.take_append_of_le_length]
      rw [L.length_shown] at hlt
      omega
    have hcount : 1 ≤ min info.maxRecordCount (cap - (L.shown info q seen).length) := by
      have hmax := info.one_le_maxRecordCount
      omega
    cases hquery : up.query i (pageParams info q (L.lastOid seen)
      (min info.maxRecordCount (cap - (L.shown info q seen).length))) with
    | error e =>
      refine Or.inr ⟨_, _, e, hquery, ?_⟩
      rw [queryPages, if_pos hlt, query_page hfields, hquery]
    | ok page =>
      rw [← query_page hfields] at hquery
      obtain ⟨here, rest, rfl, hfeatures, hempty, hlast⟩ := hhonest.page hreads h hcount
        ((query_page hfields ..).symm.trans hquery)
      rcases List.eq_nil_or_concat here with rfl | ⟨init, r, hhere⟩
      · left
        rw [queryPages_empty hlt hquery hfeatures, hempty rfl, List.append_nil, L.shown_take]
      have hr : here.getLast? = some r := by
        rw [hhere, List.concat_eq_append, List.getLast?_append, List.getLast?_singleton]
        rfl
      have hclimbs := L.matching_climbs q.whereClause q.geometry
      rw [h] at hclimbs
      have hshown : page.features.getLast? =
          some (L.render (requestedFields info q) q.returnGeometry r) := by
        rw [hfeatures, Layer.shown, List.getLast?_map, hr]
        rfl
      have hid : ((L.render (requestedFields info q) q.returnGeometry r).attributes
          info.objectIdField).bind Json.asInt = some (L.oid r, toString (L.oid r)) := by
        rw [hreads.objectId]
        rfl
      have hadvances := L.lastOid_lt hclimbs
        (List.mem_append_left rest (List.mem_of_getLast? hr))
      have hturn := queryPages_page (q := { q with outFields := requestedFields info q })
        hlt hquery hshown hid hadvances
      rw [hfeatures, ← L.shown_append, L.length_shown] at hturn
      have hlastOid : L.lastOid (seen ++ here) = some (L.oid r, toString (L.oid r)) :=
        L.lastOid_append hr
      rw [hturn, ← hlastOid]
      split_ifs with hstop
      · left
        rw [hlast (by simpa using hstop.1) hstop.2, List.append_nil, L.shown_take]
      · have hshort : rest.length < n := by
          have hpos := List.length_pos_of_mem (List.mem_of_getLast? hr)
          rw [← hn, List.length_append]
          omega
        have hnext := ih _ hshort (h.trans (List.append_assoc ..).symm) (i + 1) rfl
        rwa [List.append_assoc] at hnext

theorem query_invalidField {name : String} (hname : name ∈ q.outFields)
    (hinvalid : ¬ (name = "*" ∨ validFieldName name = true)) (i : ℕ) (w : String)
    (orderBy : Option String) (recordCount : Option ℤ) :
    ∃ bad, query up info i { q with whereClause := w } orderBy recordCount =
      .error (.invalidField bad) := by
  have hfound : (q.outFields.find? fun f => f ≠ "*" ∧ ¬ validFieldName f).isSome := by
    rw [List.find?_isSome]
    exact ⟨name, hname, by simpa [not_or] using hinvalid⟩
  obtain ⟨bad, hbad⟩ := Option.isSome_iff_exists.mp hfound
  refine ⟨bad, ?_⟩
  unfold query queryParams
  simp only [hbad]

/-- With a field name that is refused, the first request fails, if there is one. -/
theorem queryPages_invalidField {name : String} (hname : name ∈ q.outFields)
    (hinvalid : ¬ (name = "*" ∨ validFieldName name = true)) (cap : ℤ) :
    (cap ≤ 0 ∧ queryPages up info q cap 0 [] none = .ok []) ∨
      ∃ bad, queryPages up info q cap 0 [] none = .error (.invalidField bad) := by
  rw [queryPages]
  by_cases hcap : ((([] : List (EsriFeature K)).length : ℕ) : ℤ) < cap
  · right
    obtain ⟨e, he⟩ := @query_invalidField K info up q name hname hinvalid 0
      (pageWhere info q.whereClause none) (some (info.objectIdField ++ " ASC"))
      (some (min info.maxRecordCount (cap - (([] : List (EsriFeature K)).length : ℕ))))
    refine ⟨e, ?_⟩
    rw [if_pos hcap, he]
  · left
    rw [if_neg hcap, List.take_nil]
    exact ⟨by simpa using hcap, rfl⟩

/-- The layer has metadata and the fields that are asked for, and every page request succeeds. -/
def Upstream.Answers [Zero K] [DecidableEq K] (up : Upstream K) (q : Query K) : Prop :=
  ∃ info, up.layer.bind layerInfo = .ok info ∧
    (∀ f ∈ requestedFields info q, f = "*" ∨ validFieldName f = true) ∧
    ∀ i params, ∃ page, up.query i params = .ok page

/-- `query_all` returns the first rows that match, unless a request fails. -/
theorem queryAll_cases [Zero K] [DecidableEq K] (L : Layer K Row) (up : Upstream K) (q : Query K)
    (hlayer : ∀ info, up.layer.bind layerInfo = .ok info → L.Reads info q ∧ L.Honest info up)
    (selfMaxRecords : ℤ) (maxRecords : Option ℤ) :
    (∃ info, up.layer.bind layerInfo = .ok info ∧
      queryAll up selfMaxRecords q maxRecords = .ok (L.shown info q
        ((L.matching q.whereClause q.geometry).take (queryCap selfMaxRecords maxRecords).toNat))) ∨
    ∃ e, queryAll up selfMaxRecords q maxRecords = .error e ∧ ¬ up.Answers q := by
  unfold queryAll
  cases hinfo : up.layer.bind layerInfo with
  | error e =>
    refine Or.inr ⟨e, rfl, ?_⟩
    rintro ⟨info, hok, -⟩
    cases hinfo.symm.trans hok
  | ok info =>
    obtain ⟨hreads, hhonest⟩ := hlayer info hinfo
    by_cases hfields : ∀ f ∈ requestedFields info q, f = "*" ∨ validFieldName f = true
    · have hcases := queryPages_cases hhonest hreads hfields
        (List.nil_append (L.matching q.whereClause q.geometry)).symm
        (queryCap selfMaxRecords maxRecords) 0
      rcases hcases with h | ⟨j, params, e, he, h⟩
      · exact Or.inl ⟨info, rfl, h⟩
      · refine Or.inr ⟨e, h, ?_⟩
        rintro ⟨-, -, -, hanswers⟩
        obtain ⟨page, hpage⟩ := hanswers j params
        cases he.symm.trans hpage
    · push Not at hfields
      obtain ⟨name, hname, hinvalid⟩ := hfields
      have hpages := @queryPages_invalidField K info up
        { q with outFields := requestedFields info q } name hname
        (fun hor => hor.elim hinvalid.1 hinvalid.2) (queryCap selfMaxRecords maxRecords)
      rcases hpages with ⟨hcap, h⟩ | ⟨bad, h⟩
      · refine Or.inl ⟨info, rfl, ?_⟩
        rw [Int.toNat_of_nonpos hcap, List.take_zero]
        exact h
      · refine Or.inr ⟨.invalidField bad, h, ?_⟩
        rintro ⟨info', hinfo', hvalid, -⟩
        cases hinfo.symm.trans hinfo'
        exact (hvalid name hname).elim hinvalid.1 hinvalid.2

/-- With valid fields an error is that of a request. -/
theorem queryAll_error [Zero K] [DecidableEq K] (L : Layer K Row) (up : Upstream K) (q : Query K)
    (hlayer : ∀ info, up.layer.bind layerInfo = .ok info → L.Reads info q ∧ L.Honest info up)
    (hfields : ∀ info, up.layer.bind layerInfo = .ok info →
      ∀ f ∈ requestedFields info q, f = "*" ∨ validFieldName f = true)
    (selfMaxRecords : ℤ) (maxRecords : Option ℤ) {e : QueryError}
    (h : queryAll up selfMaxRecords q maxRecords = .error e) :
    up.layer.bind layerInfo = .error e ∨ ∃ i params, up.query i params = .error e := by
  unfold queryAll at h
  cases hinfo : up.layer.bind layerInfo with
  | error e' =>
    rw [hinfo] at h
    cases h
    exact Or.inl rfl
  | ok info =>
    right
    obtain ⟨hreads, hhonest⟩ := hlayer info hinfo
    have hcases := queryPages_cases hhonest hreads (hfields info hinfo)
      (List.nil_append (L.matching q.whereClause q.geometry)).symm
      (queryCap selfMaxRecords maxRecords) 0
    simp only [hinfo] at h
    rcases hcases with hok | ⟨j, params, e', he, hpages⟩
    · cases hok.symm.trans h
    · cases hpages.symm.trans h
      exact ⟨j, params, he⟩

/-- A name that is refused is the error of a load that asks for a row. -/
theorem queryAll_invalidField [Zero K] [DecidableEq K] (up : Upstream K) (q : Query K)
    {info : LayerInfo} (hinfo : up.layer.bind layerInfo = .ok info) {name : String}
    (hname : name ∈ requestedFields info q) (hinvalid : ¬ (name = "*" ∨ validFieldName name = true))
    (selfMaxRecords : ℤ) (maxRecords : Option ℤ) (hcap : 0 < queryCap selfMaxRecords maxRecords) :
    ∃ bad, queryAll up selfMaxRecords q maxRecords = .error (.invalidField bad) := by
  unfold queryAll
  simp only [hinfo]
  have hpages := @queryPages_invalidField K info up
    { q with outFields := requestedFields info q } name hname hinvalid
    (queryCap selfMaxRecords maxRecords)
  rcases hpages with ⟨hle, -⟩ | h
  · omega
  · exact h

/-- Every row that matches is fetched once, in OBJECTID order, as far as the cap goes. -/
theorem queryAll_eq [Zero K] [DecidableEq K] (L : Layer K Row) (up : Upstream K)
    {info : LayerInfo} (hinfo : up.layer.bind layerInfo = .ok info) (q : Query K)
    (hfields : ∀ f ∈ requestedFields info q, f = "*" ∨ validFieldName f = true)
    (hreads : L.Reads info q) (hhonest : L.Honest info up)
    (hanswers : ∀ i params, ∃ page, up.query i params = .ok page)
    (selfMaxRecords : ℤ) (maxRecords : Option ℤ) :
    queryAll up selfMaxRecords q maxRecords =
      .ok (((L.matching q.whereClause q.geometry).take
        (queryCap selfMaxRecords maxRecords).toNat).map
          (L.render (requestedFields info q) q.returnGeometry)) := by
  have hlayer : ∀ info', up.layer.bind layerInfo = .ok info' →
      L.Reads info' q ∧ L.Honest info' up := by
    intro info' hinfo'
    cases hinfo.symm.trans hinfo'
    exact ⟨hreads, hhonest⟩
  rcases queryAll_cases L up q hlayer selfMaxRecords maxRecords with ⟨info', hinfo', h⟩ | ⟨e, -, h⟩
  · cases hinfo.symm.trans hinfo'
    exact h
  · exact absurd ⟨info, hinfo, hfields, hanswers⟩ h

/-! ### A service that fills its pages -/

def Layer.served (L : Layer K Row) (info : LayerInfo) (layer : EsriLayer K) : Upstream K where
  layer := .ok layer
  count params := .ok (L.matching params.whereClause params.geometry).length
  query _ params :=
    let rows := L.matching params.whereClause params.geometry
    let k := (pageLimit info params).toNat
    .ok ⟨(rows.take k).map (L.render params.outFields params.returnGeometry), k < rows.length⟩

theorem Layer.served_honest (L : Layer K Row) (info : LayerInfo) (layer : EsriLayer K) :
    L.Honest info (L.served info layer) := by
  intro i params page _ hcount hpage
  have hlimit : 1 ≤ pageLimit info params := by
    have hmax := info.one_le_maxRecordCount
    unfold pageLimit
    split_ifs
    · cases hc : params.resultRecordCount with
      | none => exact hmax
      | some c => exact hcount c hc
    · exact hmax
  cases hpage
  exact ⟨_, rfl, fun _ => by omega, by omega, fun hmore _ => decide_eq_true hmore⟩

/-- Reads the two kinds of clauses that paging through everything sends. -/
def selectsAfter (whereClause : String) (oid : ℤ) : Bool :=
  if whereClause = "1=1" then true
  else match (String.ofList (whereClause.toList.drop 21)).toInt? with
    | some n => n < oid
    | none => false

/-- Three streets along the equator, not stored in OBJECTID order. -/
def threeRows : Layer ℚ ℤ where
  rows := [3, 1, 2]
  oid := id
  distinct := by decide
  selects whereClause _ oid := selectsAfter whereClause oid
  render _ _ oid :=
    { attributes := fun f => if f = "OBJECTID" then some (.int oid) else none
      geometry := some [("paths", .list [.list [.list [.float (oid / 1000), .int 0],
        .list [.float ((oid + 1) / 1000), .int 0]]])] }

def pagesOfTwo : LayerInfo where
  objectIdField := "OBJECTID"
  maxRecordCount := 2
  geometryType := none
  fieldNames := ["OBJECTID"]
  supportsPagination := true
  one_le_maxRecordCount := by decide

def threeRowsLayer : EsriLayer ℚ :=
  { objectIdField := some "OBJECTID", maxRecordCount := 2
    fields := [⟨"OBJECTID", "esriFieldTypeOID"⟩]
    advancedQueryCapabilities := [("supportsPagination", .bool true)] }

theorem selectsAfter_page (n oid : ℤ) :
    selectsAfter (pageWhere pagesOfTwo "1=1" (some (n, toString n))) oid = decide (n < oid) := by
  have hclause : (pageWhere pagesOfTwo "1=1" (some (n, toString n))).toList =
      "(1=1) AND OBJECTID > ".toList ++ (toString n).toList := by
    simp [pageWhere, pagesOfTwo]
  have hne : pageWhere pagesOfTwo "1=1" (some (n, toString n)) ≠ "1=1" := by
    intro h
    rw [h] at hclause
    have hhead := congrArg List.head? hclause
    simp at hhead
  have hdrop : ("(1=1) AND OBJECTID > ".toList ++ (toString n).toList).drop 21 =
      (toString n).toList := List.drop_left' rfl
  rw [selectsAfter, if_neg hne, hclause, hdrop, String.ofList_toList]
  simp

theorem threeRows_reads : threeRows.Reads pagesOfTwo {} := by
  constructor
  · intro n oid
    simp only [threeRows, id_eq, selectsAfter_page]
    rw [selectsAfter, if_pos rfl, Bool.true_and]
    exact decide_eq_decide.mpr Iff.rfl
  · intro oid
    rfl

/-- Two pages, of two rows and of one. -/
theorem queryAll_threeRows :
    queryAll (threeRows.served pagesOfTwo threeRowsLayer) 250000 {} none =
      .ok (((threeRows.matching "1=1" none).take 250000).map
        (threeRows.render ["*"] true)) := by
  have hinfo : (threeRows.served pagesOfTwo threeRowsLayer).layer.bind layerInfo =
      .ok pagesOfTwo := rfl
  exact queryAll_eq threeRows (threeRows.served pagesOfTwo threeRowsLayer) hinfo {}
    (by decide) threeRows_reads (threeRows.served_honest pagesOfTwo threeRowsLayer)
    (fun _ _ => ⟨_, rfl⟩) 250000 none

end GeoPlatform.ArcGIS
