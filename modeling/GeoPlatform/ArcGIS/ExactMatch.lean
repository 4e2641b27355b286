import GeoPlatform.ArcGIS.ForwardGeocoding
import GeoPlatform.ArcGIS.Pagination
import GeoPlatform.Library.ExceptMap

/-! When a forward search finds an exact match. The ranking puts it first, but both pages of
candidates are cut at the same number of rows, in an order that knows nothing of the query. -/
namespace GeoPlatform.ArcGIS
open GeoPlatform.Geo SqlText
variable {K Row : Type} [Field K] [LinearOrder K]

/-! ### The layer -/

/-- The row as the two queries show it. -/
def candidate (p : GeocodingProvider) (L : Layer K Row) (info : LayerInfo) (r : Row) :
    EsriFeature K := L.render (candidateFields p info) true r

/-- The layer answers each clause with the rows that the clause selects, in a fixed order, cut at
the size of a page. Its text columns are shown as they are. -/
structure Serves (P : PyText) (p : GeocodingProvider) (L : Layer K Row)
    (column : Row → String → Option String) (info : LayerInfo) (up : Upstream K) : Prop where
  layer : up.layer.bind layerInfo = .ok info
  valid : ∀ f ∈ candidateFields p info, validFieldName f = true
  pages : ∀ i params, params.orderByFields = none → params.geometry = none → ∃ exceeded,
    up.query i params = .ok ⟨((L.rows.filter (L.selects params.whereClause none)).take
      (pageLimit info params).toNat).map (L.render params.outFields params.returnGeometry),
        exceeded⟩
  clauses : ∀ whereClause r, L.selects whereClause none r = selects (fun f pattern =>
    (column r f).any fun v => like pattern.toList (P.upperText v).toList) whereClause
  columns : ∀ r, ∀ f ∈ searchFields p,
    (candidate p L info r).attributes f = (column r f).map .str
  objectIds : ∀ r, (candidate p L info r).attributes info.objectIdField = some (.int (L.oid r))

section Candidates
variable (P : PyText) (p : GeocodingProvider) (column : Row → String → Option String)

/-- A searched field starts with the query, ignoring case. -/
def StartsWith (normalized : String) (r : Row) : Prop :=
  ∃ f ∈ searchFields p, ∃ v ∈ column r f,
    (P.upperText normalized).toList <+: (P.upperText v).toList

/-- Each word of the query is in a searched field, ignoring case. -/
def HasWords (normalized : String) (r : Row) : Prop :=
  ∀ token ∈ searchTokens normalized, ∃ f ∈ searchFields p, ∃ v ∈ column r f,
    (P.upperText token).toList <:+: (P.upperText v).toList

instance (normalized : String) : DecidablePred (StartsWith P p column normalized) := fun r =>
  inferInstanceAs (Decidable (∃ f ∈ searchFields p, ∃ v ∈ column r f, _))

instance (normalized : String) : DecidablePred (HasWords P p column normalized) := fun _ =>
  inferInstanceAs (Decidable (∀ token ∈ searchTokens normalized, ∃ f ∈ searchFields p, _))

/-- How many rows a page holds. -/
def pageSize (info : LayerInfo) : ℕ :=
  (if info.supportsPagination then min p.candidateLimit info.maxRecordCount
    else info.maxRecordCount).toNat

/-- The rows of the two pages. -/
def candidates (rows : List Row) (info : LayerInfo) (normalized : String) : List Row :=
  (rows.filter fun r => StartsWith P p column normalized r).take (pageSize p info) ++
    (rows.filter fun r => HasWords P p column normalized r).take (pageSize p info)

end Candidates

variable {P : PyText} {texts : PlaceTexts P K} {p : GeocodingProvider} {L : Layer K Row}
variable {column : Row → String → Option String} {info : LayerInfo} {up : Upstream K}
variable {normalized : String} {r : Row}

theorem searchFields_valid (h : Serves P p L column info up) :
    ∀ f ∈ searchFields p, validFieldName f = true := by
  intro f hf
  refine h.valid f (List.mem_append_left _ ?_)
  rw [searchFields, mem_fieldsOf] at hf
  rw [mem_fieldsOf]
  refine ⟨?_, hf.2⟩
  simp only [List.mem_cons, List.not_mem_nil, or_false] at hf ⊢
  tauto

/-- The layer selects by the columns of a row. -/
theorem Serves.selects_groups (h : Serves P p L column info up) {clause value : String}
    (values : List String)
    (hlex : lex clause = some (.lparen :: groupsTokens (searchFields p) value values)) :
    L.selects clause none r = true ↔ ∀ w ∈ value :: values, ∃ f ∈ searchFields p,
      ∃ v ∈ column r f, like w.toList (P.upperText v).toList = true := by
  rw [h.clauses, SqlText.selects_groups hlex]
  simp only [List.all_eq_true, List.any_eq_true, Option.any_eq_true]
  rfl

theorem selects_prefixClause (h : Serves P p L column info up) (hplain : Plain normalized.toList) :
    ∃ starts, prefixClause P (searchFields p) normalized = .ok starts ∧
      ∀ r, L.selects starts none r = true ↔ StartsWith P p column normalized r := by
  obtain ⟨starts, hstarts, hlexes⟩ :=
    @anyFieldLike_lexes P _ (searchFields_valid h) (normalized ++ "%")
  refine ⟨starts, hstarts, fun r => ?_⟩
  have hpattern : (P.upperText (normalized ++ "%")).toList =
      (P.upperText normalized).toList ++ ['%'] := by
    rw [upperText_append, upperText_percent, String.toList_append]
    rfl
  rw [h.selects_groups [] hlexes.lex]
  simp only [List.mem_singleton, forall_eq, hpattern, like_prefix (plain_upperText hplain)]
  rfl

theorem searchTokens_ne_nil (normalized : String) : searchTokens normalized ≠ [] := by
  unfold searchTokens MAX_SEARCH_TOKENS
  obtain ⟨word, rest, hsplit⟩ := List.exists_cons_of_ne_nil
    (List.splitOn_ne_nil ' ' normalized.toList)
  rw [hsplit, List.map_cons, List.eraseDups_cons, List.take_succ_cons]
  exact List.cons_ne_nil _ _

theorem selects_containsClause (h : Serves P p L column info up)
    (hplain : Plain normalized.toList) :
    ∃ contains, containsAllTokensClause P (searchFields p) (searchTokens normalized) =
        .ok contains ∧
      ∀ r, L.selects contains none r = true ↔ HasWords P p column normalized r := by
  obtain ⟨contains, hcontains, hlexes⟩ :=
    @containsAllTokensClause_lexes P _ (searchFields_valid h) (searchTokens normalized)
  refine ⟨contains, hcontains, fun r => ?_⟩
  have htokens := plain_searchTokens hplain
  have hpattern : ∀ t : String, (P.upperText ("%" ++ t ++ "%")).toList =
      '%' :: ((P.upperText t).toList ++ ['%']) := by
    intro t
    rw [upperText_append, upperText_append, upperText_percent, String.toList_append,
      String.toList_append]
    rfl
  obtain ⟨t, ts, hsplit⟩ := List.exists_cons_of_ne_nil (searchTokens_ne_nil normalized)
  have hlex := hlexes.lex
  rw [hsplit, List.map_cons, containsTokens] at hlex
  rw [h.selects_groups _ (hlex.trans (congrArg some (intercalate_groups _ _)))]
  have hvalues : ∀ g : String → String, g t :: ts.map g = (searchTokens normalized).map g := by
    intro g
    rw [hsplit, List.map_cons]
  simp only [hvalues fun t => P.upperText ("%" ++ t ++ "%"), List.forall_mem_map, hpattern]
  unfold HasWords
  refine forall₂_congr fun t ht => ?_
  simp only [like_within (plain_upperText (htokens t ht))]

/-- A page holds the first rows that its clause selects. -/
theorem candidatePage_eq (h : Serves P p L column info up) (i : ℕ) {whereClause : String}
    {selected : Row → Prop} [DecidablePred selected]
    (hselects : ∀ r, L.selects whereClause none r = true ↔ selected r) :
    candidatePage p up info i whereClause =
      .ok (((L.rows.filter fun r => selected r).take (pageSize p info)).map
        (candidate p L info)) := by
  have hvalid : (candidateFields p info).find? (fun f => f ≠ "*" ∧ ¬ validFieldName f) = none := by
    rw [List.find?_eq_none]
    intro f hf
    simp [h.valid f hf]
  have hfilter : L.rows.filter (L.selects whereClause none) =
      L.rows.filter fun r => selected r := by
    apply List.filter_congr
    intro r _
    rw [Bool.eq_iff_iff, hselects, decide_eq_true_eq]
  have hparams : queryParams (K := K)
      { whereClause := whereClause, outFields := candidateFields p info } = .ok
        { whereClause := whereClause, outFields := candidateFields p info
          returnGeometry := true, geometry := none } := by
    unfold queryParams
    simp only [hvalid]
  unfold candidatePage query
  simp only [hparams, Option.filter_none, Option.bind_some]
  obtain ⟨exceeded, hpage⟩ := h.pages i
    { whereClause := whereClause, outFields := candidateFields p info
      returnGeometry := true, geometry := none, orderByFields := none
      resultRecordCount := if info.supportsPagination then
        some (min p.candidateLimit info.maxRecordCount) else none } rfl rfl
  rw [hpage]
  have hsize : pageLimit info
      { whereClause := whereClause, outFields := candidateFields p info
        returnGeometry := true, geometry := (none : Option (GeometryFilter K)),
        orderByFields := none
        resultRecordCount := if info.supportsPagination then
          some (min p.candidateLimit info.maxRecordCount) else none } =
      if info.supportsPagination then min p.candidateLimit info.maxRecordCount
      else info.maxRecordCount := by
    unfold pageLimit
    split_ifs <;> rfl
  rw [hsize, hfilter]
  rfl

theorem search_eq (h : Serves P p L column info up) {text : String} (limit : ℕ)
    (hn : normalizeSearchText P text ≠ "") : search texts p up text limit =
      (rankPlaces texts p (normalizeSearchText P text) info.objectIdField
        ((candidates P p column L.rows info (normalizeSearchText P text)).map
          (candidate p L info))).map (List.take limit) := by
  have hplain := plain_normalizeSearchText (P := P) text
  obtain ⟨starts, hstarts, hprefix⟩ := selects_prefixClause h hplain
  obtain ⟨contains, hcontains, hwords⟩ := selects_containsClause h hplain
  unfold search candidates
  simp only [if_neg hn]
  rw [h.layer]
  simp only [hstarts, hcontains, Except.mapError, Except.bind, candidatePage_eq h _ hprefix,
    candidatePage_eq h _ hwords, List.map_append]

/-! ### Exact matches -/

/-- A searched field is the query, ignoring case. -/
def ExactMatch (texts : PlaceTexts P K) (p : GeocodingProvider) (normalized : String)
    (feature : EsriFeature K) : Prop :=
  ∃ f ∈ searchFields p, ∃ s ∈ textOf texts.toTextFunctions feature.attributes (some f),
    P.upperText s = P.upperText normalized

/-- The feature has a location. -/
def HasLocation (feature : EsriFeature K) : Prop :=
  ∃ point, representativePoint feature.geometry = .ok (some point)

/-- The name of the place, or its alternative name, is the query. -/
def ExactPlace (P : PyText) (normalized : String) (place : Place K) : Prop :=
  P.upperText place.name = P.upperText normalized ∨
    ∃ s ∈ orNone place.altName, P.upperText s = P.upperText normalized

variable {feature : EsriFeature K} {oidField : String} {place : Place K} {oid : Json K}

omit [Field K] [LinearOrder K] in
theorem exactMatch_iff : ExactMatch texts p normalized feature ↔
    (∃ s ∈ textOf texts.toTextFunctions feature.attributes (some p.fields.name),
      P.upperText s = P.upperText normalized) ∨
    ∃ s ∈ textOf texts.toTextFunctions feature.attributes p.fields.altName,
      P.upperText s = P.upperText normalized := by
  unfold ExactMatch searchFields
  simp only [mem_fieldsOf, List.mem_cons, List.not_mem_nil, or_false, Option.some.injEq]
  constructor
  · rintro ⟨f, ⟨rfl | halt, -⟩, s, hs, heq⟩
    · exact Or.inl ⟨s, hs, heq⟩
    · exact Or.inr ⟨s, halt ▸ hs, heq⟩
  · rintro (⟨s, hs, heq⟩ | ⟨s, hs, heq⟩)
    · refine ⟨p.fields.name, ⟨Or.inl rfl, ?_⟩, s, hs, heq⟩
      rintro hempty
      simp [textOf, hempty, Option.filter_some] at hs
    · cases halt : p.fields.altName with
      | none => simp [textOf, halt] at hs
      | some f =>
        refine ⟨f, ⟨Or.inr rfl, ?_⟩, s, halt ▸ hs, heq⟩
        rintro rfl
        simp [textOf, halt, Option.filter_some] at hs

/-- What makes a feature a place: a name, a location and an object id. -/
theorem toPlace_eq_some (h : toPlace texts p feature oidField = .ok (some place)) :
    HasLocation feature ∧
      (textOf texts.toTextFunctions feature.attributes (some p.fields.name) <|>
        textOf texts.toTextFunctions feature.attributes p.fields.altName) = some place.name ∧
      place.altName = textOf texts.toTextFunctions feature.attributes p.fields.altName ∧
      ∃ oid, feature.attributes oidField = some oid ∧
        place.id = "plc_" ++ texts.format oid := by
  unfold toPlace at h
  cases hpoint : representativePoint feature.geometry with
  | error e =>
    rw [hpoint] at h
    cases h
  | ok point =>
    simp only [hpoint, Except.bind] at h
    split at h
    · case _ name point oid hname hoid =>
      rw [Option.filter_eq_some_iff] at hoid
      cases himportance : numberOf texts.toTextFunctions feature.attributes p.fields.importance with
      | error e =>
        rw [himportance] at h
        cases h
      | ok importance =>
        rw [himportance] at h
        cases h
        exact ⟨⟨point, hpoint⟩, hname, rfl, oid, hoid.1, rfl⟩
    · cases h

theorem toPlace_exact (h : toPlace texts p feature oidField = .ok (some place)) :
    ExactPlace P normalized place ↔ ExactMatch texts p normalized feature := by
  obtain ⟨-, hname, halt, -⟩ := toPlace_eq_some h
  have hsome : orNone place.altName = place.altName := by
    rw [halt]
    cases hread : textOf texts.toTextFunctions feature.attributes p.fields.altName with
    | none => rfl
    | some s =>
      rw [orNone, Option.filter_some, if_pos]
      simpa using textOf_ne_empty hread
  rw [exactMatch_iff, ExactPlace, hsome, halt]
  cases hread : textOf texts.toTextFunctions feature.attributes (some p.fields.name) with
  | none =>
    rw [hread] at hname
    have halt' : textOf texts.toTextFunctions feature.attributes p.fields.altName =
        some place.name := hname
    simp [halt']
  | some name =>
    rw [hread] at hname
    obtain rfl : name = place.name := by simpa using hname
    simp

theorem toPlace_of_exact (hlocation : HasLocation feature)
    (hexact : ExactMatch texts p normalized feature)
    {n : ℤ} (hoid : feature.attributes oidField = some (.int n))
    (hread : ¬ ∃ e, toPlace texts p feature oidField = .error e) :
    ∃ place, toPlace texts p feature oidField = .ok (some place) := by
  obtain ⟨point, hpoint⟩ := hlocation
  have hname : ∃ name, (textOf texts.toTextFunctions feature.attributes (some p.fields.name) <|>
      textOf texts.toTextFunctions feature.attributes p.fields.altName) = some name := by
    rcases exactMatch_iff.mp hexact with ⟨s, hs, -⟩ | ⟨s, hs, -⟩
    · exact ⟨s, by rw [hs]; rfl⟩
    · cases hread : textOf texts.toTextFunctions feature.attributes (some p.fields.name) with
      | none => exact ⟨s, hs⟩
      | some name => exact ⟨name, rfl⟩
  obtain ⟨name, hname⟩ := hname
  unfold toPlace at hread ⊢
  simp only [hpoint, hoid, Except.bind, hname, Option.filter_some] at hread ⊢
  cases himportance : numberOf texts.toTextFunctions feature.attributes p.fields.importance with
  | error e => exact absurd ⟨_, by rw [himportance]; rfl⟩ hread
  | ok importance => exact ⟨_, rfl⟩

/-! ### Ranking -/

theorem min?_eq_zero {n : ℕ} {ns : List ℕ} : ((n :: ns).min?.getD 0) = 0 ↔ 0 ∈ n :: ns := by
  obtain ⟨m, hm⟩ : ∃ m, (n :: ns).min? = some m := ⟨_, List.min?_cons'⟩
  rw [hm, Option.getD_some]
  obtain ⟨hmem, hle⟩ := List.min?_eq_some_iff.mp hm
  constructor
  · rintro rfl
    exact hmem
  · intro hzero
    exact Nat.le_zero.mp (hle 0 hzero)

theorem level_eq_zero {query name : String} {tokens : List String} :
    level P query tokens name = 0 ↔ name = query := by
  unfold level
  split_ifs <;> simp_all

omit [LinearOrder K] in
/-- The exact matches are those of the first rank. -/
theorem rank_exact {tokens : List String} :
    (ofLex (rank P (P.upperText normalized) tokens place)).1 = 0 ↔
      ExactPlace P normalized place := by
  show ((List.map _ ((place.name :: (orNone place.altName).toList).map P.upperText)).min?.getD 0) =
    0 ↔ _
  rw [List.map_cons, List.map_cons, min?_eq_zero]
  simp only [List.mem_cons, List.mem_map, Option.mem_toList, ExactPlace, eq_comm (a := 0),
    level_eq_zero, exists_exists_and_eq_and]
  rfl

/-- The first of the sorted places has the least rank. -/
theorem exact_first {places : List (Place K)} {tokens : List String}
    (hexact : ∃ place ∈ places, ExactPlace P normalized place) :
    ∃ place rest, places.insertionSort (fun a b => rank P (P.upperText normalized) tokens a ≤
        rank P (P.upperText normalized) tokens b) = place :: rest ∧
      place ∈ places ∧ ExactPlace P normalized place := by
  obtain ⟨best, hmem, hbest⟩ := hexact
  set r : Place K → Place K → Prop := fun a b => rank P (P.upperText normalized) tokens a ≤
    rank P (P.upperText normalized) tokens b with hr
  have : Std.Total r := ⟨fun a b => le_total _ _⟩
  have : IsTrans (Place K) r := ⟨fun a b c => le_trans⟩
  have hsorted := List.pairwise_insertionSort r places
  have hperm := List.perm_insertionSort r places
  have hin : best ∈ places.insertionSort r := hperm.mem_iff.mpr hmem
  cases hcases : places.insertionSort r with
  | nil =>
    rw [hcases] at hin
    cases hin
  | cons place rest =>
    rw [hcases] at hsorted hin hperm
    refine ⟨place, rest, rfl, hperm.mem_iff.mp (List.mem_cons_self ..), ?_⟩
    rcases List.mem_cons.mp hin with rfl | hin
    · exact hbest
    · have hle : r place best := (List.pairwise_cons.mp hsorted).1 best hin
      rw [← @rank_exact _ _ _ _ _ tokens] at hbest ⊢
      have hlevel := Prod.Lex.monotone_fst _ _ hle
      rw [hbest] at hlevel
      exact Nat.le_zero.mp hlevel

/-! ### Merging -/

omit [Field K] [LinearOrder K] in
theorem mem_setDefault {places : List (Place K)} {q : Place K} :
    q ∈ setDefault places place ↔
      q ∈ places ∨ q = place ∧ ¬ ∃ q' ∈ places, q'.id = place.id := by
  unfold setDefault
  split_ifs with hthere
  · simp only [hthere, not_true_eq_false, and_false, or_false]
  · simp only [hthere, not_false_eq_true, and_true, List.mem_append, List.mem_singleton]

omit [Field K] [LinearOrder K] in
/-- The merged places are among the given ones, and each of these has one of its id there. -/
theorem foldl_setDefault (places : List (Place K)) :
    (∀ q ∈ places.foldl setDefault [], q ∈ places) ∧
    ∀ place ∈ places, ∃ q ∈ places.foldl setDefault [], q.id = place.id := by
  induction places using List.reverseRecOn with
  | nil => simp
  | append_singleton places last ih =>
    simp only [List.foldl_append, List.foldl_cons, List.foldl_nil, mem_setDefault]
    constructor
    · rintro q (hq | ⟨rfl, -⟩)
      · exact List.mem_append_left _ (ih.1 q hq)
      · simp
    · intro place hplace
      rcases List.mem_append.mp hplace with hplace | hplace
      · obtain ⟨q, hq, hid⟩ := ih.2 place hplace
        exact ⟨q, Or.inl hq, hid⟩
      · obtain rfl := List.mem_singleton.mp hplace
        by_cases hthere : ∃ q ∈ places.foldl setDefault [], q.id = place.id
        · obtain ⟨q, hq, hid⟩ := hthere
          exact ⟨q, Or.inl hq, hid⟩
        · exact ⟨place, Or.inr ⟨rfl, hthere⟩, rfl⟩

/-! ### Searching -/

/-- The places of the candidates, before they are merged. -/
theorem candidate_place (h : Serves P p L column info up)
    (hlocation : HasLocation (candidate p L info r))
    (hexact : ExactMatch texts p normalized (candidate p L info r))
    (hread : ¬ ∃ e, toPlace texts p (candidate p L info r) info.objectIdField = .error e) :
    ∃ place, toPlace texts p (candidate p L info r) info.objectIdField = .ok (some place) :=
  toPlace_of_exact hlocation hexact (h.objectIds r) hread

theorem place_id (h : Serves P p L column info up)
    (hplace : toPlace texts p (candidate p L info r) info.objectIdField = .ok (some place)) :
    place.id = "plc_" ++ toString (L.oid r) := by
  obtain ⟨-, -, -, oid, hoid, hid⟩ := toPlace_eq_some hplace
  rw [h.objectIds] at hoid
  cases hoid
  rw [hid, texts.format_int]

/-- Two places of one id are those of one row. -/
theorem place_unique (h : Serves P p L column info up) {r' : Row} {place' : Place K}
    (hr : r ∈ L.rows) (hr' : r' ∈ L.rows)
    (hplace : toPlace texts p (candidate p L info r) info.objectIdField = .ok (some place))
    (hplace' : toPlace texts p (candidate p L info r') info.objectIdField = .ok (some place'))
    (hid : place.id = place'.id) : place = place' := by
  rw [place_id h hplace, place_id h hplace'] at hid
  have hoid : L.oid r = L.oid r' := Int.repr_inj.mp ((String.append_right_inj _).mp hid)
  obtain rfl := List.inj_on_of_nodup_map L.distinct hr hr' hoid
  rw [hplace] at hplace'
  cases hplace'
  rfl

/-- Where some feature is an exact match, the first result is one. -/
def FindsExact (texts : PlaceTexts P K) (p : GeocodingProvider) (L : Layer K Row)
    (info : LayerInfo) (up : Upstream K) (text : String) (limit : ℕ) : Prop :=
  let normalized := normalizeSearchText P text
  (∃ r ∈ L.rows, HasLocation (candidate p L info r) ∧
    ExactMatch texts p normalized (candidate p L info r)) →
  ∃ place rest, search texts p up text limit = .ok (place :: rest) ∧ ∃ r ∈ L.rows,
    toPlace texts p (candidate p L info r) info.objectIdField = .ok (some place) ∧
    ExactMatch texts p normalized (candidate p L info r)

/-- An exact match is among the rows of the two pages, and every one of these can be read: its
geometry, and the importance of a place. -/
def ExactSurvives (texts : PlaceTexts P K) (p : GeocodingProvider) (L : Layer K Row)
    (column : Row → String → Option String) (info : LayerInfo) (text : String) : Prop :=
  let normalized := normalizeSearchText P text
  let rows := candidates P p column L.rows info normalized
  normalized ≠ "" ∧
  (∀ r ∈ rows, ¬ ∃ e, toPlace texts p (candidate p L info r) info.objectIdField = .error e) ∧
  ∃ r ∈ rows, HasLocation (candidate p L info r) ∧
    ExactMatch texts p normalized (candidate p L info r)

omit [Field K] [LinearOrder K] in
theorem candidates_subset (normalized : String) :
    ∀ r ∈ candidates P p column L.rows info normalized, r ∈ L.rows := by
  intro r hr
  rcases List.mem_append.mp hr with hr | hr
  · exact List.mem_of_mem_filter (List.mem_of_mem_take hr)
  · exact List.mem_of_mem_filter (List.mem_of_mem_take hr)

/-- What comes of rows that can be read: their places, an exact match first if there
is one. -/
theorem rankPlaces_ok (h : Serves P p L column info up) {rows : List Row}
    (hrows : ∀ r ∈ rows, r ∈ L.rows)
    (hread : ∀ r ∈ rows,
      ¬ ∃ e, toPlace texts p (candidate p L info r) info.objectIdField = .error e) :
    ∃ ranked, rankPlaces texts p normalized info.objectIdField (rows.map (candidate p L info)) =
        .ok ranked ∧
      (∀ place ∈ ranked, ∃ r ∈ rows,
        toPlace texts p (candidate p L info r) info.objectIdField = .ok (some place)) ∧
      ((∃ r ∈ rows, HasLocation (candidate p L info r) ∧
          ExactMatch texts p normalized (candidate p L info r)) →
        ∃ place rest, ranked = place :: rest ∧ ExactPlace P normalized place) := by
  have hok : ∀ f ∈ rows.map (candidate p L info),
      ∃ o, toPlace texts p f info.objectIdField = .ok o := by
    intro f hf
    obtain ⟨r, hr, rfl⟩ := List.mem_map.mp hf
    cases hplace : toPlace texts p (candidate p L info r) info.objectIdField with
    | ok o => exact ⟨o, rfl⟩
    | error e => exact absurd ⟨e, hplace⟩ (hread r hr)
  obtain ⟨places, hplaces⟩ := ExceptMap.mapM_ok hok
  obtain ⟨hshown, hfrom⟩ := ExceptMap.mapM_mem hplaces
  obtain ⟨hmerged, hid⟩ := foldl_setDefault places.reduceOption
  have hrow : ∀ place ∈ places.reduceOption.foldl setDefault [], ∃ r ∈ rows,
      toPlace texts p (candidate p L info r) info.objectIdField = .ok (some place) := by
    intro place hplace
    obtain ⟨f, hf, hstep⟩ := hfrom _ (List.reduceOption_mem_iff.mp (hmerged place hplace))
    obtain ⟨r, hr, rfl⟩ := List.mem_map.mp hf
    exact ⟨r, hr, hstep⟩
  refine ⟨_, by rw [rankPlaces, hplaces]; rfl, ?_, ?_⟩
  · intro place hplace
    exact hrow place ((List.perm_insertionSort _ _).mem_iff.mp hplace)
  · rintro ⟨r, hr, hlocation, hexact⟩
    obtain ⟨place, hplace⟩ := candidate_place h hlocation hexact (hread r hr)
    obtain ⟨o, ho, hstep⟩ := hshown _ (List.mem_map_of_mem hr)
    rw [hplace] at hstep
    cases hstep
    obtain ⟨q, hq, hsame⟩ := hid place (List.reduceOption_mem_iff.mpr ho)
    obtain ⟨r', hr', hq'⟩ := hrow q hq
    -- A place of the same id is the same place, so that the exact match is not merged away.
    obtain rfl := place_unique h (hrows r' hr') (hrows r hr) hq' hplace hsame
    obtain ⟨first, rest, hsorted, -, hfirst⟩ := @exact_first _ _ _ P normalized _
      (searchTokens normalized) ⟨q, hq, (toPlace_exact hplace).mpr hexact⟩
    exact ⟨first, rest, hsorted, hfirst⟩

theorem rankPlaces_error {rows : List Row} (hr : r ∈ rows)
    (herror : ∃ e, toPlace texts p (candidate p L info r) info.objectIdField = .error e) :
    ∃ e, rankPlaces texts p normalized info.objectIdField (rows.map (candidate p L info)) =
      .error e := by
  obtain ⟨e, he⟩ := herror
  obtain ⟨e', he'⟩ := @ExceptMap.mapM_error _ _ _ (fun f => toPlace texts p f info.objectIdField)
    _ _ _ (List.mem_map_of_mem hr) he
  exact ⟨e', by rw [rankPlaces, he']; rfl⟩

/-- An exact match that is found was among the candidates. -/
theorem exactSurvives_of_finds (h : Serves P p L column info up) {text : String} {limit : ℕ}
    (hfinds : FindsExact texts p L info up text limit)
    (hsome : ∃ r ∈ L.rows, HasLocation (candidate p L info r) ∧
      ExactMatch texts p (normalizeSearchText P text) (candidate p L info r)) :
    ExactSurvives texts p L column info text := by
  have hin : ∀ r ∈ candidates P p column L.rows info (normalizeSearchText P text), r ∈ L.rows :=
    candidates_subset _
  obtain ⟨place, rest, hsearch, r, hr, hplace, hexact⟩ := hfinds hsome
  have hn : normalizeSearchText P text ≠ "" := by
    intro hempty
    rw [search, if_pos hempty] at hsearch
    cases hsearch
  rw [search_eq h limit hn] at hsearch
  have hread : ∀ r ∈ candidates P p column L.rows info (normalizeSearchText P text),
      ¬ ∃ e, toPlace texts p (candidate p L info r) info.objectIdField = .error e := by
    intro r hr herror
    obtain ⟨e, he⟩ := @rankPlaces_error _ _ _ _ _ texts p _ info (normalizeSearchText P text)
      _ _ hr herror
    rw [he] at hsearch
    cases hsearch
  obtain ⟨ranked, hranked, hrow, -⟩ :=
    @rankPlaces_ok _ _ _ _ _ texts _ _ _ _ _ (normalizeSearchText P text) h _ hin hread
  rw [hranked] at hsearch
  have htake : ranked.take limit = place :: rest := Except.ok.inj hsearch
  obtain ⟨r', hr', hplace'⟩ := hrow place
    (List.mem_of_mem_take (htake ▸ List.mem_cons_self ..))
  refine ⟨hn, hread, r', hr', (toPlace_eq_some hplace').1, ?_⟩
  exact (toPlace_exact hplace').mp ((toPlace_exact hplace).mpr hexact)

/-- The first result is an exact match, where there is one at all, just when an exact match is
among the candidates of the two pages and all these can be read. -/
theorem search_finds_exact_iff (h : Serves P p L column info up) (text : String) {limit : ℕ}
    (hlimit : 1 ≤ limit) : FindsExact texts p L info up text limit ↔
      (¬ ∃ r ∈ L.rows, HasLocation (candidate p L info r) ∧
        ExactMatch texts p (normalizeSearchText P text) (candidate p L info r)) ∨
      ExactSurvives texts p L column info text := by
  constructor
  · intro hfinds
    by_cases hsome : ∃ r ∈ L.rows, HasLocation (candidate p L info r) ∧
        ExactMatch texts p (normalizeSearchText P text) (candidate p L info r)
    · exact Or.inr (exactSurvives_of_finds h hfinds hsome)
    · exact Or.inl hsome
  · rintro (hnone | ⟨hn, hread, hsurvivor⟩) hsome
    · exact absurd hsome hnone
    · have hin : ∀ r ∈ candidates P p column L.rows info (normalizeSearchText P text),
          r ∈ L.rows := candidates_subset _
      obtain ⟨ranked, hranked, hrow, hfirst⟩ :=
        @rankPlaces_ok _ _ _ _ _ texts _ _ _ _ _ (normalizeSearchText P text) h _ hin hread
      obtain ⟨place, rest, rfl, hexact⟩ := hfirst hsurvivor
      obtain ⟨r, hr, hplace⟩ := hrow place (List.mem_cons_self ..)
      obtain ⟨n, rfl⟩ := Nat.exists_eq_add_of_le' hlimit
      refine ⟨place, rest.take n, ?_, r, hin r hr, hplace, (toPlace_exact hplace).mp hexact⟩
      rw [search_eq h _ hn, hranked]
      rfl

/-! ### Only the size of the pages stands in the way -/

theorem upperText_within {s t : List Char} (h : s <:+: t) :
    (P.upperText (String.ofList s)).toList <:+: (P.upperText (String.ofList t)).toList := by
  obtain ⟨before, after, rfl⟩ := h
  simp only [PyText.upperText, String.toList_ofList, List.flatMap_append]
  exact List.infix_append ..

theorem infix_intercalate {sep s : List Char} {l : List (List Char)} (h : s ∈ l) :
    s <:+: sep.intercalate l := by
  induction l with
  | nil => cases h
  | cons t l ih =>
    cases l with
    | nil =>
      rw [List.mem_singleton.mp h]
      simp
    | cons u l =>
      rw [List.intercalate_cons_cons]
      rcases List.mem_cons.mp h with rfl | h
      · exact ⟨[], sep ++ sep.intercalate (u :: l), by simp⟩
      · exact (ih h).trans (List.suffix_append _ _).isInfix

theorem searchTokens_within : ∀ token ∈ searchTokens normalized,
    token.toList <:+: normalized.toList := by
  intro token ht
  obtain ⟨s, hs, rfl⟩ := List.mem_map.mp (List.mem_eraseDups.mp (List.mem_of_mem_take ht))
  rw [String.toList_ofList, ← @List.intercalate_splitOn _ normalized.toList _ _ ' ']
  exact infix_intercalate hs

/-- A row that holds the query is selected by both clauses. -/
theorem clauses_select_exact (h : ∃ f ∈ searchFields p, ∃ v ∈ column r f,
    P.upperText v = P.upperText normalized) :
    StartsWith P p column normalized r ∧ HasWords P p column normalized r := by
  obtain ⟨f, hf, v, hv, heq⟩ := h
  constructor
  · exact ⟨f, hf, v, hv, by rw [heq]⟩
  · intro token ht
    refine ⟨f, hf, v, hv, ?_⟩
    have hinfix := @upperText_within P _ _ (searchTokens_within token ht)
    rwa [String.ofList_toList, String.ofList_toList, ← heq] at hinfix

theorem mem_take_filter {before after : List Row} {selected : Row → Prop} [DecidablePred selected]
    {n : ℕ} (hr : selected r) (hfew : before.countP (fun r => selected r) < n) :
    r ∈ ((before ++ r :: after).filter fun r => selected r).take n := by
  rw [List.countP_eq_length_filter] at hfew
  rw [List.filter_append, List.filter_cons_of_pos (by simpa using hr), List.take_append]
  obtain ⟨m, hm⟩ := Nat.exists_eq_add_of_lt hfew
  refine List.mem_append_right _ ?_
  rw [show n - (before.filter fun r => selected r).length = m + 1 by omega, List.take_succ_cons]
  exact List.mem_cons_self ..

/-- It is a candidate unless as many rows before it are selected as a page holds. -/
theorem exact_mem_candidates {before after : List Row} (h : ∃ f ∈ searchFields p, ∃ v ∈ column r f,
      P.upperText v = P.upperText normalized)
    (hfew : before.countP (fun r => StartsWith P p column normalized r) < pageSize p info ∨
      before.countP (fun r => HasWords P p column normalized r) < pageSize p info) :
    r ∈ candidates P p column (before ++ r :: after) info normalized := by
  obtain ⟨hstarts, hwords⟩ := clauses_select_exact h
  rcases hfew with hfew | hfew
  · exact List.mem_append_left _ (mem_take_filter hstarts hfew)
  · exact List.mem_append_right _ (mem_take_filter hwords hfew)

/-! ### A park among five others -/

def asciiTexts : PlaceTexts asciiTables ℚ where
  str
    | .str s => String.ofList (strip asciiTables s.toList)
    | _ => ""
  lower s := s.toLower
  float _ := none
  format
    | .int n => toString n
    | _ => ""
  str_str _ := rfl
  format_int _ := rfl

def parkSearch : GeocodingProvider where
  fields := { name := "name" }
  candidateLimit := 5

def parkInfo : LayerInfo where
  objectIdField := "oid"
  maxRecordCount := 1000
  geometryType := none
  fieldNames := []
  supportsPagination := true
  one_le_maxRecordCount := by decide

def nameColumn (r : String × ℕ) (field : String) : Option String :=
  if field = "name" then some r.1 else none

/-- A table of names, numbered in the order in which the layer answers. -/
def parks (names : List String) : Layer ℚ (String × ℕ) where
  rows := names.zipIdx
  oid r := r.2
  distinct := by
    have hindex : (names.zipIdx.map Prod.snd).Nodup := by
      rw [List.zipIdx_map_snd]
      exact List.nodup_range'
    have hcast := hindex.map (Nat.cast_injective (R := ℤ))
    rwa [List.map_map] at hcast
  selects whereClause _ r := selects (fun f pattern => (nameColumn r f).any fun v =>
    like pattern.toList (asciiTables.upperText v).toList) whereClause
  render _ _ r :=
    { attributes := fun f =>
        if f = "name" then some (.str r.1) else if f = "oid" then some (.int r.2) else none
      geometry := some [("x", .float r.2), ("y", .int 0)] }

def parkService (names : List String) : Upstream ℚ where
  layer := .ok
    { objectIdField := some "oid"
      advancedQueryCapabilities := [("supportsPagination", .bool true)] }
  count _ := .ok names.length
  query _ params := .ok ⟨(((parks names).rows.filter ((parks names).selects params.whereClause
    none)).take (pageLimit parkInfo params).toNat).map
      ((parks names).render params.outFields params.returnGeometry), false⟩

theorem parks_serves (names : List String) : Serves asciiTables parkSearch (parks names) nameColumn
    parkInfo (parkService names) where
  layer := rfl
  valid := by decide
  pages _ _ _ _ := ⟨false, rfl⟩
  clauses _ _ := rfl
  columns r f hf := by
    have hname : f = "name" := by
      have hfields : searchFields parkSearch = ["name"] := by decide
      simpa [hfields] using hf
    subst hname
    rfl
  objectIds _ := rfl

theorem location_parks (names : List String) (r : String × ℕ) :
    representativePoint (candidate parkSearch (parks names) parkInfo r).geometry =
      .ok (some ((r.2 : ℚ), 0)) := by
  simp [candidate, parks, representativePoint, readPosition, position, Json.number,
    List.lookup_cons, Except.map, Except.mapError, Except.bind]

instance (names : List String) (text : String) (r : String × ℕ) : Decidable (ExactMatch asciiTexts
    parkSearch text (candidate parkSearch (parks names) parkInfo r)) :=
  inferInstanceAs (Decidable (∃ f ∈ searchFields parkSearch, ∃ s ∈ textOf _ _ _, _))

/-- Two parks fit on a page. -/
theorem search_finds_exact_iff_parks : FindsExact asciiTexts parkSearch (parks ["Park 1", "Park"])
    parkInfo (parkService ["Park 1", "Park"]) "park" 1 := by
  refine (search_finds_exact_iff (parks_serves _) "park" le_rfl).mpr (Or.inr ⟨?_, ?_, ?_⟩)
  · decide +kernel
  · rintro r - ⟨e, he⟩
    simp only [toPlace, location_parks, Except.bind] at he
    split at he <;> cases he
  · refine ⟨("Park", 1), ?_, ⟨_, location_parks _ _⟩, ?_⟩
    · decide +kernel
    · decide +kernel

/-- The park comes behind five whose names start with its name, and a page holds five. -/
theorem search_loses_park : ¬ ∀ (names : List String) (text : String),
    FindsExact asciiTexts parkSearch (parks names) parkInfo (parkService names) text 10 := by
  intro h
  have hfinds := h ["Park 1", "Park 2", "Park 3", "Park 4", "Park 5", "Park"] "park"
  obtain ⟨-, -, r, hr, -, hexact⟩ := exactSurvives_of_finds (parks_serves _) hfinds
    ⟨("Park", 5), by decide +kernel, ⟨_, location_parks _ _⟩, by decide +kernel⟩
  have hnone : ∀ r ∈ candidates asciiTables parkSearch nameColumn
      (parks ["Park 1", "Park 2", "Park 3", "Park 4", "Park 5", "Park"]).rows parkInfo
      (normalizeSearchText asciiTables "park"), ¬ ExactMatch asciiTexts parkSearch
        (normalizeSearchText asciiTables "park") (candidate parkSearch
          (parks ["Park 1", "Park 2", "Park 3", "Park 4", "Park 5", "Park"]) parkInfo r) := by
    decide +kernel
  exact hnone r hr hexact

end GeoPlatform.ArcGIS
