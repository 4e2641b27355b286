import GeoPlatform.ArcGIS.NetworkAnalyst
import GeoPlatform.Library.Yields

/-! Which replies of the route service become a route or an error of the API. `_to_result` checks
the kinds of some values only, and drops repeated positions after it has counted them. -/
namespace GeoPlatform.ArcGIS
open GeoPlatform.Geo Fallible
variable {K : Type} (F : Floats K)

/-! ### Kinds of values -/

def Json.IsObject : Json K → Prop
  | .dict _ => True
  | _ => False

/-- A loop goes through lists, texts and objects. -/
def Json.Iterable : Json K → Prop
  | .list _ | .str _ | .dict _ => True
  | _ => False

def Json.items : Json K → List (Json K)
  | .list xs => xs
  | .str s => s.toList.map fun c => .str (String.singleton c)
  | .dict entries => entries.map fun entry => .str entry.1
  | _ => []

def Json.member (value : Json K) (key : String) : Json K :=
  match value with
  | .dict entries => (entries.lookup key).getD .null
  | _ => .null

namespace Floats

def Numeric (value : Json K) : Prop := ∃ x, F.float value = .ok x

/-- The number that `float` makes of a value; zero where it makes none. -/
def number (value : Json K) : K :=
  match F.float value with
  | .ok x => x
  | .error _ => F.literal 0

def Measurable (p q : Point K) : Prop := ∃ x, F.haversine p q = .ok x

/-- A position has a length, and one that is long enough starts with two numbers. -/
def PositionOk : Json K → Prop
  | .list (x :: y :: _) => F.Numeric x ∧ F.Numeric y
  | .list _ => True
  | .str s => ∀ x y, s.toList[0]? = some x → s.toList[1]? = some y →
      F.Numeric (.str (String.singleton x)) ∧ F.Numeric (.str (String.singleton y))
  | .dict entries => entries.length < 2
  | _ => False

/-- The coordinate that a position stands for. -/
def point (x y : Json K) : Point K := (F.round (F.number x) 7, F.round (F.number y) 7)

def coordinate : Json K → Option (Point K)
  | .list (x :: y :: _) => some (F.point x y)
  | .str s =>
      match s.toList with
      | x :: y :: _ => some (F.point (.str (String.singleton x)) (.str (String.singleton y)))
      | _ => none
  | _ => none

end Floats

theorem get_yields (value : Json K) (key : String) :
    Yields (value.get key) value.IsObject (value.member key) := by
  cases value with
  | dict entries => exact (yields_ok _).congr (by simp [Json.IsObject])
  | _ => exact (yields_error _ _).congr (by simp [Json.IsObject])

theorem iter_yields (value : Json K) : Yields value.iter value.Iterable value.items := by
  cases value with
  | list xs => exact (yields_ok _).congr (by simp [Json.Iterable])
  | str s => exact (yields_ok _).congr (by simp [Json.Iterable])
  | dict entries => exact (yields_ok _).congr (by simp [Json.Iterable])
  | _ => exact (yields_error _ _).congr (by simp [Json.Iterable])

theorem float_yields (value : Json K) :
    Yields (F.float value) (F.Numeric value) (F.number value) := by
  apply Yields.of_cases
  · rintro ⟨x, hx⟩
    rw [hx, Floats.number, hx]
  · intro hn
    cases hx : F.float value with
    | ok x => exact absurd ⟨x, hx⟩ hn
    | error e => exact ⟨e, rfl⟩

theorem pair_yields (x y : Json K) : Yields (do
    let a ← F.float x
    let b ← F.float y
    return some (F.round a 7, F.round b 7)) (F.Numeric x ∧ F.Numeric y)
      (some (F.point x y)) := by
  have hy : ∀ a, Yields (do let b ← F.float y; return some (F.round a 7, F.round b 7))
      (F.Numeric y ∧ True) (some (F.round a 7, F.round (F.number y) 7)) :=
    fun a => (float_yields F y).bind fun _ => yields_ok _
  exact ((float_yields F x).bind fun _ => hy (F.number x)).congr (by simp)

theorem readPosition_yields (p : Json K) :
    Yields (F.readPosition p) (F.PositionOk p) (F.coordinate p) := by
  cases p with
  | list xs =>
    match xs with
    | [] => exact (yields_ok _).congr (by simp [Floats.PositionOk])
    | [x] => exact (yields_ok _).congr (by simp [Floats.PositionOk])
    | x :: y :: rest => exact pair_yields F x y
  | str s =>
    simp only [Floats.readPosition, Json.len, Json.item, Floats.PositionOk, Floats.coordinate]
    cases hs : s.toList with
    | nil => exact (yields_ok _).congr (by simp)
    | cons x rest =>
      cases rest with
      | nil => exact (yields_ok _).congr (by simp)
      | cons y rest =>
        exact (pair_yields F (.str (String.singleton x)) (.str (String.singleton y))).congr
          (by simp)
  | dict entries =>
    by_cases hlen : entries.length < 2
    · have hread : F.readPosition (.dict entries) = .ok none := if_pos hlen
      rw [hread]
      exact (yields_ok _).congr (by simp [Floats.PositionOk, hlen])
    · have hread : F.readPosition (.dict entries) = .error .keyError := if_neg hlen
      rw [hread]
      exact (yields_error _ _).congr (by simpa [Floats.PositionOk] using hlen)
  | _ => exact (yields_error _ _).congr (by simp [Floats.PositionOk])

/-! ### Readable replies -/

/-- `value or {}` is an object. -/
def Floats.ObjectOrEmpty (value : Json K) : Prop := (F.orDict value).IsObject

/-- The paths of a route, and their coordinates. -/
def routePaths (route : Json K) : Json K :=
  F.orList ((F.orDict (route.member "geometry")).member "paths")

def coordinatesIn (route : Json K) : List (Point K) :=
  (routePaths F route).items.flatMap fun path => path.items.filterMap F.coordinate

/-- The line of the route can be gone through. -/
structure LineReadable (route : Json K) : Prop where
  object : route.IsObject
  geometry : F.ObjectOrEmpty (route.member "geometry")
  paths : (routePaths F route).Iterable
  path : ∀ path ∈ (routePaths F route).items, path.Iterable ∧ ∀ p ∈ path.items, F.PositionOk p

theorem coordinates_yields (route : Json K) :
    Yields (coordinatesOf F route) (LineReadable F route) (coordinatesIn F route) := by
  have hpath : ∀ path : Json K, Yields (path.iter.bind fun ps => ps.mapM F.readPosition)
      (path.Iterable ∧ ∀ p ∈ path.items, F.PositionOk p) (path.items.map F.coordinate) :=
    fun path => (iter_yields path).bind fun _ => Yields.mapM (readPosition_yields F) path.items
  have hparts := Yields.mapM hpath (routePaths F route).items
  have hvalue : (((routePaths F route).items.map fun path =>
      path.items.map F.coordinate).flatten.filterMap id) = coordinatesIn F route := by
    rw [coordinatesIn, List.flatMap_def, List.filterMap_flatten, List.map_map]
    congr 1
    apply List.map_congr_left
    intro path _
    rw [Function.comp_apply, List.filterMap_map, Function.id_comp]
  have hlast : Yields ((routePaths F route).items.mapM _ >>= fun parts =>
      .ok (parts.flatten.filterMap id)) _ _ := hparts.bind fun _ => yields_ok _
  rw [hvalue] at hlast
  have hall : Yields (coordinatesOf F route) (route.IsObject ∧
      F.ObjectOrEmpty (route.member "geometry") ∧ (routePaths F route).Iterable ∧
      (∀ path ∈ (routePaths F route).items, path.Iterable ∧ ∀ p ∈ path.items, F.PositionOk p) ∧
      True) (coordinatesIn F route) :=
    (get_yields route "geometry").bind fun _ =>
      (get_yields (F.orDict (route.member "geometry")) "paths").bind fun _ =>
        (iter_yields (routePaths F route)).bind fun _ => hlast
  apply hall.congr
  constructor
  · rintro ⟨hobject, hgeometry, hiter, hpath, -⟩
    exact ⟨hobject, hgeometry, hiter, hpath⟩
  · rintro ⟨hobject, hgeometry, hiter, hpath⟩
    exact ⟨hobject, hgeometry, hiter, hpath, trivial⟩

/-- The total under a name, with the factor of its unit, if it is a number with such a unit. -/
def reportedAs (attributes : Json K) (d : RouteDescription) (factors : List (String × ℚ))
    (name : String) : Option (Json K × ℚ) :=
  if (attributes.member ("Total_" ++ name)).isNumber then
    (factorOf d factors name).map (attributes.member ("Total_" ++ name), ·)
  else none

/-- The first total of a route that is reported. -/
def reported (attributes : Json K) (d : RouteDescription) (factors : List (String × ℚ))
    (names : List String) : Option (Json K × ℚ) :=
  names.findSome? (reportedAs attributes d factors)

/-- The total can be looked up, and the number found fits a float. -/
structure TotalReadable (attributes : Json K) (d : RouteDescription)
    (factors : List (String × ℚ)) (names : List String) : Prop where
  object : names ≠ [] → attributes.IsObject
  numeric : ∀ r, reported attributes d factors names = some r → F.Numeric r.1

/-- One turn of the loop: the first number found ends it. -/
theorem totalOf_cons {attributes : Json K} (hobject : attributes.IsObject) (d : RouteDescription)
    (factors : List (String × ℚ)) (name : String) (names : List String) :
    totalOf F attributes d factors (name :: names) =
      (reportedAs attributes d factors name).elim (totalOf F attributes d factors names)
        fun r => (F.float r.1).map fun x => some (F.mul x (F.literal r.2)) := by
  have hget := (get_yields attributes ("Total_" ++ name)).ok hobject
  simp only [totalOf, hget, bind, Except.bind, reportedAs]
  cases (attributes.member ("Total_" ++ name)).isNumber with
  | false => rfl
  | true =>
    cases factorOf d factors name with
    | none => rfl
    | some factor =>
      show _ = Except.map _ (F.float (attributes.member ("Total_" ++ name)))
      cases F.float (attributes.member ("Total_" ++ name)) <;> rfl

theorem totalOf_yields (attributes : Json K) (d : RouteDescription) (factors : List (String × ℚ))
    (names : List String) : Yields (totalOf F attributes d factors names)
      (TotalReadable F attributes d factors names)
      ((reported attributes d factors names).map fun r =>
        F.mul (F.number r.1) (F.literal r.2)) := by
  induction names with
  | nil => exact (yields_ok _).congr ⟨fun _ => ⟨nofun, nofun⟩, fun _ => trivial⟩
  | cons name names ih =>
    by_cases hobject : attributes.IsObject
    · have hread : TotalReadable F attributes d factors (name :: names) ↔
          ∀ r, reported attributes d factors (name :: names) = some r → F.Numeric r.1 :=
        ⟨TotalReadable.numeric, fun h => ⟨fun _ => hobject, h⟩⟩
      have hcons : reported attributes d factors (name :: names) =
          (reportedAs attributes d factors name).or (reported attributes d factors names) := by
        unfold reported
        rw [List.findSome?_cons]
        cases reportedAs attributes d factors name <;> rfl
      rw [hcons] at hread ⊢
      rw [totalOf_cons F hobject]
      cases hfirst : reportedAs attributes d factors name with
      | some r =>
        rw [hfirst] at hread
        exact ((float_yields F r.1).map _).congr (hread.trans (by simp)).symm
      | none =>
        rw [hfirst] at hread
        apply ih.congr
        rw [hread]
        exact ⟨TotalReadable.numeric, fun h => ⟨fun _ => hobject, h⟩⟩
    · obtain ⟨e, he⟩ := (get_yields attributes ("Total_" ++ name)).error hobject
      have herror : totalOf F attributes d factors (name :: names) = .error e := by
        simp only [totalOf, he, bind, Except.bind]
      rw [herror]
      exact (yields_error _ _).congr
        ⟨False.elim, fun h => hobject (h.object (List.cons_ne_nil _ _))⟩

theorem total_yields (attributes : Json K) (d : RouteDescription) (name : Option String)
    (factors : List (String × ℚ)) : Yields (total F attributes d name factors)
      (TotalReadable F attributes d factors (totalCandidates d name factors))
      ((reported attributes d factors (totalCandidates d name factors)).map fun r =>
        F.mul (F.number r.1) (F.literal r.2)) :=
  totalOf_yields F attributes d factors (totalCandidates d name factors)

/-! ### The other parts -/

theorem lineLength_yields (coordinates : List (Point K)) :
    ∃ length, Yields (lineLength F coordinates)
      (∀ side ∈ coordinates.zip coordinates.tail, F.Measurable side.1 side.2) length := by
  have hside : ∀ side : Point K × Point K, ∃ x, Yields (F.haversine side.1 side.2)
      (F.Measurable side.1 side.2) x := by
    intro side
    cases hx : F.haversine side.1 side.2 with
    | ok x => exact ⟨x, (yields_ok x).congr ⟨fun _ => ⟨x, hx⟩, fun _ => trivial⟩⟩
    | error e =>
      refine ⟨F.literal 0, (yields_error e _).congr ⟨False.elim, ?_⟩⟩
      rintro ⟨x, h⟩
      cases hx.symm.trans h
  choose value hvalue using hside
  have hsides := Yields.mapM hvalue (coordinates.zip coordinates.tail)
  refine ⟨((coordinates.zip coordinates.tail).map value).foldl F.add (F.literal 0), ?_⟩
  exact (hsides.map fun sides => sides.foldl F.add (F.literal 0))

/-- The reported distance of a stop. -/
def stopValue (stop : Json K) : Json K :=
  (F.orDict (stop.member "attributes")).member "DistanceToNetworkInMeters"

structure StopReadable (stop : Json K) : Prop where
  object : stop.IsObject
  attributes : F.ObjectOrEmpty (stop.member "attributes")
  numeric : (stopValue F stop).isNumber = true → F.Numeric (stopValue F stop)

def stopDistance (stop : Json K) : Option K :=
  if (stopValue F stop).isNumber then some (F.number (stopValue F stop)) else none

theorem snapDistance_yields (stop : Json K) :
    Yields (snapDistance F stop) (StopReadable F stop) (stopDistance F stop) := by
  have hvalue : Yields (if (stopValue F stop).isNumber then
      (F.float (stopValue F stop)).map some else .ok none)
      ((stopValue F stop).isNumber = true → F.Numeric (stopValue F stop))
      (stopDistance F stop) := by
    unfold stopDistance
    cases (stopValue F stop).isNumber with
    | true => exact ((float_yields F (stopValue F stop)).map some).congr (by simp)
    | false => exact (yields_ok none).congr (by simp)
  have hall : Yields (snapDistance F stop) (stop.IsObject ∧
      F.ObjectOrEmpty (stop.member "attributes") ∧
      ((stopValue F stop).isNumber = true → F.Numeric (stopValue F stop))) (stopDistance F stop) :=
    (get_yields stop "attributes").bind fun _ =>
      (get_yields (F.orDict (stop.member "attributes")) _).bind fun _ => hvalue
  exact hall.congr ⟨fun ⟨h, h', h''⟩ => ⟨h, h', h''⟩, fun h => ⟨h.object, h.attributes, h.numeric⟩⟩

/-- The stops of a reply. -/
def stopsOf (payload : List (String × Json K)) : List (Json K) :=
  (featuresOf payload "stops").getD []

/-- The distance reported for the stop in a place. -/
def reportedSnap (payload : List (String × Json K)) (i : ℕ) : Option K :=
  ((stopsOf payload).map (stopDistance F))[i]?.join

theorem stopSnapDistances_yields (payload : List (String × Json K)) :
    Yields (stopSnapDistances F payload) (∀ stop ∈ stopsOf payload, StopReadable F stop)
      (reportedSnap F payload 0, reportedSnap F payload 1) :=
  (Yields.mapM (snapDistance_yields F) (stopsOf payload)).map fun values =>
    (values[0]?.join, values[1]?.join)

theorem snapped_yields (point first : Point K) (reported : Option K) :
    ∃ snap, Yields (snapped F point first reported)
      (reported = none → F.Measurable point first) snap := by
  cases reported with
  | some distance => exact ⟨_, (yields_ok _).congr (by simp)⟩
  | none =>
    cases hx : F.haversine point first with
    | ok x =>
      refine ⟨⟨point, first, F.round x 1, none⟩, ?_⟩
      have hsnap : snapped F point first none = .ok ⟨point, first, F.round x 1, none⟩ := by
        simp only [snapped, hx]
        rfl
      rw [hsnap]
      exact (yields_ok _).congr ⟨fun _ _ => ⟨x, hx⟩, fun _ => trivial⟩
    | error e =>
      have hsnap : snapped F point first none = .error e := by
        simp only [snapped, hx]
        rfl
      refine ⟨⟨point, first, F.literal 0, none⟩, ?_⟩
      rw [hsnap]
      refine (yields_error e _).congr ⟨False.elim, fun h => ?_⟩
      obtain ⟨x, h⟩ := h rfl
      cases hx.symm.trans h

/-! ### Repeated positions -/

theorem dedupe_length_le (result coordinates : List (Point K)) :
    result.length ≤ (coordinates.foldl (fun result point =>
      if result.getLast?.any (F.same · point) then result else result ++ [point])
        result).length := by
  induction coordinates generalizing result with
  | nil => exact le_rfl
  | cons point rest ih =>
    rw [List.foldl_cons]
    split
    · exact ih result
    · have hmore := ih (result ++ [point])
      rw [List.length_append] at hmore
      omega

/-- Two positions stay exactly when one differs from the first. -/
theorem dedupe_two_iff (first : Point K) (coordinates : List (Point K)) :
    2 ≤ (F.dedupe (first :: coordinates)).length ↔ ∃ p ∈ coordinates, F.same first p = false := by
  unfold Floats.dedupe
  rw [List.foldl_cons]
  simp only [List.getLast?_nil, Option.any_none, Bool.false_eq_true, if_false, List.nil_append]
  induction coordinates with
  | nil => simp
  | cons point rest ih =>
    rw [List.foldl_cons]
    cases hsame : F.same first point with
    | true => simpa [hsame] using ih
    | false =>
      have hmore := dedupe_length_le F [first, point] rest
      simp only [List.getLast?_singleton, Option.any_some, hsame, Bool.false_eq_true, if_false,
        List.singleton_append, List.mem_cons, exists_eq_or_imp, true_or, iff_true]
      exact hmore

/-! ### Answers -/

/-- A route with at least two positions, or an error of the API. -/
def Answered (answer : Except RouteFailure (RouteResult K)) : Prop :=
  match answer with
  | .ok route => 2 ≤ route.coordinates.length
  | .error (.python _) => False
  | .error _ => True

/-- A step that raises takes the answer with it. -/
theorem answered_bind {α : Type} {x : Except PyException α} {p : Prop} {a : α}
    (hx : Yields x p a) (f : α → Except RouteFailure (RouteResult K)) :
    Answered (x.mapError .python >>= f) ↔ p ∧ Answered (f a) := by
  by_cases hp : p
  · rw [hx.ok hp]
    exact ⟨fun h => ⟨hp, h⟩, And.right⟩
  · obtain ⟨e, he⟩ := hx.error hp
    rw [he]
    exact ⟨False.elim, fun h => hp h.1⟩

section Conditions
variable (payload : List (String × Json K)) (route : Json K) (origin destination : Point K)
variable (d : RouteDescription) (timeAttr distanceAttr : Option String)

def routeAttributes : Json K := F.orDict (route.member "attributes")

/-- The totals can be looked up and fit a float. Without a distance the line can be measured. -/
structure TotalsReadable : Prop where
  time : TotalReadable F (routeAttributes F route) d TIME_UNITS_SECONDS
    (totalCandidates d timeAttr TIME_UNITS_SECONDS)
  distance : TotalReadable F (routeAttributes F route) d LENGTH_UNITS_METERS
    (totalCandidates d distanceAttr LENGTH_UNITS_METERS)
  line : reported (routeAttributes F route) d LENGTH_UNITS_METERS
      (totalCandidates d distanceAttr LENGTH_UNITS_METERS) = none →
    ∀ side ∈ (coordinatesIn F route).zip (coordinatesIn F route).tail, F.Measurable side.1 side.2

/-- The stops can be read. Without a reported distance an end of the line can be measured. -/
structure EndsReadable : Prop where
  stops : ∀ stop ∈ stopsOf payload, StopReadable F stop
  start : reportedSnap F payload 0 = none →
    ∀ first ∈ (coordinatesIn F route).head?, F.Measurable origin first
  finish : reportedSnap F payload 1 = none →
    ∀ last ∈ (coordinatesIn F route).getLast?, F.Measurable destination last

/-- A position differs from the first. -/
def Moves : Prop :=
  ∃ first rest, coordinatesIn F route = first :: rest ∧ ∃ p ∈ rest, F.same first p = false

/-- What is asked of the first route of a reply. -/
structure RouteReadable : Prop where
  line : LineReadable F route
  totals : 2 ≤ (coordinatesIn F route).length → TotalsReadable F route d timeAttr distanceAttr
  ends : 2 ≤ (coordinatesIn F route).length →
    (reported (routeAttributes F route) d TIME_UNITS_SECONDS
      (totalCandidates d timeAttr TIME_UNITS_SECONDS)).isSome = true →
    EndsReadable F payload route origin destination ∧ Moves F route

end Conditions

variable {payload : List (String × Json K)} {route : Json K} {origin destination : Point K}
variable {d : RouteDescription} {timeAttr distanceAttr : Option String}

/-- Without a reported distance the line is measured. -/
theorem distanceOf_yields (attributes : Json K) (distanceAttr : Option String)
    (coordinates : List (Point K)) :
    ∃ x, Yields (distanceOf F attributes d distanceAttr coordinates)
      (TotalReadable F attributes d LENGTH_UNITS_METERS
          (totalCandidates d distanceAttr LENGTH_UNITS_METERS) ∧
        (reported attributes d LENGTH_UNITS_METERS
            (totalCandidates d distanceAttr LENGTH_UNITS_METERS) = none →
          ∀ side ∈ coordinates.zip coordinates.tail, F.Measurable side.1 side.2)) x := by
  obtain ⟨length, hlength⟩ := lineLength_yields F coordinates
  have htotal := total_yields F attributes d distanceAttr LENGTH_UNITS_METERS
  unfold distanceOf
  cases hr : reported attributes d LENGTH_UNITS_METERS
      (totalCandidates d distanceAttr LENGTH_UNITS_METERS) with
  | some r =>
    rw [hr, Option.map_some] at htotal
    refine ⟨F.mul (F.number r.1) (F.literal r.2), ?_⟩
    apply (htotal.bind (f := fun o => o.elim (lineLength F coordinates) .ok)
      fun _ => yields_ok _).congr
    simp
  | none =>
    rw [hr, Option.map_none] at htotal
    refine ⟨length, ?_⟩
    apply (htotal.bind (f := fun o => o.elim (lineLength F coordinates) .ok)
      fun _ => hlength).congr
    simp

theorem resultOf_yields (distance duration : K) (first second : Point K) (rest : List (Point K)) :
    ∃ result : RouteResult K, result.coordinates = F.dedupe (first :: second :: rest) ∧
      Yields (resultOf F payload origin destination distance duration first second rest)
        ((∀ stop ∈ stopsOf payload, StopReadable F stop) ∧
          (reportedSnap F payload 0 = none → F.Measurable origin first) ∧
          (reportedSnap F payload 1 = none →
            F.Measurable destination ((second :: rest).getLast (List.cons_ne_nil _ _))) ∧ True)
        result := by
  obtain ⟨start, hstart⟩ := snapped_yields F origin first (reportedSnap F payload 0)
  obtain ⟨finish, hfinish⟩ := snapped_yields F destination
    ((second :: rest).getLast (List.cons_ne_nil _ _)) (reportedSnap F payload 1)
  refine ⟨⟨distance, duration, F.dedupe (first :: second :: rest), start, finish⟩, rfl, ?_⟩
  exact (stopSnapDistances_yields F payload).bind fun _ => hstart.bind fun _ =>
    hfinish.bind fun _ => yields_ok _

/-- A route with its totals is answered if its ends can be read and it moves. -/
theorem answered_result {first second : Point K} {rest : List (Point K)}
    (hline : coordinatesIn F route = first :: second :: rest) (distance duration : K) :
    Answered ((resultOf F payload origin destination distance duration first second
      rest).mapError .python) ↔
      EndsReadable F payload route origin destination ∧ Moves F route := by
  obtain ⟨result, hcoordinates, hresult⟩ :=
    @resultOf_yields _ F payload origin destination distance duration first second rest
  have hanswered : Answered ((resultOf F payload origin destination distance duration first second
      rest).mapError .python >>= Except.ok) ↔ _ ∧ 2 ≤ result.coordinates.length :=
    answered_bind hresult Except.ok
  rw [hcoordinates, dedupe_two_iff] at hanswered
  have hlast : (first :: second :: rest).getLast? =
      some ((second :: rest).getLast (List.cons_ne_nil _ _)) := by
    rw [List.getLast?_cons_cons, List.getLast?_eq_some_getLast (List.cons_ne_nil _ _)]
  have hends : EndsReadable F payload route origin destination ↔
      (∀ stop ∈ stopsOf payload, StopReadable F stop) ∧
        (reportedSnap F payload 0 = none → F.Measurable origin first) ∧
        (reportedSnap F payload 1 = none →
          F.Measurable destination ((second :: rest).getLast (List.cons_ne_nil _ _))) := by
    constructor
    · intro h
      exact ⟨h.stops, fun h0 => h.start h0 first (by rw [hline]; rfl),
        fun h1 => h.finish h1 _ (by rw [hline, hlast]; rfl)⟩
    · rintro ⟨hstops, hstart, hfinish⟩
      refine ⟨hstops, fun h0 p hp => ?_, fun h1 p hp => ?_⟩
      · rw [hline, List.head?_cons, Option.mem_some_iff] at hp
        exact hp ▸ hstart h0
      · rw [hline, hlast, Option.mem_some_iff] at hp
        exact hp ▸ hfinish h1
  have hmoves : Moves F route ↔ ∃ p ∈ second :: rest, F.same first p = false := by
    unfold Moves
    rw [hline]
    constructor
    · rintro ⟨first', rest', h, hp⟩
      cases h
      exact hp
    · exact fun hp => ⟨first, second :: rest, rfl, hp⟩
  rw [hends, hmoves, and_assoc, and_assoc]
  have hbind : ∀ x : Except RouteFailure (RouteResult K), x >>= Except.ok = x := by
    rintro (e | r) <;> rfl
  rw [hbind] at hanswered
  simpa only [true_and, and_assoc] using hanswered

/-- Too few positions are answered by an error, and nothing more is asked of the route. -/
theorem answered_short (hshort : (coordinatesIn F route).length < 2) :
    route.IsObject ∧ LineReadable F route ∧ True ↔
      RouteReadable F payload route origin destination d timeAttr distanceAttr := by
  constructor
  · rintro ⟨-, hline, -⟩
    exact ⟨hline, fun h => absurd h (by omega), fun h => absurd h (by omega)⟩
  · exact fun h => ⟨h.line.object, h.line, trivial⟩

theorem readable_iff (hlong : 2 ≤ (coordinatesIn F route).length) :
    RouteReadable F payload route origin destination d timeAttr distanceAttr ↔
      LineReadable F route ∧ TotalsReadable F route d timeAttr distanceAttr ∧
        ((reported (routeAttributes F route) d TIME_UNITS_SECONDS
            (totalCandidates d timeAttr TIME_UNITS_SECONDS)).isSome = true →
          EndsReadable F payload route origin destination ∧ Moves F route) :=
  ⟨fun h => ⟨h.line, h.totals hlong, h.ends hlong⟩,
    fun ⟨hline, htotals, hends⟩ => ⟨hline, fun _ => htotals, fun _ => hends⟩⟩

/-- A reply becomes a route of two positions at least, or an error of the API, exactly when its
first route, if there is one, can be read and does not stay at one position. -/
theorem toResult_answered_iff (F : Floats K) (payload : List (String × Json K))
    (origin destination : Point K) (d : RouteDescription) (timeAttr distanceAttr : Option String) :
    Answered (toResult F payload origin destination d timeAttr distanceAttr) ↔
      ∀ route rest, featuresOf payload "routes" = some (route :: rest) →
        RouteReadable F payload route origin destination d timeAttr distanceAttr := by
  unfold toResult
  cases hroutes : featuresOf payload "routes" with
  | none => simp [Answered]
  | some features =>
    cases features with
    | nil => simp [Answered]
    | cons route rest =>
      simp only [Option.some.injEq, List.cons.injEq, and_imp]
      rw [answered_bind (get_yields route "attributes"), answered_bind (coordinates_yields F route)]
      have hfirst : (∀ route' rest', route = route' → rest = rest' →
          RouteReadable F payload route' origin destination d timeAttr distanceAttr) ↔
          RouteReadable F payload route origin destination d timeAttr distanceAttr :=
        ⟨fun h => h _ _ rfl rfl, fun h _ _ hroute _ => hroute ▸ h⟩
      rw [hfirst]
      match hline : coordinatesIn F route with
      | [] => exact answered_short F (by simp [hline])
      | [p] => exact answered_short F (by simp [hline])
      | first :: second :: more =>
        have hlong : 2 ≤ (coordinatesIn F route).length := by
          rw [hline, List.length_cons, List.length_cons]
          omega
        rw [readable_iff F hlong]
        show _ ∧ _ ∧ Answered ((total F (routeAttributes F route) d timeAttr
          TIME_UNITS_SECONDS).mapError .python >>= _) ↔ _
        obtain ⟨distance, hdistance⟩ := @distanceOf_yields _ F d (routeAttributes F route)
          distanceAttr (first :: second :: more)
        rw [answered_bind (total_yields F _ d timeAttr TIME_UNITS_SECONDS)]
        show _ ∧ _ ∧ _ ∧ Answered ((distanceOf F (routeAttributes F route) d distanceAttr
          (first :: second :: more)).mapError .python >>= _) ↔ _
        rw [answered_bind hdistance]
        have htotals : TotalsReadable F route d timeAttr distanceAttr ↔ _ ∧ _ ∧ _ :=
          ⟨fun h => ⟨h.time, h.distance, h.line⟩, fun ⟨h, h', h''⟩ => ⟨h, h', h''⟩⟩
        rw [htotals, hline]
        cases htime : reported (routeAttributes F route) d TIME_UNITS_SECONDS
            (totalCandidates d timeAttr TIME_UNITS_SECONDS) with
        | none =>
          constructor
          · rintro ⟨-, hl, ht, ⟨hd, hs⟩, -⟩
            exact ⟨hl, ⟨ht, hd, hs⟩, nofun⟩
          · rintro ⟨hl, ⟨ht, hd, hs⟩, -⟩
            exact ⟨hl.object, hl, ht, ⟨hd, hs⟩, trivial⟩
        | some r =>
          show _ ∧ _ ∧ _ ∧ _ ∧ Answered ((resultOf F payload origin destination distance
            (F.mul (F.number r.1) (F.literal r.2)) first second more).mapError .python) ↔ _
          rw [answered_result F hline]
          constructor
          · rintro ⟨-, hl, ht, ⟨hd, hs⟩, hends⟩
            exact ⟨hl, ⟨ht, hd, hs⟩, fun _ => hends⟩
          · rintro ⟨hl, ⟨ht, hd, hs⟩, hends⟩
            exact ⟨hl.object, hl, ht, ⟨hd, hs⟩, hends rfl⟩

/-- A reply whose only route is `null` raises an `AttributeError`, whatever the floats are. -/
theorem toResult_null_route : ¬ ∃ F : Floats ℚ, Answered (toResult F
    [("routes", .dict [("features", .list [.null])])] (0, 0) (1, 1) ⟨[]⟩ none none) := by
  rintro ⟨F, h⟩
  exact h

end GeoPlatform.ArcGIS
