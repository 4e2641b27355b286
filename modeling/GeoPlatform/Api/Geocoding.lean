import GeoPlatform.Api.KeyCache
import GeoPlatform.ArcGIS.ForwardGeocoding
import GeoPlatform.Library.Run

/-! `GeocodingService.geocode` and `demo_geocode`, each with a `TTLCache` of its own. The provider
is a function of the text and the limit, and answers within the deadline of the demo. -/
namespace GeoPlatform.Api
open GeoPlatform.ArcGIS
variable {K E : Type}

structure GeocodeResult (K : Type) where
  id : String
  name : String
  address : Option String
  latitude : K
  longitude : K
  type : String

structure GeocodeResponse (K : Type) where
  query : String
  results : List (GeocodeResult K)
  count : ℕ

/-- The places that `search` finds, or what it raises. -/
abbrev SearchProvider (K E : Type) : Type := String → ℤ → Except E (List (Place K))

/-- Python's `str.split`, `str.casefold`, and `round` to `COORDINATE_DECIMALS`. -/
structure GeocodingFunctions (K : Type) where
  texts : PyText
  casefold : String → String
  roundCoordinate : K → K

inductive GeocodeError (E : Type)
  | invalidRequest (message : String) (field : String)
  | provider (e : E)

structure DemoSettings where
  demoMaxQueryLength : ℕ := 512
  demoMaxResults : ℤ := 5

/-- What `time.monotonic()` reads when an entry is looked up and when one is stored. -/
structure CacheTimes where
  read : ℚ
  write : ℚ

/-- The cache of the service, if it has one, and that of the demo. -/
structure GeocodingState (K : Type) where
  serviceCache : Option (TTLCache (GeocodeResponse K))
  demoCache : TTLCache (GeocodeResponse K)

section Service
variable (F : GeocodingFunctions K) (search : SearchProvider K E)

/-- `" ".join(query.split())`. -/
def joinedWords (P : PyText) (query : String) : String :=
  " ".intercalate (((query.toList.splitOnP P.space).filter (· ≠ [])).map String.ofList)

def serviceKey (query : String) (limit : ℤ) : String :=
  F.casefold (joinedWords F.texts query) ++ "|" ++ toString limit

/-- The response that is made of what the provider finds. -/
def responseOf (query : String) (places : List (Place K)) : GeocodeResponse K where
  query := query
  results := places.map fun place =>
    { id := place.id, name := place.name, address := place.address
      latitude := F.roundCoordinate place.location.2
      longitude := F.roundCoordinate place.location.1
      type := place.type }
  count := places.length

/-- What a search without a cache answers. -/
def searched (query : String) (limit : ℤ) : Except (GeocodeError E) (GeocodeResponse K) :=
  ((search (joinedWords F.texts query) limit).map
    (responseOf F (joinedWords F.texts query))).mapError .provider

/-- `cache.get(key)`, then on a miss the answer, which is stored. -/
def throughCache (cache : TTLCache (GeocodeResponse K)) (key : String) (times : CacheTimes)
    (answer : Except (GeocodeError E) (GeocodeResponse K)) :
    Except (GeocodeError E) (GeocodeResponse K) × TTLCache (GeocodeResponse K) :=
  match cache.get key times.read with
  | (some cached, cache) => (.ok cached, cache)
  | (none, cache) =>
    match answer with
    | .error e => (.error e, cache)
    | .ok response => (.ok response, cache.set key response times.write)

def geocode (s : GeocodingState K) (query : String) (limit : ℤ) (times : CacheTimes) :
    Except (GeocodeError E) (GeocodeResponse K) × GeocodingState K :=
  match s.serviceCache with
  | none => (searched F search query limit, s)
  | some cache =>
    let (reply, cache) := throughCache cache (serviceKey F query limit) times
      (searched F search query limit)
    (reply, { s with serviceCache := some cache })

/-! ### The demo -/

def demoKey (q : String) (limit : ℤ) : String :=
  "geocode:" ++ normalizeSearchText F.texts q ++ ":" ++ toString limit

/-- The checks before the cache is asked. -/
def demoRefusal (settings : DemoSettings) (q : String) (limit : ℤ) : Option (GeocodeError E) :=
  if settings.demoMaxQueryLength < q.length then
    some (.invalidRequest ("The 'q' parameter may contain at most " ++
      toString settings.demoMaxQueryLength ++ " characters.") "q")
  else if (normalizeSearchText F.texts q).length < 2 then
    some (.invalidRequest "The 'q' parameter must contain at least 2 letters or digits." "q")
  else if settings.demoMaxResults < limit then
    some (.invalidRequest ("The demo returns at most " ++ toString settings.demoMaxResults ++
      " results.") "limit")
  else none

/-- `demo_geocode`. The service is asked only when the cache of the demo misses. -/
def demoGeocode (settings : DemoSettings) (s : GeocodingState K) (q : String) (limit : ℤ)
    (times serviceTimes : CacheTimes) :
    Except (GeocodeError E) (GeocodeResponse K) × GeocodingState K :=
  match demoRefusal F settings q limit with
  | some e => (.error e, s)
  | none =>
    match s.demoCache.get (demoKey F q limit) times.read with
    | (some cached, cache) => (.ok cached, { s with demoCache := cache })
    | (none, cache) =>
      match geocode F search { s with demoCache := cache } q limit serviceTimes with
      | (.error e, s) => (.error e, s)
      | (.ok response, s) => (.ok response, { s with
          demoCache := s.demoCache.set (demoKey F q limit) response times.write })

/-! ### Calls -/

inductive GeocodingCall where
  | geocode (query : String) (limit : ℤ) (times : CacheTimes)
  | demo (q : String) (limit : ℤ) (times serviceTimes : CacheTimes)

def GeocodingCall.text : GeocodingCall → String
  | .geocode query _ _ => query
  | .demo q _ _ _ => q

def GeocodingCall.limit : GeocodingCall → ℤ
  | .geocode _ limit _ => limit
  | .demo _ limit _ _ => limit

def GeocodingState.step (settings : DemoSettings) (s : GeocodingState K) :
    GeocodingCall → Except (GeocodeError E) (GeocodeResponse K) × GeocodingState K
  | .geocode query limit times => Api.geocode F search s query limit times
  | .demo q limit times serviceTimes => demoGeocode F search settings s q limit times serviceTimes

/-- The response with both caches disabled. -/
def uncached (settings : DemoSettings) (call : GeocodingCall) :
    Except (GeocodeError E) (GeocodeResponse K) :=
  ((⟨none, ⟨0, 1, []⟩⟩ : GeocodingState K).step F search settings call).1

end Service
end GeoPlatform.Api
