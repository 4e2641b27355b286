import GeoPlatform.Api.Geocoding
import GeoPlatform.Library.Separators

/-! What the two caches of geocoding hold. A response is the answer to some call so far, which the
keys of the caches do not tell apart from the one that gets it. -/
namespace GeoPlatform.Api
open GeoPlatform.ArcGIS
variable {K E : Type} {F : GeocodingFunctions K} {search : SearchProvider K E}
variable {settings : DemoSettings}

/-! ### Keys -/

theorem toString_int_chars {n : ℤ} {c : Char} (h : c ∈ (toString n).toList) :
    c.isDigit = true ∨ c = '-' := by
  cases n with
  | ofNat n => exact Or.inl (Convex.isDigit_of_mem_toString h)
  | negSucc n =>
    have hlist : (toString (Int.negSucc n)).toList = '-' :: (toString (n + 1)).toList := by
      show ("-" ++ toString (n + 1)).toList = _
      rw [String.toList_append]
      rfl
    rw [hlist, List.mem_cons] at h
    rcases h with rfl | h
    · exact Or.inr rfl
    · exact Or.inl (Convex.isDigit_of_mem_toString h)

/-- A key that ends in a limit determines what stands before, and the limit. -/
theorem key_inj {a b : String} {sep : String} {c : Char} (hsep : sep.toList = [c])
    (hc : c.isDigit = false ∧ c ≠ '-') {m n : ℤ}
    (h : a ++ sep ++ toString m = b ++ sep ++ toString n) : a = b ∧ m = n := by
  have hlist := congrArg String.toList h
  simp only [String.toList_append, hsep, List.append_assoc, List.singleton_append] at hlist
  have hnot : ∀ n : ℤ, c ∉ (toString n).toList := by
    intro n hmem
    rcases toString_int_chars hmem with hd | hm
    · exact absurd hd (by simp [hc.1])
    · exact hc.2 hm
  obtain ⟨hab, hmn⟩ := Separators.split_last (hnot m) (hnot n) hlist
  exact ⟨String.toList_inj.mp hab, Int.repr_inj.mp (String.toList_inj.mp hmn)⟩

/-! ### Calls that a cache does not tell apart -/

def GeocodingCall.isDemo : GeocodingCall → Bool
  | .geocode _ _ _ => false
  | .demo _ _ _ _ => true

/-- The same words up to case, and the same limit. -/
def SameSearch (F : GeocodingFunctions K) (a b : GeocodingCall) : Prop :=
  F.casefold (joinedWords F.texts a.text) = F.casefold (joinedWords F.texts b.text) ∧
    a.limit = b.limit

/-- Two demo calls for the same normalized text, and with the same limit. -/
def SameDemo (F : GeocodingFunctions K) (a b : GeocodingCall) : Prop :=
  a.isDemo = true ∧ b.isDemo = true ∧
    normalizeSearchText F.texts a.text = normalizeSearchText F.texts b.text ∧ a.limit = b.limit

/-- Of the given calls, `origin` is one whose answer `call` may get: by the cache of the service,
or by the cache of the demo, where a call with the same normalized text got it. -/
def Linked (F : GeocodingFunctions K) (calls : List GeocodingCall) (call origin : GeocodingCall) :
    Prop :=
  origin ∈ calls ∧ (SameSearch F call origin ∨
    ∃ middle ∈ calls, SameDemo F call middle ∧ SameSearch F middle origin)

theorem serviceKey_inj {a b : GeocodingCall}
    (h : serviceKey F a.text a.limit = serviceKey F b.text b.limit) : SameSearch F a b :=
  @key_inj _ _ "|" '|' rfl (by decide) _ _ h

theorem demoKey_inj {a b : GeocodingCall} (ha : a.isDemo = true) (hb : b.isDemo = true)
    (h : demoKey F a.text a.limit = demoKey F b.text b.limit) : SameDemo F a b := by
  obtain ⟨htext, hlimit⟩ := @key_inj _ _ ":" ':' rfl (by decide) _ _ h
  exact ⟨ha, hb, (String.append_right_inj _).mp htext, hlimit⟩

/-- Without caches the demo answers what the service does, or refuses. -/
theorem uncached_demo (q : String) (limit : ℤ) (times serviceTimes : CacheTimes) :
    uncached F search settings (.demo q limit times serviceTimes) =
      (demoRefusal F settings q limit).elim (searched F search q limit) .error := by
  simp only [uncached, GeocodingState.step, demoGeocode]
  cases @demoRefusal K E F settings q limit with
  | some e => rfl
  | none =>
    simp only [TTLCache.get, TTLCache.enabled, lt_irrefl, decide_false, Bool.not_false, if_true,
      geocode]
    cases hanswer : searched F search q limit <;> rfl

/-- The call gets past the checks, if it has any. -/
def Answered (F : GeocodingFunctions K) (search : SearchProvider K E) (settings : DemoSettings)
    (call : GeocodingCall) : Prop :=
  uncached F search settings call = searched F search call.text call.limit

theorem answered_of_ok {call : GeocodingCall} {response : GeocodeResponse K}
    (h : uncached F search settings call = .ok response) : Answered F search settings call := by
  cases call with
  | geocode query limit times => rfl
  | demo q limit times serviceTimes =>
    rw [uncached_demo] at h
    unfold Answered
    rw [uncached_demo]
    cases hrefused : @demoRefusal K E F settings q limit with
    | some e =>
      rw [hrefused] at h
      cases h
    | none => rfl

/-! ### What the caches hold -/

/-- The answers that the cache of the service holds after the given calls. -/
def ServiceHolds (F : GeocodingFunctions K) (search : SearchProvider K E) (settings : DemoSettings)
    (calls : List GeocodingCall) (key : String) (response : GeocodeResponse K) : Prop :=
  ∃ origin ∈ calls, serviceKey F origin.text origin.limit = key ∧
    uncached F search settings origin = .ok response

def DemoHolds (F : GeocodingFunctions K) (search : SearchProvider K E) (settings : DemoSettings)
    (calls : List GeocodingCall) (key : String) (response : GeocodeResponse K) : Prop :=
  ∃ middle ∈ calls, middle.isDemo = true ∧ demoKey F middle.text middle.limit = key ∧
    ∃ origin ∈ calls, SameSearch F middle origin ∧ uncached F search settings origin = .ok response

structure CachesHold (F : GeocodingFunctions K) (search : SearchProvider K E)
    (settings : DemoSettings) (calls : List GeocodingCall) (s : GeocodingState K) : Prop where
  service : ∀ c ∈ s.serviceCache, c.Only (ServiceHolds F search settings calls)
  demo : s.demoCache.Only (DemoHolds F search settings calls)

theorem ServiceHolds.append {calls : List GeocodingCall} (more : List GeocodingCall) (key : String)
    (response : GeocodeResponse K) (h : ServiceHolds F search settings calls key response) :
    ServiceHolds F search settings (calls ++ more) key response := by
  obtain ⟨origin, hin, hkey, hanswer⟩ := h
  exact ⟨origin, List.mem_append_left _ hin, hkey, hanswer⟩

theorem DemoHolds.append {calls : List GeocodingCall} (more : List GeocodingCall) (key : String)
    (response : GeocodeResponse K) (h : DemoHolds F search settings calls key response) :
    DemoHolds F search settings (calls ++ more) key response := by
  obtain ⟨middle, hmiddle, hdemo, hkey, origin, hin, hrest⟩ := h
  exact ⟨middle, List.mem_append_left _ hmiddle, hdemo, hkey, origin, List.mem_append_left _ hin,
    hrest⟩

theorem CachesHold.append {calls : List GeocodingCall} {s : GeocodingState K}
    (h : CachesHold F search settings calls s) (more : List GeocodingCall) :
    CachesHold F search settings (calls ++ more) s where
  service c hc := (h.service c hc).mono (ServiceHolds.append more)
  demo := h.demo.mono (DemoHolds.append more)

/-- A look-up through a cache gives what the cache is known to hold, or the answer, and what is
stored is known too. -/
theorem throughCache_cases {c : TTLCache (GeocodeResponse K)}
    {known : String → GeocodeResponse K → Prop} (h : c.Only known) {key : String}
    {answer : Except (GeocodeError E) (GeocodeResponse K)} (times : CacheTimes)
    (hanswer : ∀ response, answer = .ok response → known key response) :
    (throughCache c key times answer).2.Only known ∧
      ((throughCache c key times answer).1 = answer ∨
        ∃ response, (throughCache c key times answer).1 = .ok response ∧ known key response) := by
  obtain ⟨honly, hvalue⟩ := h.get key times.read
  unfold throughCache
  split
  · case _ cached cache hget =>
    rw [hget] at honly hvalue
    exact ⟨honly, Or.inr ⟨cached, rfl, hvalue cached rfl⟩⟩
  · case _ cache hget =>
    rw [hget] at honly
    cases answer with
    | error e => exact ⟨honly, Or.inl rfl⟩
    | ok response => exact ⟨honly.set (hanswer response rfl) times.write, Or.inl rfl⟩

/-- Asking the service for the text and limit of a call that gets past the checks. -/
theorem geocode_holds {calls : List GeocodingCall} {s : GeocodingState K} {call : GeocodingCall}
    (h : CachesHold F search settings calls s) (hcall : call ∈ calls)
    (hpassed : Answered F search settings call)
    (times : CacheTimes) :
    let r := geocode F search s call.text call.limit times
    CachesHold F search settings calls r.2 ∧ ∃ origin ∈ calls, SameSearch F call origin ∧
      Answered F search settings origin ∧ r.1 = uncached F search settings origin := by
  intro r
  have hself : ∃ origin ∈ calls, SameSearch F call origin ∧ Answered F search settings origin ∧
      searched F search call.text call.limit = uncached F search settings origin :=
    ⟨call, hcall, ⟨rfl, rfl⟩, hpassed, hpassed.symm⟩
  cases hservice : s.serviceCache with
  | none =>
    have hr : r = (searched F search call.text call.limit, s) := by
      simp only [r, geocode, hservice]
    rw [hr]
    exact ⟨h, hself⟩
  | some cache =>
    have hr : r =
        ((throughCache cache (serviceKey F call.text call.limit) times
          (searched F search call.text call.limit)).1,
        ⟨some (throughCache cache (serviceKey F call.text call.limit) times
          (searched F search call.text call.limit)).2, s.demoCache⟩) := by
      simp only [r, geocode, hservice]
    have hanswer : ∀ response, searched F search call.text call.limit = .ok response →
        ServiceHolds F search settings calls (serviceKey F call.text call.limit) response :=
      fun response hok => ⟨call, hcall, rfl, hpassed.trans hok⟩
    obtain ⟨honly, hreply⟩ := throughCache_cases (h.service cache hservice) times hanswer
    rw [hr]
    refine ⟨⟨?_, h.demo⟩, ?_⟩
    · rintro c hc
      rw [← Option.some.inj hc]
      exact honly
    · rcases hreply with heq | ⟨response, heq, origin, hin, hkey, hok⟩
      · rw [heq]
        exact hself
      · refine ⟨origin, hin, serviceKey_inj hkey.symm, answered_of_ok hok, ?_⟩
        rw [heq, hok]

/-- One call: its reply is the uncached answer to a call that the caches do not tell apart. -/
theorem step_holds {calls : List GeocodingCall} {s : GeocodingState K}
    (h : CachesHold F search settings calls s) (call : GeocodingCall) :
    CachesHold F search settings (calls ++ [call]) (s.step F search settings call).2 ∧
      ∃ origin, Linked F (calls ++ [call]) call origin ∧
        (s.step F search settings call).1 = uncached F search settings origin ∧
        (origin = call ∨ Answered F search settings call ∧ Answered F search settings origin) := by
  have hcall : call ∈ calls ++ [call] := List.mem_append_right _ (List.mem_singleton_self _)
  replace h := h.append [call]
  cases call with
  | geocode query limit times =>
    obtain ⟨hholds, origin, hin, hsame, hpassed, hreply⟩ := geocode_holds h hcall rfl times
    exact ⟨hholds, origin, ⟨hin, Or.inl hsame⟩, hreply, Or.inr ⟨rfl, hpassed⟩⟩
  | demo q limit times serviceTimes =>
    have hwithout := @uncached_demo _ _ F search settings q limit times serviceTimes
    simp only [GeocodingState.step, demoGeocode]
    cases hrefused : @demoRefusal K E F settings q limit with
    | some e =>
      rw [hrefused, Option.elim_some] at hwithout
      exact ⟨h, _, ⟨hcall, Or.inl ⟨rfl, rfl⟩⟩, hwithout.symm, Or.inl rfl⟩
    | none =>
      rw [hrefused, Option.elim_none] at hwithout
      obtain ⟨honly, hvalue⟩ := h.demo.get (demoKey F q limit) times.read
      dsimp only
      split
      · case _ cached cache hget =>
        rw [hget] at honly hvalue
        obtain ⟨middle, hmiddle, hdemo, hkey, origin, hin, hsame, hok⟩ := hvalue cached rfl
        refine ⟨⟨h.service, honly⟩, origin, ⟨hin, Or.inr ⟨middle, hmiddle, ?_, hsame⟩⟩, hok.symm,
          Or.inr ⟨hwithout, answered_of_ok hok⟩⟩
        exact demoKey_inj rfl hdemo hkey.symm
      · case _ cache hget =>
        rw [hget] at honly
        have hmissed : CachesHold F search settings (calls ++ [.demo q limit times serviceTimes])
            { s with demoCache := cache } := ⟨h.service, honly⟩
        obtain ⟨hholds, origin, hin, hsame, hpassed, hreply⟩ :=
          geocode_holds hmissed hcall hwithout serviceTimes
        simp only [GeocodingCall.text, GeocodingCall.limit] at hholds hreply
        split
        · case _ e s' hanswer =>
          rw [hanswer] at hholds hreply
          exact ⟨hholds, origin, ⟨hin, Or.inl hsame⟩, hreply, Or.inr ⟨hwithout, hpassed⟩⟩
        · case _ response s' hanswer =>
          rw [hanswer] at hholds hreply
          refine ⟨⟨hholds.service, hholds.demo.set ?_ times.write⟩, origin,
            ⟨hin, Or.inl hsame⟩, hreply, Or.inr ⟨hwithout, hpassed⟩⟩
          exact ⟨_, hcall, rfl, rfl, origin, hin, hsame, hreply.symm⟩

/-! ### Runs -/

/-- Empty caches, of any size and time to live. -/
def GeocodingState.init (service : Option (ℚ × ℕ)) (demo : ℚ × ℕ) : GeocodingState K where
  serviceCache := service.map fun c => ⟨c.1, c.2, []⟩
  demoCache := ⟨demo.1, demo.2, []⟩

theorem cachesHold_run (F : GeocodingFunctions K) (search : SearchProvider K E)
    (settings : DemoSettings) (service : Option (ℚ × ℕ)) (demo : ℚ × ℕ)
    (calls : List GeocodingCall) : CachesHold F search settings calls
      (Runs.final (GeocodingState.step F search settings) (.init service demo) calls) := by
  apply Runs.history_induction (GeocodingState.step F search settings)
    (P := fun calls s => CachesHold F search settings calls s)
  · constructor
    · intro c hc
      obtain ⟨size, -, rfl⟩ := Option.map_eq_some_iff.mp hc
      exact fun e he => absurd he List.not_mem_nil
    · exact fun e he => absurd he List.not_mem_nil
  · intro pre call h
    exact (step_holds h call).1

/-- The provider finds the same for texts that the keys of the caches do not tell apart. -/
structure Insensitive (F : GeocodingFunctions K) (search : SearchProvider K E) : Prop where
  casefold : ∀ query query' limit, F.casefold query = F.casefold query' →
    search query limit = search query' limit
  normalized : ∀ q q' limit, normalizeSearchText F.texts q = normalizeSearchText F.texts q' →
    search (joinedWords F.texts q) limit = search (joinedWords F.texts q') limit

theorem Insensitive.linked (h : Insensitive F search) {calls : List GeocodingCall}
    {call origin : GeocodingCall} (hlinked : Linked F calls call origin) :
    (searched F search call.text call.limit).map GeocodeResponse.results =
      (searched F search origin.text origin.limit).map GeocodeResponse.results := by
  have hsame : search (joinedWords F.texts call.text) call.limit =
      search (joinedWords F.texts origin.text) origin.limit := by
    obtain ⟨-, ⟨htext, hlimit⟩ | ⟨middle, -, ⟨-, -, hdemo, hdemoLimit⟩, htext, hlimit⟩⟩ := hlinked
    · rw [h.casefold _ _ _ htext, hlimit]
    · rw [h.normalized _ _ _ hdemo, h.casefold _ _ _ htext, hdemoLimit, hlimit]
  unfold searched
  rw [hsame]
  cases search (joinedWords F.texts origin.text) origin.limit with
  | error e => rfl
  | ok places => rfl

/-- Every response is the uncached answer to a call so far that the caches do not tell apart from
it: one with the same words up to case and the same limit, or, for the demo, one that a demo call
with the same normalized text and limit has led to. Where the provider does not tell such texts
apart either, its results are those without caches. -/
theorem responses_linked (F : GeocodingFunctions K) (search : SearchProvider K E)
    (settings : DemoSettings) (service : Option (ℚ × ℕ)) (demo : ℚ × ℕ)
    (pre : List GeocodingCall) (call : GeocodingCall) :
    let reply := ((Runs.final (GeocodingState.step F search settings)
      (.init service demo) pre).step F search settings call).1
    (∃ origin, Linked F (pre ++ [call]) call origin ∧
      reply = uncached F search settings origin) ∧
    (Insensitive F search → reply.map GeocodeResponse.results =
      (uncached F search settings call).map GeocodeResponse.results) := by
  obtain ⟨-, origin, hlinked, hreply, hpassed⟩ :=
    step_holds (cachesHold_run F search settings service demo pre) call
  refine ⟨⟨origin, hlinked, hreply⟩, fun hinsensitive => ?_⟩
  rw [hreply]
  rcases hpassed with rfl | ⟨hcall, horigin⟩
  · rfl
  · rw [hcall, horigin, hinsensitive.linked hlinked]

/-! ### Two spellings of one word -/

def lowerCase : GeocodingFunctions ℚ where
  texts := asciiTables
  casefold := String.toLower
  roundCoordinate := id

def sofiaPark : Place ℚ where
  id := "1"
  name := "Park"
  altName := none
  address := none
  type := "park"
  location := (23, 42)
  importance := 0

/-- A provider that finds two parks, or fewer if fewer are asked for. -/
def findsParks : SearchProvider ℚ Unit := fun _ limit =>
  .ok ([sofiaPark, { sofiaPark with id := "2", location := (24, 42) }].take limit.toNat)

/-- The second spelling is answered with the stored response of the first. -/
theorem responses_linked_parks :
    let reply := ((Runs.final (GeocodingState.step lowerCase findsParks {})
      (.init (some (60, 10)) (60, 10)) [.geocode "Park" 5 ⟨0, 0⟩]).step lowerCase findsParks {}
        (.geocode "park" 5 ⟨1, 1⟩)).1
    reply.map GeocodeResponse.results =
      .ok [⟨"1", "Park", none, 42, 23, "park"⟩, ⟨"2", "Park", none, 42, 24, "park"⟩] :=
  (responses_linked lowerCase findsParks {} (some (60, 10)) (60, 10)
    [.geocode "Park" 5 ⟨0, 0⟩] (.geocode "park" 5 ⟨1, 1⟩)).2
      ⟨fun _ _ _ _ => rfl, fun _ _ _ _ => rfl⟩

/-- The second caller gets the text of the first. -/
theorem cached_query_differs : ¬ ∀ (F : GeocodingFunctions ℚ) (search : SearchProvider ℚ Unit)
    (service demo : ℚ × ℕ) (pre : List GeocodingCall) (call : GeocodingCall),
    ((Runs.final (GeocodingState.step F search {}) (.init (some service) demo) pre).step F search {}
      call).1 = uncached F search {} call := by
  intro h
  have hreply := h lowerCase findsParks (60, 10) (60, 10) [.geocode "Park" 5 ⟨0, 0⟩]
    (.geocode "park" 5 ⟨1, 1⟩)
  have hquery := congrArg (fun r => (r.toOption).map GeocodeResponse.query) hreply
  revert hquery
  decide +kernel

end GeoPlatform.Api
