import GeoPlatform.Convex.Authorize
import GeoPlatform.Library.BoundedCounter
import GeoPlatform.Library.Recency

/-! What stops floods of bad credentials before they reach Convex: the `FailureLimiter` and the
`TerminalStatusCache` of `core/abuse.py`. `time.time()` is read in milliseconds. -/
namespace GeoPlatform.Api
open GeoPlatform.Convex BoundedCounter Recency

/-! ### Failed authentications -/

/-- The minute of the last failure of a client, and the failures in it. -/
structure FailureLimiter where
  limit : ℕ
  maxClients : ℕ := 50000
  windows : List (String × ℕ × ℕ) := []

def minuteOf (now : ℕ) : ℕ := now / 60000

/-- Seconds until the client may try again. -/
def FailureLimiter.blocked (l : FailureLimiter) (client : String) (now : ℕ) : Option ℕ :=
  let (window, count) := (OrderedMap.get? l.windows client).getD (0, 0)
  if window = minuteOf now ∧ l.limit ≤ count then some (60 - now % 60000 / 1000) else none

def FailureLimiter.recordFailure (l : FailureLimiter) (client : String) (now : ℕ) :
    FailureLimiter :=
  let current := minuteOf now
  let (window, count) := (OrderedMap.get? l.windows client).getD (current, 0)
  let windows := OrderedMap.erase l.windows client ++
    [(client, current, if window = current then count + 1 else 1)]
  { l with windows := windows.drop (windows.length - l.maxClients) }

variable {log : List (String × ℕ)} {client : String} {window : ℕ}

/-- Whoever failed after the last failure of a client failed in the same minute. -/
theorem since_subset_names (hsorted : log.Pairwise fun a b => a.2 ≤ b.2)
    (hlast : ∀ j ∈ log, j.2 ≤ window) (hmem : (client, window) ∈ log) :
    since (log.map Prod.fst) client ⊆ (names log window).erase client := by
  induction log using List.reverseRecOn with
  | nil => exact absurd hmem List.not_mem_nil
  | append_singleton pre j ih =>
    rw [List.map_append, List.map_singleton]
    by_cases hj : j.1 = client
    · rw [hj, since_touch_self]
      exact Finset.empty_subset _
    · obtain ⟨hpre, -, hcross⟩ := List.pairwise_append.mp hsorted
      have hin : (client, window) ∈ pre := by
        refine (List.mem_append.mp hmem).resolve_right fun h => hj ?_
        rw [← List.mem_singleton.mp h]
      have hwindow : j.2 = window :=
        le_antisymm (hlast j (by simp)) (hcross _ hin j (List.mem_singleton_self j))
      rw [since_touch hj, Finset.insert_subset_iff]
      constructor
      · rw [Finset.mem_erase]
        refine ⟨hj, ?_⟩
        rw [names, List.mem_toFinset]
        exact List.mem_map_of_mem (List.mem_filter.mpr ⟨by simp, by simpa using hwindow⟩)
      · refine (ih hpre (fun i hi => hlast i (List.mem_append_left _ hi)) hin).trans ?_
        exact Finset.erase_subset_erase _ (names_mono (List.sublist_append_left _ _) _)

/-- What the limiter knows of the failures so far, given as clients with their minutes. -/
structure FailureLimiter.Knows (l : FailureLimiter) (log : List (String × ℕ)) : Prop where
  sorted : log.Pairwise fun a b => a.2 ≤ b.2
  recent : Recent (log.map Prod.fst) (l.windows.map Prod.fst)
  sound : ∀ e ∈ l.windows, e.2.2 ≤ log.count (e.1, e.2.1)
  counts : ∀ client window, (∀ j ∈ log, j.2 ≤ window) → (names log window).card ≤ l.maxClients →
    (client, window) ∈ log →
      OrderedMap.get? l.windows client = some (window, log.count (client, window))

theorem FailureLimiter.knows_nil (limit maxClients : ℕ) :
    (FailureLimiter.mk limit maxClients []).Knows [] where
  sorted := List.Pairwise.nil
  recent := recent_nil
  sound := by simp
  counts := by simp

variable {l : FailureLimiter} {now : ℕ}

/-- The entry that a failure leaves, before the map is shrunk. -/
def FailureLimiter.entry (l : FailureLimiter) (client : String) (now : ℕ) : String × ℕ × ℕ :=
  let (window, count) := (OrderedMap.get? l.windows client).getD (minuteOf now, 0)
  (client, minuteOf now, if window = minuteOf now then count + 1 else 1)

theorem FailureLimiter.Knows.entry_le (h : l.Knows log) (client : String) (now : ℕ) :
    (l.entry client now).2.2 ≤ log.count (client, minuteOf now) + 1 := by
  unfold FailureLimiter.entry
  cases hget : OrderedMap.get? l.windows client with
  | none => simp
  | some e =>
    obtain ⟨window, count⟩ := e
    have hsound := h.sound _ (OrderedMap.get?_eq_some hget)
    simp only [Option.getD_some] at hsound ⊢
    split_ifs with hw
    · subst hw
      omega
    · omega

theorem FailureLimiter.Knows.entry_exact (h : l.Knows log) (client : String) (now : ℕ)
    (hlate : ∀ j ∈ log, j.2 ≤ minuteOf now)
    (hfew : (names log (minuteOf now)).card ≤ l.maxClients) :
    l.entry client now = (client, minuteOf now, log.count (client, minuteOf now) + 1) := by
  have hle := h.entry_le client now
  unfold FailureLimiter.entry at hle ⊢
  by_cases hin : (client, minuteOf now) ∈ log
  · rw [h.counts client _ hlate hfew hin]
    simp
  · rw [List.count_eq_zero_of_not_mem hin] at hle ⊢
    refine Prod.ext rfl (Prod.ext rfl (le_antisymm hle ?_))
    simp only
    split_ifs <;> omega

theorem FailureLimiter.Knows.recordFailure (h : l.Knows log) (client : String) {now : ℕ}
    (hlate : ∀ j ∈ log, j.2 ≤ minuteOf now) :
    (l.recordFailure client now).Knows (log ++ [(client, minuteOf now)]) := by
  have hsorted : (log ++ [(client, minuteOf now)]).Pairwise fun a b => a.2 ≤ b.2 := by
    rw [List.pairwise_append]
    exact ⟨h.sorted, List.pairwise_singleton _ _, fun a ha b hb => by
      rw [List.mem_singleton.mp hb]; exact hlate a ha⟩
  have hrecent : Recent ((log ++ [(client, minuteOf now)]).map Prod.fst)
      ((OrderedMap.erase l.windows client ++ [l.entry client now]).map Prod.fst) := by
    rw [List.map_append, List.map_append, OrderedMap.keys_erase]
    exact h.recent.touch client
  refine ⟨hsorted, hrecent.sublist ((List.drop_sublist _ _).map _), ?_, ?_⟩
  · intro e he
    rcases List.mem_append.mp ((List.drop_sublist _ _).subset he) with he | he
    · refine (h.sound e ((OrderedMap.erase_sublist _ _).subset he)).trans ?_
      rw [List.count_append]
      exact Nat.le_add_right _ _
    · have hcount : (log ++ [(client, minuteOf now)]).count (client, minuteOf now) =
          log.count (client, minuteOf now) + 1 := by simp
      rw [List.mem_singleton.mp he]
      exact (h.entry_le client now).trans hcount.ge
  · intro c w hlast hfew hmem
    have hw : w = minuteOf now := by
      have hle := hlast _ (List.mem_append_right log (List.mem_singleton_self _))
      rcases List.mem_append.mp hmem with hin | hin
      · exact le_antisymm (hlate _ hin) hle
      · exact congrArg Prod.snd (List.mem_singleton.mp hin)
    subst hw
    have hfewer : (names log (minuteOf now)).card ≤ l.maxClients :=
      (Finset.card_le_card (names_mono (List.sublist_append_left _ _) _)).trans hfew
    have hyoung : (since ((log ++ [(client, minuteOf now)]).map Prod.fst) c).card <
        l.maxClients := by
      have hname : c ∈ names (log ++ [(client, minuteOf now)]) (minuteOf now) := by
        rw [names, List.mem_toFinset]
        exact List.mem_map_of_mem (List.mem_filter.mpr ⟨hmem, by simp⟩)
      have hcard := Finset.card_le_card (since_subset_names hsorted hlast hmem)
      rw [Finset.card_erase_of_mem hname] at hcard
      have hpos := Finset.card_pos.mpr ⟨c, hname⟩
      have hmax : (names (log ++ [(client, minuteOf now)]) (minuteOf now)).card ≤
        l.maxClients := hfew
      omega
    refine hrecent.get?_drop ?_ hyoung
    rw [List.count_append]
    by_cases hc : c = client
    · subst hc
      rw [h.entry_exact c now hlate hfewer]
      simp
    · have hin : (c, minuteOf now) ∈ log := by
        refine (List.mem_append.mp hmem).resolve_right fun hnew => hc ?_
        exact congrArg Prod.fst (List.mem_singleton.mp hnew)
      have hold := OrderedMap.get?_eq_some (h.counts c _ hlate hfewer hin)
      refine List.mem_append_left _ (OrderedMap.mem_erase.mpr ⟨?_, hc⟩)
      simpa [Ne.symm hc] using hold

theorem FailureLimiter.blocked_value {retryAfter : ℕ}
    (h : l.blocked client now = some retryAfter) : retryAfter = 60 - now % 60000 / 1000 := by
  simp only [FailureLimiter.blocked] at h
  split_ifs at h
  exact (Option.some.inj h).symm

/-- A blocked client has reached the limit in this minute. -/
theorem FailureLimiter.Knows.failures_of_blocked (h : l.Knows log) {retryAfter : ℕ}
    (hlimit : 0 < l.limit) (hblocked : l.blocked client now = some retryAfter) :
    l.limit ≤ log.count (client, minuteOf now) := by
  unfold FailureLimiter.blocked at hblocked
  cases hget : OrderedMap.get? l.windows client with
  | none =>
    rw [hget] at hblocked
    simp only [Option.getD_none] at hblocked
    split_ifs at hblocked with hcond
    omega
  | some e =>
    rw [hget] at hblocked
    simp only [Option.getD_some] at hblocked
    split_ifs at hblocked with hcond
    have hsound := h.sound _ (OrderedMap.get?_eq_some hget)
    rw [← hcond.1]
    exact hcond.2.trans hsound

/-- As long as not too many clients fail in a minute, a client is blocked exactly when it has
reached the limit. -/
theorem FailureLimiter.Knows.blocked_iff (h : l.Knows log) (hlimit : 0 < l.limit)
    (hlast : ∀ j ∈ log, j.2 ≤ minuteOf now)
    (hfew : (names log (minuteOf now)).card ≤ l.maxClients) :
    (l.blocked client now).isSome ↔ l.limit ≤ log.count (client, minuteOf now) := by
  constructor
  · intro hsome
    obtain ⟨retryAfter, hblocked⟩ := Option.isSome_iff_exists.mp hsome
    exact h.failures_of_blocked hlimit hblocked
  · intro hreached
    have hin : (client, minuteOf now) ∈ log := List.count_pos_iff.mp (by omega)
    rw [FailureLimiter.blocked, h.counts client _ hlast hfew hin]
    simp [hreached]

/-! ### Known bad credentials -/

/-- The hashes of refused credentials, with the times their refusals are forgotten. -/
structure TerminalStatusCache where
  ttl : ℚ
  maxEntries : ℕ := 50000
  entries : List (String × ℚ × AuthorizeStatus) := []

def TerminalStatusCache.get (c : TerminalStatusCache) (hash : String) (monotonic : ℚ) :
    Option AuthorizeStatus × TerminalStatusCache :=
  match OrderedMap.get? c.entries hash with
  | none => (none, c)
  | some (expires, status) =>
      if expires < monotonic then (none, { c with entries := OrderedMap.erase c.entries hash })
      else (some status, c)

def TerminalStatusCache.put (c : TerminalStatusCache) (hash : String) (status : AuthorizeStatus)
    (monotonic : ℚ) : TerminalStatusCache :=
  if c.ttl ≤ 0 then c
  else
    let entries := OrderedMap.erase c.entries hash ++ [(hash, monotonic + c.ttl, status)]
    { c with entries := entries.drop (entries.length - c.maxEntries) }

/-- The refusals put into a cache so far: the hash, the time and the status of each. -/
abbrev Puts := List (String × ℚ × AuthorizeStatus)

def Puts.last? (puts : Puts) (hash : String) : Option (ℚ × AuthorizeStatus) :=
  OrderedMap.get? puts.reverse hash

@[simp] theorem Puts.last?_append (puts : Puts) (hash : String) (p : String × ℚ × AuthorizeStatus) :
    Puts.last? (puts ++ [p]) hash = if p.1 = hash then some p.2 else Puts.last? puts hash := by
  by_cases hp : p.1 = hash <;> simp [Puts.last?, OrderedMap.get?, hp]

/-- What the cache knows of the refusals, up to a reading of the clock. -/
structure TerminalStatusCache.Knows (c : TerminalStatusCache) (puts : Puts) (clock : ℚ) :
    Prop where
  recent : Recent (puts.map Prod.fst) (c.entries.map Prod.fst)
  sound : ∀ e ∈ c.entries, ∃ t, Puts.last? puts e.1 = some (t, e.2.2) ∧ e.2.1 = t + c.ttl
  complete : ∀ hash t status, Puts.last? puts hash = some (t, status) → clock ≤ t + c.ttl →
    (since (puts.map Prod.fst) hash).card < c.maxEntries → (hash, t + c.ttl, status) ∈ c.entries

theorem TerminalStatusCache.knows_nil (ttl : ℚ) (maxEntries : ℕ) (clock : ℚ) :
    (TerminalStatusCache.mk ttl maxEntries []).Knows [] clock where
  recent := recent_nil
  sound := by simp
  complete := by simp [Puts.last?, OrderedMap.get?]

variable {c : TerminalStatusCache} {puts : Puts} {clock monotonic : ℚ} {hash : String}
variable {status : AuthorizeStatus}

/-- A status that is remembered was put within the lifetime, and nothing was put since. -/
theorem TerminalStatusCache.Knows.get_some (h : c.Knows puts clock)
    (hget : (c.get hash monotonic).1 = some status) :
    ∃ t, Puts.last? puts hash = some (t, status) ∧ monotonic ≤ t + c.ttl := by
  unfold TerminalStatusCache.get at hget
  cases hfound : OrderedMap.get? c.entries hash with
  | none => simp [hfound] at hget
  | some e =>
    obtain ⟨expires, found⟩ := e
    obtain ⟨t, hlast, hexpires⟩ := h.sound _ (OrderedMap.get?_eq_some hfound)
    simp only [hfound] at hget
    split_ifs at hget with hover
    refine ⟨t, ?_, ?_⟩
    · rw [← Option.some.inj hget]
      exact hlast
    · rw [← hexpires]
      exact not_lt.mp hover

/-- A refusal is remembered for its lifetime, unless too many others were put since. -/
theorem TerminalStatusCache.Knows.get_eq (h : c.Knows puts clock) (hclock : clock ≤ monotonic)
    {t : ℚ} (hlast : Puts.last? puts hash = some (t, status)) (hlive : monotonic ≤ t + c.ttl)
    (hfew : (since (puts.map Prod.fst) hash).card < c.maxEntries) :
    (c.get hash monotonic).1 = some status := by
  have hmem := h.complete hash t status hlast (hclock.trans hlive) hfew
  rw [TerminalStatusCache.get, OrderedMap.get?_of_mem h.recent.nodup hmem]
  simp only [if_neg (not_lt.mpr hlive)]

theorem TerminalStatusCache.Knows.later (h : c.Knows puts clock) (hclock : clock ≤ monotonic) :
    c.Knows puts monotonic :=
  ⟨h.recent, h.sound, fun k t s hlast hlive => h.complete k t s hlast (hclock.trans hlive)⟩

theorem TerminalStatusCache.Knows.get (h : c.Knows puts clock) (hclock : clock ≤ monotonic)
    (hash : String) : (c.get hash monotonic).2.Knows puts monotonic := by
  have hlater := h.later hclock
  unfold TerminalStatusCache.get
  cases hfound : OrderedMap.get? c.entries hash with
  | none => exact hlater
  | some e =>
    obtain ⟨expires, found⟩ := e
    simp only
    split_ifs with hover
    · have hsub := OrderedMap.erase_sublist c.entries hash
      refine ⟨h.recent.sublist (hsub.map _), fun e he => h.sound e (hsub.subset he),
        fun k t s hlast hlive hfew => OrderedMap.mem_erase.mpr
          ⟨hlater.complete k t s hlast hlive hfew, ?_⟩⟩
      -- The erased entry is over, so it is not the one asked for.
      rintro (rfl : k = hash)
      have hmem := hlater.complete k t s hlast hlive hfew
      rw [OrderedMap.get?_of_mem h.recent.nodup hmem] at hfound
      obtain ⟨hexpires, -⟩ := Prod.mk.inj (Option.some.inj hfound)
      rw [← hexpires] at hover
      exact absurd hlive (not_le.mpr hover)
    · exact hlater

theorem TerminalStatusCache.Knows.put (h : c.Knows puts clock) (hclock : clock ≤ monotonic)
    (hpos : 0 < c.ttl) (hash : String) (status : AuthorizeStatus) :
    (c.put hash status monotonic).Knows (puts ++ [(hash, monotonic, status)]) monotonic := by
  have hrecent : Recent ((puts ++ [(hash, monotonic, status)]).map Prod.fst)
      ((OrderedMap.erase c.entries hash ++ [(hash, monotonic + c.ttl, status)]).map Prod.fst) := by
    rw [List.map_append, List.map_append, OrderedMap.keys_erase]
    exact h.recent.touch hash
  unfold TerminalStatusCache.put
  rw [if_neg (not_le.mpr hpos)]
  have hsub := List.drop_sublist
    ((OrderedMap.erase c.entries hash ++ [(hash, monotonic + c.ttl, status)]).length -
      c.maxEntries) (OrderedMap.erase c.entries hash ++ [(hash, monotonic + c.ttl, status)])
  refine ⟨hrecent.sublist (hsub.map _), fun e he => ?_, fun k t s hlast hlive hfew => ?_⟩
  · rw [Puts.last?_append]
    rcases List.mem_append.mp (hsub.subset he) with he | he
    · obtain ⟨hin, hne⟩ := OrderedMap.mem_erase.mp he
      rw [if_neg (Ne.symm hne)]
      exact h.sound e hin
    · rw [List.mem_singleton.mp he, if_pos rfl]
      exact ⟨monotonic, rfl, rfl⟩
  · refine OrderedMap.get?_eq_some (hrecent.get?_drop ?_ hfew)
    rw [Puts.last?_append] at hlast
    split_ifs at hlast with hk
    · obtain ⟨rfl, rfl⟩ := Prod.mk.inj (Option.some.inj hlast)
      rw [← hk]
      exact List.mem_append_right _ (List.mem_singleton_self _)
    · have hfewer : (since (puts.map Prod.fst) k).card < c.maxEntries := by
        refine lt_of_le_of_lt (Finset.card_le_card ?_) hfew
        rw [List.map_append]
        exact since_subset_touch hk
      refine List.mem_append_left _ (OrderedMap.mem_erase.mpr ⟨?_, Ne.symm hk⟩)
      exact h.complete k t s hlast (hclock.trans hlive) hfewer

end GeoPlatform.Api
