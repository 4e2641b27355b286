import GeoPlatform.Convex.JsNumbers
import GeoPlatform.Library.HitWindows
import GeoPlatform.Library.Run

/-! The throttle of `POST /api/auth` at the website (`proxy.ts`), and whom it takes a visitor for
(`lib/http.ts`). -/
namespace GeoPlatform.Web
open GeoPlatform.Convex HitWindows

/-! ### Requests -/

structure EdgeEnv where
  CLIENT_IP_HEADER : Option String := none
  TRUSTED_PROXY_HOPS : EnvNumber := .unset
  /-- `AUTH_MAX_REQUESTS`; no count exceeds `NaN` or `Infinity`, which are `none`. -/
  authMaxRequests : Option ℚ := some 60

/-- `headers` is `request.headers.get` with a name in lower case, and `body` is `none` when it is
no JSON. -/
structure WebRequest where
  method : String
  pathname : String
  protocol : String
  headers : String → Option String
  body : Option Json

/-- `value.split(",").map((part) => part.trim())`. -/
def splitParts (value : String) : List (List Char) := (value.toList.splitOn ',').map jsTrim

def firstPart (value : String) : String := String.ofList ((splitParts value).headD [])

/-! ### The visitor -/

def IP_PATTERN (cs : List Char) : Bool :=
  2 ≤ cs.length && cs.length ≤ 45 && cs.all fun c =>
    c.isDigit || ('a' ≤ c && c ≤ 'f') || ('A' ≤ c && c ≤ 'F') || c = ':' || c = '.'

def validIp (value : Option (List Char)) : Option String :=
  (value.map jsTrim).bind fun candidate =>
    if candidate ≠ [] ∧ IP_PATTERN candidate then some (String.ofList candidate) else none

/-- `CLIENT_IP_HEADER`, when it is set. -/
def EdgeEnv.trustedHeader (env : EdgeEnv) : Option String :=
  (env.CLIENT_IP_HEADER.map trimmedLower).filter (· ≠ "")

/-- `TRUSTED_PROXY_HOPS`, when it is a whole number from one on. -/
def EdgeEnv.hops (env : EdgeEnv) : Option ℕ :=
  match env.TRUSTED_PROXY_HOPS with
  | .finite q => if q.den = 1 ∧ 1 ≤ q then some q.num.toNat else none
  | _ => none

/-- The entries of `X-Forwarded-For`. -/
def forwardedFor (header : Option String) : List (List Char) :=
  (splitParts (header.getD "")).filter (· ≠ [])

def clientIp (env : EdgeEnv) (r : WebRequest) : Option String :=
  match env.trustedHeader with
  | some name => validIp ((r.headers name).map String.toList)
  | none =>
      match env.hops with
      | none => none
      | some hops =>
          let entries := forwardedFor (r.headers "x-forwarded-for")
          if hops ≤ entries.length then validIp entries[entries.length - hops]? else none

/-! ### The action -/

/-- `origin` is `new URL(…).origin`, where that is a URL. -/
def isSameOrigin (origin : String → Option String) (r : WebRequest) : Bool :=
  let fetchSite := r.headers "sec-fetch-site"
  if fetchSite.any (· ≠ "same-origin") then false
  else match r.headers "origin" with
    | none => fetchSite = some "same-origin"
    | some sent =>
        let host := (((r.headers "x-forwarded-host").or (r.headers "host")).map firstPart).getD ""
        let protocol := ((r.headers "x-forwarded-proto").map firstPart).getD r.protocol
        if host = "" ∨ (protocol ≠ "http" ∧ protocol ≠ "https") then false
        else match origin sent, origin (protocol ++ "://" ++ host) with
          | some a, some b => a = b
          | _, _ => false

def isAuthPayload : Option Json → Bool
  | some body =>
      match body.get? "action", body.get? "args" with
      | some (.string _), some (.object _) => true
      | _, _ => false
  | none => false

/-- `pathname.replace(/\/$/, "")`. -/
def withoutSlash (pathname : String) : String :=
  if pathname.toList.getLast? = some '/' then String.ofList pathname.toList.dropLast else pathname

def isAuthAction (r : WebRequest) : Bool :=
  r.method = "POST" && withoutSlash r.pathname = "/api/auth"

/-! ### The throttle -/

def AUTH_WINDOW_MS : ℕ := 10 * 60 * 1000

/-- `authAttempts`. -/
abbrev Attempts := List (String × Window)

/-- Only a large map is cleaned. -/
def cleaned (now : ℕ) (attempts : Attempts) : Attempts :=
  attempts.filter fun e => attempts.length ≤ 10000 || !decide (e.2.Over AUTH_WINDOW_MS now)

/-- Not the first of its window, and more than allowed. -/
def EdgeEnv.limits (env : EdgeEnv) (w : Window) : Bool :=
  1 < w.count && env.authMaxRequests.any fun limit => limit < (w.count : ℚ)

def authRateLimited (env : EdgeEnv) (now : ℕ) (r : WebRequest) (attempts : Attempts) :
    Bool × Attempts :=
  match clientIp env r with
  | none => (false, attempts)
  | some visitor =>
      let attempts := cleaned now attempts
      let w := hit AUTH_WINDOW_MS now (OrderedMap.get? attempts visitor)
      (env.limits w, OrderedMap.set attempts visitor w)

inductive ProxyReply where
  | forbidden
  | invalidRequest
  | tooManyFailedAttempts
  | next
  deriving DecidableEq, Repr

def proxy (origin : String → Option String) (env : EdgeEnv) (now : ℕ) (r : WebRequest)
    (attempts : Attempts) : ProxyReply × Attempts :=
  if !isAuthAction r then (.next, attempts)
  else if !isSameOrigin origin r then (.forbidden, attempts)
  else if !isAuthPayload r.body then (.invalidRequest, attempts)
  else
    let (limited, attempts) := authRateLimited env now r attempts
    (if limited then .tooManyFailedAttempts else .next, attempts)

/-! ### The way to the website -/

/-- A proxy of the deployment, and the address that it saw. -/
structure Hop where
  address : String
  blank : List Char := [' ']
  address_valid : IP_PATTERN address.toList = true
  blank_valid : ∀ c ∈ blank, isSpace c = true

/-- The proxy appends the address to the header. -/
def Hop.append (header : Option String) (hop : Hop) : Option String :=
  match header with
  | none => some hop.address
  | some value => some (value ++ String.ofList (',' :: hop.blank) ++ hop.address)

/-- A request as its sender made it, the proxies that passed it on, and when it arrived. -/
structure Visit where
  now : ℕ
  request : WebRequest
  hops : List Hop

/-- The address of the sender, as the first proxy saw it. -/
def Visit.address (v : Visit) : Option String := v.hops.head?.map Hop.address

/-- `X-Forwarded-For` as it arrives. -/
def Visit.forwarded (v : Visit) : Option String :=
  v.hops.foldl Hop.append (v.request.headers "x-forwarded-for")

/-- The request that arrives: the proxies overwrite the trusted header, or append to the list. -/
def Visit.delivered (env : EdgeEnv) (v : Visit) : WebRequest :=
  match env.trustedHeader with
  | some name => { v.request with headers := Function.update v.request.headers name v.address }
  | none =>
      let headers := Function.update v.request.headers "x-forwarded-for" v.forwarded
      { v.request with headers }

/-- The settings describe the proxies. -/
def EdgeEnv.Describes (env : EdgeEnv) (v : Visit) : Prop :=
  v.hops ≠ [] ∧ (env.trustedHeader = none → env.hops = some v.hops.length)

theorem ipChar_range {c : Char} (h : (c.isDigit || ('a' ≤ c && c ≤ 'f') || ('A' ≤ c && c ≤ 'F') ||
    c = ':' || c = '.') = true) : 46 ≤ c.toNat ∧ c.toNat ≤ 102 := by
  simp only [Bool.or_eq_true, Bool.and_eq_true, decide_eq_true_eq, Char.isDigit, Char.le_def,
    UInt32.le_iff_toNat_le, ge_iff_le] at h
  have hc : c.toNat = c.val.toNat := rfl
  rcases h with (((h | h) | h) | rfl) | rfl
  · have h₁ : 48 ≤ c.val.toNat := h.1
    have h₂ : c.val.toNat ≤ 57 := h.2
    omega
  · have h₁ : 97 ≤ c.val.toNat := h.1
    have h₂ : c.val.toNat ≤ 102 := h.2
    omega
  · have h₁ : 65 ≤ c.val.toNat := h.1
    have h₂ : c.val.toNat ≤ 70 := h.2
    omega
  · decide
  · decide

theorem isSpace_range {c : Char} (h : 46 ≤ c.toNat ∧ c.toNat ≤ 102) : isSpace c = false := by
  simp only [isSpace, Bool.or_eq_false_iff, Bool.and_eq_false_iff, decide_eq_false_iff_not]
  omega

/-- An address has neither commas nor white space. -/
theorem ipPattern_plain {cs : List Char} (h : IP_PATTERN cs = true) :
    cs ≠ [] ∧ ∀ c ∈ cs, c ≠ ',' ∧ isSpace c = false := by
  simp only [IP_PATTERN, Bool.and_eq_true, decide_eq_true_eq, List.all_eq_true] at h
  obtain ⟨⟨hlength, -⟩, hall⟩ := h
  refine ⟨fun hnil => ?_, fun c hc => ?_⟩
  · rw [hnil] at hlength
    cases hlength
  · have hrange := ipChar_range (hall c hc)
    refine ⟨fun heq => ?_, isSpace_range hrange⟩
    rw [heq] at hrange
    exact absurd hrange.1 (by decide)

theorem validIp_address (hop : Hop) : validIp (some hop.address.toList) = some hop.address := by
  obtain ⟨hne, hplain⟩ := ipPattern_plain hop.address_valid
  simp only [validIp, Option.map_some, Option.bind_some, jsTrim_eq fun c hc => (hplain c hc).2]
  rw [if_pos ⟨hne, hop.address_valid⟩, String.ofList_toList]

theorem forwardedFor_append (header : Option String) (hop : Hop) :
    forwardedFor (Hop.append header hop) = forwardedFor header ++ [hop.address.toList] := by
  obtain ⟨hne, hplain⟩ := ipPattern_plain hop.address_valid
  have hlast : ∀ blank : List Char, (∀ c ∈ blank, isSpace c = true) →
      ((blank ++ hop.address.toList).splitOn ',').map jsTrim = [hop.address.toList] := by
    intro blank hblank
    have hcomma : ',' ∉ blank ++ hop.address.toList := by
      intro hmem
      rcases List.mem_append.mp hmem with hmem | hmem
      · exact absurd (hblank _ hmem) (by decide)
      · exact (hplain _ hmem).1 rfl
    rw [List.splitOn_eq_singleton hcomma, List.map_singleton,
      jsTrim_blank hblank fun c hc => (hplain c hc).2]
  cases header with
  | none =>
    have hnone := hlast [] fun c hc => absurd hc List.not_mem_nil
    have hempty : forwardedFor none = [] := by decide
    rw [hempty, forwardedFor, splitParts]
    simp only [Hop.append, Option.getD_some]
    rw [List.nil_append] at hnone
    rw [hnone]
    simp [hne]
  | some value =>
    simp only [Hop.append, forwardedFor, splitParts, Option.getD_some, String.toList_append,
      String.toList_ofList, List.append_assoc, List.cons_append]
    rw [List.splitOn_append_cons_self, List.map_append, hlast hop.blank hop.blank_valid,
      List.filter_append]
    simp [hne]

theorem forwardedFor_foldl (header : Option String) (hops : List Hop) :
    forwardedFor (hops.foldl Hop.append header) =
      forwardedFor header ++ hops.map fun hop => hop.address.toList := by
  induction hops generalizing header with
  | nil => simp
  | cons hop hops ih => simp [ih, forwardedFor_append]

/-- Whatever the sender writes into its headers, it is taken for the address it comes from. -/
theorem clientIp_delivered {env : EdgeEnv} {v : Visit} (h : env.Describes v) :
    clientIp env (v.delivered env) = v.address := by
  obtain ⟨hne, hhops⟩ := h
  obtain ⟨hop, hops, hv⟩ := List.exists_cons_of_ne_nil hne
  have haddress : v.address = some hop.address := by rw [Visit.address, hv]; rfl
  cases htrusted : env.trustedHeader with
  | some name =>
    simp only [clientIp, Visit.delivered, htrusted, Function.update_self, haddress]
    exact validIp_address hop
  | none =>
    have hentries : forwardedFor v.forwarded =
        forwardedFor (v.request.headers "x-forwarded-for") ++
          v.hops.map fun hop => hop.address.toList := forwardedFor_foldl _ _
    simp only [clientIp, Visit.delivered, htrusted, hhops htrusted, Function.update_self, hentries,
      List.length_append, List.length_map, Nat.le_add_left, if_true, Nat.add_sub_cancel]
    rw [List.getElem?_append_right (Nat.le_refl _), Nat.sub_self, hv, haddress]
    exact validIp_address hop

/-! ### Runs -/

section Runs
variable (origin : String → Option String) (env : EdgeEnv)

/-- The website takes the requests as they arrive. -/
def proxyStep (attempts : Attempts) (v : Visit) : ProxyReply × Attempts :=
  proxy origin env v.now (v.delivered env) attempts

/-- The visitor in whose window a request is counted. -/
def Visit.counted (v : Visit) : Option String :=
  if isAuthAction (v.delivered env) && isSameOrigin origin (v.delivered env) &&
      isAuthPayload (v.delivered env).body then
    clientIp env (v.delivered env)
  else none

def Steady (visits : List Visit) : Prop := (visits.map Visit.now).Pairwise (· ≤ ·)

instance (visits : List Visit) : Decidable (Steady visits) :=
  inferInstanceAs (Decidable (List.Pairwise _ _))

variable {origin env}

/-- A request that is not counted is answered without the map. -/
theorem proxyStep_uncounted {v : Visit} (h : v.counted origin env = none) :
    ∃ reply, reply ≠ .tooManyFailedAttempts ∧
      ∀ attempts, proxyStep origin env attempts v = (reply, attempts) := by
  simp only [Visit.counted] at h
  simp only [proxyStep, proxy, authRateLimited]
  by_cases haction : isAuthAction (v.delivered env) = true
  · by_cases hsame : isSameOrigin origin (v.delivered env) = true
    · by_cases hpayload : isAuthPayload (v.delivered env).body = true
      · have hip : clientIp env (v.delivered env) = none := by
          simpa [haction, hsame, hpayload] using h
        refine ⟨.next, ProxyReply.noConfusion, fun attempts => ?_⟩
        simp only [haction, hsame, hpayload, hip]
        rfl
      · refine ⟨.invalidRequest, ProxyReply.noConfusion, fun attempts => ?_⟩
        simp only [haction, hsame, hpayload]
        rfl
    · refine ⟨.forbidden, ProxyReply.noConfusion, fun attempts => ?_⟩
      simp only [haction, hsame]
      rfl
  · refine ⟨.next, ProxyReply.noConfusion, fun attempts => ?_⟩
    simp only [haction]
    rfl

theorem proxyStep_counted {attempts : Attempts} {v : Visit} {visitor : String}
    (h : v.counted origin env = some visitor) :
    proxyStep origin env attempts v =
      (let w := hit AUTH_WINDOW_MS v.now (OrderedMap.get? (cleaned v.now attempts) visitor)
       (if env.limits w then .tooManyFailedAttempts else .next,
        OrderedMap.set (cleaned v.now attempts) visitor w)) := by
  simp only [Visit.counted] at h
  split_ifs at h with hall
  simp only [Bool.and_eq_true] at hall
  simp only [proxyStep, proxy, authRateLimited, hall.1.1, hall.1.2, hall.2, h, Bool.not_true,
    Bool.false_eq_true, if_false]

theorem keeps_cleaned {now : ℕ} {attempts : Attempts} {f : String → Option Window}
    (h : Keeps AUTH_WINDOW_MS now attempts f) (hkeys : (attempts.map Prod.fst).Nodup) :
    Keeps AUTH_WINDOW_MS now (cleaned now attempts) f := by
  refine h.prune (fun e _ hkeep => ?_) hkeys
  simp only [Bool.or_eq_false_iff, Bool.not_eq_false', decide_eq_true_eq] at hkeep
  exact hkeep.2

/-- The windows after a request. -/
def Visit.advance (origin : String → Option String) (env : EdgeEnv) (f : String → Option Window)
    (v : Visit) : String → Option Window :=
  match v.counted origin env with
  | none => f
  | some visitor => Function.update f visitor (some (hit AUTH_WINDOW_MS v.now (f visitor)))

/-- A request moves the window of its own visitor only. -/
theorem advance_apply (f : String → Option Window) (v : Visit) (visitor : String) :
    v.advance origin env f visitor =
      if v.counted origin env = some visitor then some (hit AUTH_WINDOW_MS v.now (f visitor))
      else f visitor := by
  rw [Visit.advance]
  cases hcounted : v.counted origin env with
  | none => rfl
  | some other =>
    simp only [Option.some.injEq]
    by_cases hother : other = visitor
    · subst hother
      rw [Function.update_self, if_pos rfl]
    · rw [Function.update_of_ne (Ne.symm hother), if_neg hother]

/-- The map holds the window of every visitor, save those that are over. -/
structure Holds (now : ℕ) (attempts : Attempts) (f : String → Option Window) : Prop where
  keys : (attempts.map Prod.fst).Nodup
  keeps : Keeps AUTH_WINDOW_MS now attempts f

theorem Holds.later {now later : ℕ} {attempts : Attempts} {f : String → Option Window}
    (h : Holds now attempts f) (hle : now ≤ later) : Holds later attempts f :=
  ⟨h.keys, h.keeps.later hle⟩

theorem Holds.step {attempts : Attempts} {f : String → Option Window} {v : Visit}
    (h : Holds v.now attempts f) :
    Holds v.now (Runs.next (proxyStep origin env) attempts v) (v.advance origin env f) := by
  rw [Runs.next, Visit.advance]
  cases hcounted : v.counted origin env with
  | none =>
    obtain ⟨reply, -, hreply⟩ := proxyStep_uncounted hcounted
    rw [hreply]
    exact h
  | some visitor =>
    have hcleaned := keeps_cleaned h.keeps h.keys
    rw [proxyStep_counted hcounted, hcleaned.hit_eq]
    exact ⟨OrderedMap.nodup_set (h.keys.sublist (List.filter_sublist.map _)) _ _,
      hcleaned.set visitor _⟩

/-- The verdict on a request is read off the window of its own visitor. -/
theorem Holds.verdict {attempts : Attempts} {f : String → Option Window} {v : Visit}
    {visitor : String} (h : Holds v.now attempts f)
    (hcounted : v.counted origin env = some visitor) :
    (proxyStep origin env attempts v).1 =
      if env.limits (hit AUTH_WINDOW_MS v.now (f visitor)) then .tooManyFailedAttempts
      else .next := by
  rw [proxyStep_counted hcounted, (keeps_cleaned h.keeps h.keys).hit_eq]

theorem steady_cons {v : Visit} {visits : List Visit} :
    Steady (v :: visits) ↔ (∀ u ∈ visits, v.now ≤ u.now) ∧ Steady visits := by
  simp only [Steady, List.map_cons, List.pairwise_cons, List.forall_mem_map]

theorem holds_run {attempts : Attempts} {f : String → Option Window} {now : ℕ}
    (h : Holds now attempts f) {visits : List Visit} {last : ℕ} (hsteady : Steady visits)
    (hfirst : ∀ v ∈ visits, now ≤ v.now) (hlast : ∀ v ∈ visits, v.now ≤ last) (hle : now ≤ last) :
    Holds last (Runs.final (proxyStep origin env) attempts visits)
      (visits.foldl (Visit.advance origin env) f) := by
  induction visits generalizing attempts f now with
  | nil => exact h.later hle
  | cons v visits ih =>
    obtain ⟨hnext, hsteady⟩ := steady_cons.mp hsteady
    exact ih (h.later (hfirst v List.mem_cons_self)).step hsteady hnext
      (fun u hu => hlast u (List.mem_cons_of_mem v hu)) (hlast v List.mem_cons_self)

/-- A window depends on the requests of its visitor only. -/
theorem advance_filter {visits : List Visit} {visitor : String} {f g : String → Option Window}
    (hfg : f visitor = g visitor) :
    visits.foldl (Visit.advance origin env) f visitor =
      (visits.filter fun u => u.counted origin env = some visitor).foldl
        (Visit.advance origin env) g visitor := by
  induction visits generalizing f g with
  | nil => exact hfg
  | cons v visits ih =>
    rw [List.foldl_cons]
    by_cases hv : v.counted origin env = some visitor
    · rw [List.filter_cons_of_pos (by simpa using hv), List.foldl_cons]
      refine ih ?_
      rw [advance_apply, advance_apply, if_pos hv, if_pos hv, hfg]
    · rw [List.filter_cons_of_neg (by simpa using hv)]
      refine ih ?_
      rw [advance_apply, if_neg hv, hfg]

/-- What other visitors do never changes the answer to a request. -/
theorem attempts_isolated {visits : List Visit} {v : Visit} (hsteady : Steady (visits ++ [v])) :
    (proxyStep origin env (Runs.final (proxyStep origin env) [] visits) v).1 =
      (proxyStep origin env (Runs.final (proxyStep origin env) []
        (visits.filter fun u => u.counted origin env = v.counted origin env)) v).1 := by
  cases hcounted : v.counted origin env with
  | none =>
    obtain ⟨reply, -, hreply⟩ := proxyStep_uncounted hcounted
    rw [hreply, hreply]
  | some visitor =>
    rw [Steady, List.map_append, List.pairwise_append] at hsteady
    obtain ⟨hbefore, -, hlast⟩ := hsteady
    have hlast : ∀ u ∈ visits, u.now ≤ v.now := fun u hu =>
      hlast _ (List.mem_map_of_mem hu) _ (List.mem_singleton_self _)
    have hempty : Holds 0 ([] : Attempts) fun _ => none := ⟨List.nodup_nil, keeps_nil⟩
    have hall : Holds v.now (Runs.final (proxyStep origin env) [] visits)
        (visits.foldl (Visit.advance origin env) fun _ => none) :=
      holds_run hempty hbefore (fun u _ => Nat.zero_le u.now) hlast (Nat.zero_le v.now)
    have hown : Holds v.now (Runs.final (proxyStep origin env) []
        (visits.filter fun u => u.counted origin env = some visitor))
        ((visits.filter fun u => u.counted origin env = some visitor).foldl
          (Visit.advance origin env) fun _ => none) :=
      holds_run hempty (hbefore.sublist (List.filter_sublist.map _))
        (fun u _ => Nat.zero_le u.now) (fun u hu => hlast u (List.mem_of_mem_filter hu))
        (Nat.zero_le v.now)
    rw [hall.verdict hcounted, hown.verdict hcounted, advance_filter rfl]

/-! ### The cap -/

/-- An attempt from the address that is let through, within ten minutes from `a` on. -/
def letThrough (origin : String → Option String) (env : EdgeEnv) (address : String) (a : ℕ)
    (attempts : Attempts) (v : Visit) : ℕ :=
  if isAuthAction (v.delivered env) ∧ v.address = some address ∧
      (proxyStep origin env attempts v).1 = .next ∧ a ≤ v.now ∧ v.now ≤ a + AUTH_WINDOW_MS then 1
  else 0

/-- The hits that a window lets through, of the limit in whole numbers. -/
def EdgeEnv.allowance (limit : ℚ) : ℕ := max 1 ⌊limit⌋₊

theorem limits_iff {limit : ℚ} (hlimit : env.authMaxRequests = some limit) {w : Window}
    (hw : 1 ≤ w.count) : env.limits w = false ↔ w.count ≤ EdgeEnv.allowance limit := by
  have hne : w.count ≠ 0 := Nat.ne_of_gt hw
  simp only [EdgeEnv.limits, hlimit, Option.any_some, Bool.and_eq_false_iff,
    decide_eq_false_iff_not, not_lt, EdgeEnv.allowance, le_max_iff, Nat.le_floor_iff' hne]

theorem one_le_hit {now : ℕ} {w : Option Window} (hw : ∀ u, w = some u → 1 ≤ u.count) :
    1 ≤ (hit AUTH_WINDOW_MS now w).count := by
  cases w with
  | none => exact Nat.le_refl 1
  | some u =>
    by_cases hover : u.Over AUTH_WINDOW_MS now
    · rw [hit_over hover]
    · rw [hit_live hover]
      exact Nat.le_add_left 1 u.count

/-- An attempt that is let through is counted for its own address. -/
theorem letThrough_counted {attempts : Attempts} {v : Visit} (hdescribes : env.Describes v)
    {address : String} {a : ℕ} (h : letThrough origin env address a attempts v ≠ 0) :
    v.counted origin env = some address ∧ (proxyStep origin env attempts v).1 = .next ∧
      a ≤ v.now ∧ v.now ≤ a + AUTH_WINDOW_MS := by
  rw [letThrough] at h
  split_ifs at h with hcond
  · obtain ⟨haction, haddress, hnext, hin⟩ := hcond
    refine ⟨?_, hnext, hin⟩
    rw [proxyStep, proxy] at hnext
    rw [haction] at hnext
    rw [Visit.counted, clientIp_delivered hdescribes, haddress, haction]
    cases hsame : isSameOrigin origin (v.delivered env)
    · rw [hsame] at hnext
      cases hnext
    · cases hpayload : isAuthPayload (v.delivered env).body
      · rw [hsame, hpayload] at hnext
        cases hnext
      · rfl
  · exact absurd rfl h

theorem letThrough_total {limit : ℚ} (hlimit : env.authMaxRequests = some limit)
    {attempts : Attempts} {f : String → Option Window} {now : ℕ} (h : Holds now attempts f)
    (hf : ∀ visitor u, f visitor = some u → 1 ≤ u.count) {visits : List Visit}
    (hsteady : Steady visits) (hfirst : ∀ v ∈ visits, now ≤ v.now)
    (hdescribes : ∀ v ∈ visits, env.Describes v) (address : String) (a : ℕ) :
    Runs.total (proxyStep origin env) (letThrough origin env address a) attempts visits ≤
      passes AUTH_WINDOW_MS (EdgeEnv.allowance limit) a (f address)
        ((visits.filter fun v => v.counted origin env = some address).map Visit.now) := by
  induction visits generalizing attempts f now with
  | nil => exact Nat.zero_le _
  | cons v visits ih =>
    obtain ⟨hnext, hsteady⟩ := steady_cons.mp hsteady
    have hnow : Holds v.now attempts f := h.later (hfirst v List.mem_cons_self)
    have hadvance : ∀ visitor u, v.advance origin env f visitor = some u → 1 ≤ u.count := by
      intro visitor u hu
      rw [advance_apply] at hu
      split_ifs at hu
      · cases hu
        exact one_le_hit (hf visitor)
      · exact hf visitor u hu
    have hrest := ih hnow.step hadvance hsteady hnext
      fun u hu => hdescribes u (List.mem_cons_of_mem v hu)
    rw [advance_apply] at hrest
    rw [Runs.total_cons]
    by_cases hcounted : v.counted origin env = some address
    · rw [if_pos hcounted] at hrest
      rw [List.filter_cons_of_pos (by simpa using hcounted), List.map_cons, passes]
      refine Nat.add_le_add ?_ hrest
      by_cases hzero : letThrough origin env address a attempts v = 0
      · rw [hzero]
        exact Nat.zero_le _
      · obtain ⟨-, hreply, hin⟩ := letThrough_counted (hdescribes v List.mem_cons_self) hzero
        rw [hnow.verdict hcounted] at hreply
        have hlimits : env.limits (hit AUTH_WINDOW_MS v.now (f address)) = false := by
          cases hl : env.limits (hit AUTH_WINDOW_MS v.now (f address)) with
          | false => rfl
          | true =>
            rw [hl] at hreply
            cases hreply
        rw [if_pos ⟨(limits_iff hlimit (one_le_hit (hf address))).mp hlimits, hin⟩, letThrough]
        split_ifs <;> omega
    · have hzero : letThrough origin env address a attempts v = 0 := by
        by_contra hne
        exact hcounted (letThrough_counted (hdescribes v List.mem_cons_self) hne).1
      rw [if_neg hcounted] at hrest
      rw [hzero, Nat.zero_add, List.filter_cons_of_neg (by simpa using hcounted)]
      exact hrest

/-- In any ten minutes fewer attempts from one address are let through than twice the limit,
whatever the sender writes into its headers. -/
theorem attempts_capped {limit : ℚ} (hlimit : env.authMaxRequests = some limit)
    {visits : List Visit} (hsteady : Steady visits) (hdescribes : ∀ v ∈ visits, env.Describes v)
    (address : String) (a : ℕ) :
    Runs.total (proxyStep origin env) (letThrough origin env address a) [] visits ≤
      2 * EdgeEnv.allowance limit - 1 := by
  have hempty : Holds 0 ([] : Attempts) fun _ => none := ⟨List.nodup_nil, keeps_nil⟩
  refine (letThrough_total hlimit hempty (fun _ u hu => by cases hu) hsteady
    (fun v _ => Nat.zero_le v.now) hdescribes address a).trans
    (passes_le (le_max_left 1 _) none (fun u hu => by cases hu) ?_)
  exact hsteady.sublist (List.filter_sublist.map _)

end Runs

/-! ### Two attempts -/

def sampleEdge : EdgeEnv where
  TRUSTED_PROXY_HOPS := .finite 1
  authMaxRequests := some 1

theorem sampleAddress_valid : IP_PATTERN "203.0.113.9".toList = true := by decide +kernel

theorem sampleBlank_valid : ∀ c ∈ [' '], isSpace c = true :=
  List.forall_mem_singleton.mpr (by decide)

def sampleHop : Hop where
  address := "203.0.113.9"
  address_valid := sampleAddress_valid
  blank_valid := sampleBlank_valid

/-- A sign-in whose sender claims to have come from elsewhere. -/
def sampleSignIn (claimed : String) : WebRequest where
  method := "POST"
  pathname := "/api/auth/"
  protocol := "http"
  headers name :=
    if name = "origin" then some "http://geo.example"
    else if name = "host" then some "geo.example"
    else if name = "x-forwarded-for" then some claimed
    else none
  body := some (.object [("action", .string "auth:signIn"), ("args", .object [])])

def sampleVisits : List Visit :=
  [⟨0, sampleSignIn "198.51.100.2", [sampleHop]⟩, ⟨1000, sampleSignIn "198.51.100.3", [sampleHop]⟩]

theorem sampleVisits_describes : ∀ v ∈ sampleVisits, sampleEdge.Describes v := by
  intro v hv
  simp only [sampleVisits, List.mem_cons, List.not_mem_nil, or_false] at hv
  rcases hv with rfl | rfl
  · exact ⟨List.cons_ne_nil _ _, fun _ => by decide +kernel⟩
  · exact ⟨List.cons_ne_nil _ _, fun _ => by decide +kernel⟩

/-- One of two attempts in a second is let through, under two names. -/
theorem attempts_capped_sample :
    Runs.total (proxyStep some sampleEdge) (letThrough some sampleEdge "203.0.113.9" 0) []
      sampleVisits = 1 ∧
    Runs.total (proxyStep some sampleEdge) (letThrough some sampleEdge "203.0.113.9" 0) []
      sampleVisits ≤ 2 * EdgeEnv.allowance 1 - 1 :=
  ⟨by decide +kernel, attempts_capped rfl (by decide) sampleVisits_describes "203.0.113.9" 0⟩

theorem sampleOther_valid : IP_PATTERN "2001:db8::7".toList = true := by decide +kernel

def sampleOther : Hop where
  address := "2001:db8::7"
  address_valid := sampleOther_valid
  blank_valid := sampleBlank_valid

/-- The visitor that was refused holds nobody else up. -/
theorem attempts_isolated_sample :
    let visit : Visit := ⟨2000, sampleSignIn "203.0.113.9", [sampleOther]⟩
    let after := fun visits => Runs.final (proxyStep some sampleEdge) [] visits
    (proxyStep some sampleEdge (after sampleVisits) visit).1 = .next ∧
      (proxyStep some sampleEdge (after sampleVisits) visit).1 =
        (proxyStep some sampleEdge (after (sampleVisits.filter fun u =>
          u.counted some sampleEdge = visit.counted some sampleEdge)) visit).1 :=
  ⟨by decide +kernel, attempts_isolated (by decide)⟩

end GeoPlatform.Web
