import GeoPlatform.Api.Access
import GeoPlatform.Convex.HttpSecrets

/-! Gateway calls on the wire: what `ConvexGateway` (`services/gateway.py`) posts, what the handlers
of `http.ts` make of it, and how the reply is read. -/
namespace GeoPlatform.Api
open GeoPlatform.ArcGIS
open GeoPlatform.Convex hiding KeyDescription RateLimitState Principal
open GeoPlatform.Convex.Http

/-! ### Requests -/

structure GatewayPost where
  path : String
  body : Json

def kindText : CredentialKind → String
  | .key => "key"
  | .playground => "playground"

/-- `authorize`; the address of a visitor goes with its limit. -/
def authorizePost (kind : CredentialKind) (hash endpoint : String) (defaultLimit : ℕ)
    (visitor : Option (String × ℕ)) : GatewayPost where
  path := "authorize"
  body := .object ([("kind", .string (kindText kind)), ("hash", .string hash),
    ("endpoint", .string endpoint), ("defaultLimit", natJson defaultLimit)] ++
      visitor.elim [] fun v => [("clientIp", .string v.1), ("perIpLimit", natJson v.2)])

def describePost (hash : String) : GatewayPost where
  path := "describe"
  body := .object [("hash", .string hash)]

/-- How the client writes a body down: the text, and the header with its length. -/
structure Envelope where
  contentLength : Option String
  text : String

/-- A body that the handlers read. -/
def Envelope.Fits (e : Envelope) : Prop :=
  (JsNumber.ofString (e.contentLength.getD "0")).exceeds MAX_BODY_BYTES = false ∧
    jsLength e.text.toList ≤ MAX_BODY_BYTES

instance (e : Envelope) : Decidable e.Fits := inferInstanceAs (Decidable (_ ∧ _))

/-- `_post` with the secret of the API. -/
def GatewayPost.request (secret : String) (e : Envelope) (p : GatewayPost) : HttpRequest where
  method := "POST"
  path := "/gateway/" ++ p.path
  headers name :=
    if name = "authorization" then some ("Bearer " ++ secret)
    else if name = "content-length" then e.contentLength
    else none
  text := e.text
  json := some p.body

def Lookup.isSiteKey (settings : AccessSettings) (l : Lookup) : Bool :=
  decide (l.kind = .key ∧ settings.siteKeyHash = some l.hash)

/-- The call of a request. -/
def Lookup.post (settings : AccessSettings) (l : Lookup) : GatewayPost :=
  match l.txn with
  | .describe hash => describePost hash
  | _ =>
      authorizePost l.kind l.hash l.request.endpoint settings.limits.rateLimitPerMinute
        (if l.isSiteKey settings then
          some (l.request.ip.text, settings.limits.siteKeyPerIpPerMinute)
        else none)

/-! ### Replies -/

section Read
-- `lax` is how an `int` field reads a text.
variable (lax : String → Option ℤ)

def intField : Option Json → Option ℤ
  | some (.number q) => wholeNumber q
  | some (.bool b) => some (if b then 1 else 0)
  | some (.string s) => lax s
  | _ => none

def strField (value : Option Json) : Option String := value.bind Json.string?

/-- A field that may be missing or null. -/
def optionalField {α : Type} (field : Option Json → Option α) (value : Option Json) :
    Option (Option α) :=
  match value with
  | none => some none
  | some .null => some none
  | some v => (field (some v)).map some

/-- `list[str]`. -/
def strListField : Option Json → Option (List String)
  | some (.array items) => items.mapM Json.string?
  | _ => none

/-- `bool(value)`, where a missing value counts as false. -/
def boolOf : Option Json → Bool
  | some (.bool b) => b
  | some (.number q) => q ≠ 0
  | some (.infinite _) => true
  | some (.string s) => s ≠ ""
  | some (.array items) => !items.isEmpty
  | some (.object fields) => !fields.isEmpty
  | _ => false

def statusOf (status : String) : Option AuthorizeStatus :=
  [AuthorizeStatus.ok, .invalid, .expired, .revoked, .paymentRequired, .rateLimited,
    .quotaExceeded, .endpointNotAllowed].find? fun s => statusText s = status

/-- `_principal` and the check of its fields. -/
def principalField : Option Json → Option (Option Principal)
  | some (.object fields) => do
      let raw : Json := .object fields
      let keyId ← strField (raw.get? "keyId")
      let userId ← strField (raw.get? "userId")
      let tenantId ← optionalField strField ((raw.get? "tenantId").or (raw.get? "userId"))
      let projectId ← optionalField strField ((raw.get? "projectId").or (raw.get? "keyId"))
      return some { keyId, userId, tenantId, projectId, isSiteKey := boolOf (raw.get? "isSiteKey"),
                    viaPlayground := boolOf (raw.get? "viaPlayground") }
  | _ => some none

/-- An instant is a whole number from zero on. -/
def rateLimitField : Option Json → Option RateLimitState
  | some (.object fields) => do
      let raw : Json := .object fields
      let limit ← intField lax (raw.get? "limit")
      let remaining ← intField lax (raw.get? "remaining")
      let reset ← (intField lax (raw.get? "reset")).filter (0 ≤ ·)
      return ⟨limit, remaining, reset.toNat⟩
  | _ => none

/-- The JSON object of a good reply. -/
def payloadOf (reply : HttpReply) : Option Json :=
  if reply.status ≠ 200 then none
  else match reply.body with
    | some (.object fields) => some (.object fields)
    | _ => none

/-- `gateway.authorize` from the reply on; `none` is a `ConvexGatewayError`. -/
def readAuthorization (reply : HttpReply) : Option Authorization := do
  let payload ← payloadOf reply
  let status ← (strField (payload.get? "status")).bind statusOf
  let principal ← principalField (payload.get? "principal")
  let rateLimit ← optionalField (rateLimitField lax) (payload.get? "rateLimit")
  let allowedEndpoints ← optionalField strListField (payload.get? "allowedEndpoints")
  return { status, principal, rateLimit, allowedEndpoints }

/-- `KeyDescription`, whose ids and endpoints are texts. -/
structure DescribedKey where
  status : AuthorizeStatus
  keyId : Option String := none
  userId : Option String := none
  isSiteKey : Bool := false
  rateLimitPerMinute : Option ℤ := none
  accountLimit : Option ℤ := none
  routeLimit : Option ℤ := none
  endpoints : Option (List String) := none
  deriving DecidableEq

def DESCRIBED_STATUSES : List AuthorizeStatus :=
  [.ok, .invalid, .revoked, .expired, .paymentRequired]

/-- `gateway.describe` from the reply on. -/
def readDescription (reply : HttpReply) : Option DescribedKey := do
  let payload ← payloadOf reply
  let status ← ((strField (payload.get? "status")).bind statusOf).filter (· ∈ DESCRIBED_STATUSES)
  let keyId ← optionalField strField (payload.get? "keyId")
  let userId ← optionalField strField (payload.get? "userId")
  let rateLimitPerMinute ← optionalField (intField lax) (payload.get? "rateLimitPerMinute")
  let accountLimit ← optionalField (intField lax) (payload.get? "accountLimit")
  let routeLimit ← optionalField (intField lax) (payload.get? "routeLimit")
  let endpoints ← optionalField strListField (payload.get? "endpoints")
  return { status, keyId, userId, isSiteKey := boolOf (payload.get? "isSiteKey"),
           rateLimitPerMinute, accountLimit, routeLimit, endpoints }

end Read

/-- A description with the ids and endpoints as texts. -/
def KeyDescription.described (d : KeyDescription) : DescribedKey where
  status := .ok
  keyId := some (toString d.keyId)
  userId := some (toString d.userId)
  isSiteKey := d.isSiteKey
  rateLimitPerMinute := d.rateLimitPerMinute
  accountLimit := d.accountLimit
  routeLimit := d.routeLimit
  endpoints := d.endpoints.map (List.map ApiEndpoint.name)

/-- What the call comes to: a description, or the status of a refusal. -/
def describedKey : Except AuthorizeStatus KeyDescription → DescribedKey
  | .ok d => d.described
  | .error status => { status }

/-! ### What the handlers make of a call -/

/-- The handler runs what was asked for, with long texts cut. -/
theorem authorizeHandler_post {kind : CredentialKind} {hash endpoint : String} {defaultLimit : ℕ}
    (visitor : Option (String × ℕ)) (hhash : isHash hash = true) (hlimit : 1 ≤ defaultLimit) :
    authorizeHandler (authorizePost kind hash endpoint defaultLimit visitor).body =
      .transaction (.authorize {
        kind
        hash
        endpoint := some (slice 64 endpoint)
        defaultLimit := some defaultLimit
        clientIp := visitor.map fun v => slice 64 v.1
        perIpLimit := visitor.map fun v => v.2 }) := by
  have hlimit : (1 : ℚ) ≤ defaultLimit := by exact_mod_cast hlimit
  have hkind : ∀ fields, kindOf (.object (("kind", .string (kindText kind)) :: fields)) =
      some kind := by
    intro fields
    cases kind <;> simp [kindOf, text?, Json.get?, kindText, Json.string?]
  cases visitor with
  | none =>
    simp only [authorizeHandler, authorizePost, List.cons_append, hkind]
    simp [text?, number?, Json.get?, Json.string?, JsNumber.ofMember, JsNumber.finite?, natJson,
      JsNumber.ofJson, hhash, hlimit, Option.filter]
  | some v =>
    simp only [authorizeHandler, authorizePost, List.cons_append, hkind]
    simp [text?, number?, Json.get?, Json.string?, JsNumber.ofMember, JsNumber.finite?, natJson,
      JsNumber.ofJson, hhash, hlimit, Option.filter]

theorem describeHandler_post {hash : String} (hhash : isHash hash = true) :
    describeHandler (describePost hash).body = .transaction (.describe hash) := by
  simp [describeHandler, describePost, text?, Json.get?, Json.string?, hhash, Option.filter]

/-! ### How a reply is read back -/

variable {lax : String → Option ℤ}

theorem statusOf_statusText (status : AuthorizeStatus) :
    statusOf (statusText status) = some status := by
  cases status <;> decide

theorem intField_number (q : ℚ) : intField lax (some (.number q)) = wholeNumber q := rfl

theorem wholeNumber_natCast (n : ℕ) : wholeNumber (n : ℚ) = some (n : ℤ) := by
  rw [wholeNumber, if_pos (Rat.den_natCast n), Rat.num_natCast]

theorem principalField_json (p : Convex.Principal) :
    principalField (some (principalJson p)) = some (some (Principal.of p)) := by
  simp [principalField, principalJson, Json.get?, strField, idJson, Json.string?, optionalField,
    boolOf, Principal.of]

theorem rateLimitField_json (r : RateLimitReply) :
    rateLimitField lax (some (rateLimitJson r)) = RateLimitState.validate r := by
  have hreset : (wholeNumber (r.reset : ℚ)).filter (0 ≤ ·) = some (r.reset : ℤ) := by
    rw [wholeNumber_natCast, Option.filter_some_pos (by simp)]
  simp [rateLimitField, rateLimitJson, Json.get?, natJson, intField_number, hreset,
    RateLimitState.validate]

theorem strListField_json (endpoints : List ApiEndpoint) :
    strListField (some (endpointsJson endpoints)) = some (endpoints.map ApiEndpoint.name) := by
  rw [endpointsJson, strListField]
  induction endpoints with
  | nil => rfl
  | cons e endpoints ih => simp [Json.string?, ih]

theorem validateLimit_json (r : Option RateLimitReply) :
    optionalField (rateLimitField lax) (r.map rateLimitJson) = validateLimit r := by
  cases r with
  | none => rfl
  | some r => exact congrArg (Option.map some) (rateLimitField_json r)

theorem optionalEndpoints_json (endpoints : Option (List ApiEndpoint)) :
    optionalField strListField (endpoints.map endpointsJson) =
      some (endpoints.map (List.map ApiEndpoint.name)) := by
  cases endpoints with
  | none => rfl
  | some endpoints => exact congrArg (Option.map some) (strListField_json endpoints)

theorem optionalPrincipal_json (p : Option Convex.Principal) :
    principalField (p.map principalJson) = some (p.map Principal.of) := by
  cases p with
  | none => rfl
  | some p => exact principalField_json p

/-- The members of a reply. -/
theorem authorizeJson_get (reply : AuthorizeReply) :
    Json.get? "status" (.object (authorizeJson reply)) = some (.string (statusText reply.status)) ∧
    Json.get? "principal" (.object (authorizeJson reply)) = reply.principal.map principalJson ∧
    Json.get? "rateLimit" (.object (authorizeJson reply)) = reply.rateLimit.map rateLimitJson ∧
    Json.get? "allowedEndpoints" (.object (authorizeJson reply)) =
      reply.allowedEndpoints.map endpointsJson := by
  obtain ⟨status, principal, rateLimit, allowedEndpoints⟩ := reply
  cases principal <;> cases rateLimit <;> cases allowedEndpoints <;>
    simp [authorizeJson, optionalMember, Json.get?]

/-- What is read off the reply of `authorize` is what Convex answered. -/
theorem readAuthorization_reply (reply : AuthorizeReply) :
    readAuthorization lax (answerReply (.authorized reply)) =
      gatewayAuthorize (.authorized reply) := by
  obtain ⟨hstatus, hprincipal, hlimit, hendpoints⟩ := authorizeJson_get reply
  have hpayload : payloadOf (answerReply (.authorized reply)) =
      some (.object (authorizeJson reply)) := rfl
  have hstr : (strField (some (.string (statusText reply.status)))).bind statusOf =
      some reply.status := statusOf_statusText reply.status
  rw [readAuthorization, hpayload]
  simp only [Option.bind_eq_bind, Option.bind_some, hstatus, hprincipal, hlimit, hendpoints, hstr,
    optionalPrincipal_json, validateLimit_json, optionalEndpoints_json]
  rfl

theorem wholeOrNull_json (q : Option ℚ) :
    optionalField (intField lax) (some ((q.map Json.number).getD .null)) = wholeOrNull q := by
  cases q with
  | none => rfl
  | some q => rfl

theorem endpointsOrNull_json (endpoints : Option (List ApiEndpoint)) :
    optionalField strListField (some ((endpoints.map endpointsJson).getD .null)) =
      some (endpoints.map (List.map ApiEndpoint.name)) := by
  cases endpoints with
  | none => rfl
  | some endpoints => exact congrArg (Option.map some) (strListField_json endpoints)

theorem readDescription_ok (d : Convex.KeyDescription) :
    readDescription lax (answerReply (.described (.ok d))) =
      (KeyDescription.validate d).map KeyDescription.described := by
  have hpayload : payloadOf (answerReply (.described (.ok d))) =
      some (.object (describeJson (.ok d))) := rfl
  have hid : ∀ id : ℕ, optionalField strField (some (idJson id)) = some (some (toString id)) :=
    fun _ => rfl
  have hlimit : ∀ q : ℚ, optionalField (intField lax) (some (.number q)) =
      (wholeNumber q).map some := fun _ => rfl
  have hstatus : ((strField (some (.string "ok"))).bind statusOf).filter
      (· ∈ DESCRIBED_STATUSES) = some .ok := by decide
  rw [readDescription, hpayload, KeyDescription.validate]
  simp only [describeJson, Json.get?, List.find?_cons, Option.bind_eq_bind, Option.bind_some,
    String.reduceEq, decide_true, decide_false, Option.map_some, hstatus, hid, hlimit,
    wholeOrNull_json, endpointsOrNull_json]
  cases wholeOrNull d.rateLimitPerMinute <;> cases wholeNumber d.accountLimit <;>
    cases wholeNumber d.routeLimit <;> rfl

/-- What is read off the reply of `describe` is what Convex answered. -/
theorem readDescription_reply (reply : DescribeReply) :
    readDescription lax (answerReply (.described reply)) =
      (describeAnswer (.described reply)).map describedKey := by
  have hpayload : payloadOf (answerReply (.described reply)) =
      some (.object (describeJson reply)) := by cases reply <;> rfl
  cases reply with
  | ok d =>
    rw [readDescription_ok, describeAnswer, gatewayDescribe, Option.map_map]
    rfl
  | _ =>
    rw [readDescription, hpayload]
    rfl

/-! ### A call as a whole -/

/-- The settings with which the API reaches Convex: a limit from one on, and hashes in
hexadecimal. -/
structure LinkSettings extends AccessSettings where
  gatewaySecret : String
  limits_valid : 1 ≤ limits.rateLimitPerMinute
  hash_valid : ∀ credential, isHash (hashCredential credential) = true

/-- A request that waits asks about the hash of its credential. -/
structure Lookup.Proper (settings : AccessSettings) (l : Lookup) : Prop where
  hash : ∃ credential, l.hash = settings.hashCredential credential
  txn : l.txn = .describe l.hash ∨ l.txn = .authorize
    (authorizeArgs settings l.request l.kind l.hash (l.isSiteKey settings))

theorem arrive_proper {P : PyText} {settings : AccessSettings} {g : Gate} {now : ℕ} {monotonic : ℚ}
    {r : ApiRequest} {l : Lookup} (h : (g.arrive P settings now monotonic r).1 = .lookup l) :
    l.Proper settings := by
  unfold Gate.arrive at h
  split_ifs at h
  split at h
  · cases h
  · rename_i credentials hcredentials
    split at h
    · cases h
    · rcases hkind : credentialKind (strip P credentials.toList) with _ | kind
      · simp only [hkind] at h
        cases h
      · simp only [hkind] at h
        split at h
        · cases h
        · split_ifs at h
          · split at h
            · cases h
            · cases h
              exact ⟨⟨_, rfl⟩, Or.inl rfl⟩
          · cases h
            exact ⟨⟨_, rfl⟩, Or.inr rfl⟩

/-- Convex knows the secret. -/
def Trusts (env : HttpEnv) (secret : String) : Prop :=
  some secret ∈ env.secrets ∧ MIN_SECRET_LENGTH ≤ jsLength secret.toList

variable {env : HttpEnv} {settings : LinkSettings} {l : Lookup}

theorem readJson_post (secret : String) (e : Envelope) (p : GatewayPost)
    {fields : List (String × Json)} (hbody : p.body = .object fields) :
    readJson (p.request secret e) = if e.Fits then some p.body else none := by
  have hlength : (p.request secret e).headers "content-length" = e.contentLength := by
    simp [GatewayPost.request]
  have htext : (p.request secret e).text = e.text := rfl
  have hjson : (p.request secret e).json = some (.object fields) := congrArg some hbody
  rw [readJson, hlength, htext, hjson]
  by_cases hfits : e.Fits
  · rw [if_pos hfits, hfits.1, if_neg (by decide), if_neg (Nat.not_lt.mpr hfits.2), hbody]
  · rw [if_neg hfits]
    split_ifs with hdeclared hlong
    · rfl
    · rfl
    · exact absurd ⟨Bool.eq_false_iff.mpr hdeclared, Nat.not_lt.mp hlong⟩ hfits

/-- A call reaches the handler of its path behind the checks that the gateway's routes share. -/
theorem handle_post (hl : l.Proper settings.toAccessSettings) (e : Envelope) (now : ℕ) :
    handle env now ((l.post settings.toAccessSettings).request settings.gatewaySecret e) =
      gatewayRoute env ((l.post settings.toAccessSettings).request settings.gatewaySecret e)
        fun _ => .transaction l.txn := by
  obtain ⟨⟨credential, hhash⟩, htxn⟩ := hl
  have hhash : isHash l.hash = true := hhash ▸ settings.hash_valid credential
  have hjson : ∀ (p : GatewayPost) (fields : List (String × Json)) (handler : Json → Handling),
      p.body = .object fields → handler p.body = .transaction l.txn →
      gatewayRoute env (p.request settings.gatewaySecret e) handler =
        gatewayRoute env (p.request settings.gatewaySecret e) fun _ => .transaction l.txn := by
    intro p fields handler hbody hhandler
    rw [gatewayRoute, gatewayRoute, readJson_post _ e p hbody]
    by_cases hfits : e.Fits
    · simp only [if_pos hfits, hhandler]
    · simp only [if_neg hfits]
  rcases htxn with htxn | htxn
  · have hpost : l.post settings.toAccessSettings = describePost l.hash := by
      rw [Lookup.post, htxn]
    rw [hpost, ← hjson (describePost l.hash) _ describeHandler rfl
      (htxn ▸ describeHandler_post hhash)]
    simp [handle, GatewayPost.request, describePost]
  · have hpost : l.post settings.toAccessSettings =
        authorizePost l.kind l.hash l.request.endpoint settings.limits.rateLimitPerMinute
          (if l.isSiteKey settings.toAccessSettings then
            some (l.request.ip.text, settings.limits.siteKeyPerIpPerMinute)
          else none) := by
      rw [Lookup.post, htxn]
    have hargs : authorizeHandler (l.post settings.toAccessSettings).body = .transaction l.txn := by
      rw [hpost, authorizeHandler_post _ hhash settings.limits_valid, htxn, authorizeArgs]
      split_ifs <;> rfl
    rw [← hjson (l.post settings.toAccessSettings) _ authorizeHandler (by rw [hpost]; rfl) hargs]
    rw [hpost]
    simp [handle, GatewayPost.request, authorizePost]

theorem authorized_post (p : GatewayPost) (e : Envelope) :
    authorized env (p.request settings.gatewaySecret e) = true ↔
      Trusts env settings.gatewaySecret := by
  have hheader : (p.request settings.gatewaySecret e).headers "authorization" =
      some ("Bearer " ++ settings.gatewaySecret) := rfl
  rw [authorized_iff, hheader]
  constructor
  · rintro ⟨secret, hmem, hlength, heq⟩
    have hsecret : settings.gatewaySecret = secret := by
      have hchars := congrArg String.toList (Option.some.inj heq)
      rw [String.toList_append, String.toList_append] at hchars
      exact String.toList_inj.mp (List.append_cancel_left hchars)
    exact hsecret ▸ ⟨hmem, hlength⟩
  · rintro ⟨hmem, hlength⟩
    exact ⟨_, hmem, hlength, rfl⟩

/-- A call runs its transaction exactly when Convex knows the secret and the body is not too long;
otherwise it gets a reply that says nothing. -/
theorem handle_post_cases (hl : l.Proper settings.toAccessSettings) (e : Envelope) (now : ℕ) :
    (Trusts env settings.gatewaySecret ∧ e.Fits ∧
      handle env now ((l.post settings.toAccessSettings).request settings.gatewaySecret e) =
        .transaction l.txn) ∨
    (¬ (Trusts env settings.gatewaySecret ∧ e.Fits) ∧ ∃ reply,
      handle env now ((l.post settings.toAccessSettings).request settings.gatewaySecret e) =
        .reply reply ∧ payloadOf reply = none) := by
  rw [handle_post hl, gatewayRoute]
  have hbody : ∃ fields, (l.post settings.toAccessSettings).body = .object fields := by
    rw [Lookup.post]
    split <;> exact ⟨_, rfl⟩
  obtain ⟨fields, hfields⟩ := hbody
  by_cases htrusts : Trusts env settings.gatewaySecret
  · rw [(authorized_post _ e).mpr htrusts, readJson_post _ e _ hfields]
    by_cases hfits : e.Fits
    · rw [if_pos hfits]
      exact Or.inl ⟨htrusts, hfits, rfl⟩
    · rw [if_neg hfits]
      exact Or.inr ⟨fun h => hfits h.2, invalidBody, rfl, rfl⟩
  · rw [Bool.eq_false_iff.mpr fun h => htrusts ((authorized_post _ e).mp h)]
    exact Or.inr ⟨fun h => htrusts h.1, Http.unauthorized, rfl, rfl⟩

end GeoPlatform.Api
