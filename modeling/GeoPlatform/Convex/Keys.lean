import GeoPlatform.Convex.Schema
import Mathlib.Data.List.Sort

/-! Sessions, the key table and its writers (`lib/session.ts`, `lib/keys.ts`, `apiKeys.ts`,
`admin.ts`, `platform.ts`), one definition for each transaction. -/
namespace GeoPlatform.Convex
open Docs

/-! ### Sessions -/

/-- The identity a signed-in browser presents. -/
structure Caller where
  userId : Option ℕ
  sessionId : Option ℕ
  deriving DecidableEq, Repr

def isSessionActive (db : Db) (now userId sessionId : ℕ) : Bool :=
  match db.authSessions.get sessionId with
  | none => false
  | some session =>
      if session.userId ≠ userId ∨ session.expirationTime ≤ now then false
      else match db.users.get userId with
        | none => false
        | some user => user.disabledAt.isNone && !user.isSystem

def currentUserId (db : Db) (now : ℕ) (caller : Caller) : Option ℕ :=
  match caller.userId, caller.sessionId with
  | some userId, some sessionId =>
      if isSessionActive db now userId sessionId then some userId else none
  | _, _ => none

def requireUserId (db : Db) (now : ℕ) (caller : Caller) : Except TxError ℕ :=
  match currentUserId db now caller with
  | some userId => .ok userId
  | none => .error (.convex "You need to sign in.")

/-! ### Input checks -/

def MAX_ACTIVE_KEYS_PER_USER : ℕ := 25
def MAX_TOTAL_KEYS_PER_USER : ℕ := 200
def MAX_PLAYGROUND_TOKENS_PER_KEY : ℕ := 5
def MAX_KEY_NAME_LENGTH : ℕ := 100
def PLAYGROUND_TOKEN_TTL_MS : ℕ := 15 * 60 * 1000
def MIN_KEY_LIFETIME_MS : ℕ := 60 * 60 * 1000
def MAX_KEY_LIFETIME_MS : ℕ := 5 * 366 * 24 * 60 * 60 * 1000

/-- What `trim` and `\s` treat as white space. -/
def isSpace (c : Char) : Bool :=
  let n := c.toNat
  (9 ≤ n && n ≤ 13) || n = 0x20 || n = 0xA0 || n = 0x1680 || (0x2000 ≤ n && n ≤ 0x200A) ||
    n = 0x2028 || n = 0x2029 || n = 0x202F || n = 0x205F || n = 0x3000 || n = 0xFEFF

/-- Length in UTF-16 code units. -/
def jsLength (cs : List Char) : ℕ := (cs.map fun c => if 0x10000 ≤ c.toNat then 2 else 1).sum

def cleanKeyName (name : String) : Except TxError String :=
  let words := (name.toList.splitOnP isSpace).filter (· ≠ [])
  let cleaned := List.intercalate [' '] words
  if jsLength cleaned = 0 ∨ MAX_KEY_NAME_LENGTH < jsLength cleaned then
    .error (.convex "Key name must be 1 to 100 characters.")
  else .ok (String.ofList cleaned)

def cleanEndpoints (endpoints : List ApiEndpoint) : Except TxError (List ApiEndpoint) :=
  let chosen := API_ENDPOINTS.filter fun e => endpoints.contains e
  if chosen = [] then .error (.convex "Choose at least one endpoint for the key.")
  else .ok chosen

/-- `none` inside means a number that is not finite. -/
def cleanExpiresAt (expiresAt : Option (Option ℚ)) (now : ℕ) : Except TxError (Option ℕ) :=
  match expiresAt with
  | none => .ok none
  | some none => .error (.convex "The expiry date must be in the future.")
  | some (some e) =>
      if e < (now + MIN_KEY_LIFETIME_MS : ℕ) then
        .error (.convex "The expiry date must be in the future.")
      else if ((now + MAX_KEY_LIFETIME_MS : ℕ) : ℚ) < e then
        .error (.convex "The expiry date can be at most 5 years ahead.")
      else .ok (some ⌊e⌋₊)

/-! ### Keys and playground tokens -/

def ownedKey (db : Db) (keyId userId : ℕ) : Option ApiKey :=
  (db.apiKeys.get keyId).filter fun k => k.userId = userId

def requireOwnedKey (db : Db) (keyId userId : ℕ) : Except TxError ApiKey :=
  match ownedKey db keyId userId with
  | some key => .ok key
  | none => .error (.convex "API key not found.")

structure InsertKeyArgs where
  userId : ℕ
  name : String
  keyPrefix : String
  keyHash : String
  endpoints : List ApiEndpoint
  expiresAt : Option ℕ
  deriving DecidableEq, Repr

def storedEndpoint : ApiEndpoint → StoredEndpoint
  | .geocode => .geocode
  | .route => .route

def insertKey (now : ℕ) (args : InsertKeyArgs) (db : Db) : Except TxError (ℕ × Db) :=
  match db.users.get args.userId with
  | none => .error (.convex "Activate the free tier or a paid plan to create API keys.")
  | some user =>
      if !hasKeyAccess user now then
        .error (.convex "Activate the free tier or a paid plan to create API keys.")
      else
        let all := (db.apiKeys.query fun k => k.userId = args.userId).take
          (MAX_TOTAL_KEYS_PER_USER + 1)
        if MAX_TOTAL_KEYS_PER_USER ≤ all.length then
          .error (.convex
            "This account has reached the maximum number of API keys. Contact support.")
        else if MAX_ACTIVE_KEYS_PER_USER ≤ (all.filter fun k => k.val.revokedAt.isNone).length then
          .error (.convex "You can have at most 25 active API keys. Revoke one first.")
        else
          let key : ApiKey :=
            { userId := args.userId, name := args.name, keyPrefix := args.keyPrefix
              keyHash := args.keyHash, endpoints := some (args.endpoints.map storedEndpoint)
              expiresAt := args.expiresAt }
          .ok (db.apiKeys.nextId,
            writeAudit { db with apiKeys := db.apiKeys.insert key } now "api_key_created" .INFO
              .success (some args.userId) (some db.apiKeys.nextId) none)

def rename (now : ℕ) (caller : Caller) (keyId : ℕ) (name : String) (db : Db) :
    Except TxError (Unit × Db) := do
  let userId ← requireUserId db now caller
  let _ ← requireOwnedKey db keyId userId
  let cleaned ← cleanKeyName name
  return ((), { db with apiKeys := db.apiKeys.patch keyId fun k => { k with name := cleaned } })

def deletePlaygroundTokens (db : Db) (keyId : ℕ) : Db :=
  { db with playgroundTokens := db.playgroundTokens.keep fun t => t.val.apiKeyId ≠ keyId }

/-- A revoked key keeps the instant of its first revocation. -/
def revokeApiKey (now : ℕ) (k : ApiKey) : ApiKey :=
  if k.revokedAt.isNone then { k with revokedAt := some now } else k

def revoke (now : ℕ) (caller : Caller) (keyId : ℕ) (db : Db) : Except TxError (Unit × Db) := do
  let userId ← requireUserId db now caller
  let _ ← requireOwnedKey db keyId userId
  let db := { db with apiKeys := db.apiKeys.patch keyId (revokeApiKey now) }
  return ((), writeAudit (deletePlaygroundTokens db keyId) now "api_key_revoked" .WARNING .success
    (some userId) (some keyId) none)

structure ReplaceSecretArgs where
  keyId : ℕ
  userId : ℕ
  keyPrefix : String
  keyHash : String
  deriving DecidableEq, Repr

def replaceSecret (now : ℕ) (args : ReplaceSecretArgs) (db : Db) : Except TxError (Unit × Db) := do
  let key ← requireOwnedKey db args.keyId args.userId
  match db.users.get args.userId with
  | none => .error (.convex "Activate the free tier or a paid plan to regenerate API keys.")
  | some user =>
      if !hasKeyAccess user now then
        .error (.convex "Activate the free tier or a paid plan to regenerate API keys.")
      else if key.revokedAt.isSome then .error (.convex "A revoked key cannot be regenerated.")
      else if key.expiresAt.any (· ≤ now) then
        .error (.convex "This key has expired. Create a new key instead.")
      else
        let db := { db with apiKeys := db.apiKeys.patch args.keyId fun k =>
          { k with keyPrefix := args.keyPrefix, keyHash := args.keyHash } }
        .ok ((), writeAudit (deletePlaygroundTokens db args.keyId) now "api_key_rotated" .WARNING
          .success (some args.userId) (some args.keyId) none)

/-- The tokens of the key that make room for one more: the oldest, all but four. -/
def surplusTokens (db : Db) (keyId : ℕ) : List (Doc PlaygroundToken) :=
  let existing := db.playgroundTokens.query fun t => t.apiKeyId = keyId
  let oldestFirst := existing.insertionSort fun a b => a.val.expiresAt ≤ b.val.expiresAt
  oldestFirst.take (oldestFirst.length - (MAX_PLAYGROUND_TOKENS_PER_KEY - 1))

def insertPlaygroundToken (now : ℕ) (args : PlaygroundToken) (db : Db) :
    Except TxError (Unit × Db) :=
  match db.users.get args.userId with
  | none => .error (.convex "Activate the free tier or a paid plan to use API keys.")
  | some user =>
      if !hasKeyAccess user now then
        .error (.convex "Activate the free tier or a paid plan to use API keys.")
      else
        let tokens := db.playgroundTokens.delete ((surplusTokens db args.apiKeyId).map Doc.id)
        .ok ((), { db with playgroundTokens := tokens.insert args })

/-! ### Operator functions -/

def revokeKey (now keyId : ℕ) (db : Db) : Except TxError (Unit × Db) :=
  match db.apiKeys.get keyId with
  | none => .error (.error "No such key.")
  | some key =>
      let db := { db with apiKeys := db.apiKeys.patch keyId (revokeApiKey now) }
      .ok ((), writeAudit (deletePlaygroundTokens db keyId) now "operator_api_key_revoked" .HIGH
        .success (some key.userId) (some keyId) none)

/-- The keys of a user, and whether a token belongs to one of them. -/
def tokenOfUser (db : Db) (userId : ℕ) (t : PlaygroundToken) : Bool :=
  (db.apiKeys.get t.apiKeyId).any fun k => k.userId = userId

def User.disable (now : ℕ) (u : User) : User := { u with disabledAt := some now }

def User.enable (u : User) : User := { u with disabledAt := none }

def lockUser (now userId : ℕ) (db : Db) : Except TxError (ℕ × Db) :=
  match db.users.get userId with
  | none => .error (.error "No such user.")
  | some user =>
      if user.isSystem then
        .error (.error "Refusing to disable the system account; rotate SITE_API_KEY instead.")
      else
        let live := db.apiKeys.query fun k => k.userId = userId && k.revokedAt.isNone
        .ok (live.length, writeAudit
          { db with
            users := db.users.patch userId (User.disable now)
            apiKeys := db.apiKeys.patchAll (fun k => k.userId = userId) (revokeApiKey now)
            playgroundTokens := db.playgroundTokens.keep fun t => !tokenOfUser db userId t.val }
          now "tenant_disabled" .CRITICAL .success (some userId) none none)

/-- `s.trim().toLowerCase()`, for strings whose letters are ASCII. -/
def trimmedLower (s : String) : String :=
  String.ofList ((((s.toList.dropWhile isSpace).reverse.dropWhile isSpace).reverse).map
    Char.toLower)

def lookupEmail (email : String) : String := trimmedLower email

/-- The first user with that email. -/
def findUser (db : Db) (email : String) : Option (Doc User) :=
  (db.users.query fun u => u.email = some (lookupEmail email)).head?

def enableUser (now : ℕ) (email : String) (db : Db) : Except TxError (ℕ × Db) :=
  match findUser db email with
  | none => .error (.error "No user with that email.")
  | some user =>
      .ok (user.id, writeAudit
        { db with users := db.users.patch user.id User.enable }
        now "tenant_enabled" .HIGH .success (some user.id) none none)

/-! ### Deployment-time setup (`platform.ts`) -/

def SYSTEM_EMAIL : String := "platform@system.internal"

/-- The system account is found by its flag, never by its email. -/
def upsertSystemUser (db : Db) : Except TxError (ℕ × Db) :=
  match (db.users.query fun u => u.isSystem).head? with
  | some system => .ok (system.id, db)
  | none =>
      match (db.users.query fun u => u.email = some SYSTEM_EMAIL).head? with
      | some impostor => .error (.error (
          "A regular account uses the reserved address " ++ SYSTEM_EMAIL ++ " (user " ++
          toString impostor.id ++ "). Investigate and disable it (admin:disableUser) before " ++
          "registering the site key."))
      | none =>
          let user : User := { email := some SYSTEM_EMAIL, isSystem := true }
          .ok (db.users.nextId, { db with users := db.users.insert user })

structure UpsertKeyArgs where
  userId : ℕ
  name : String
  keyHash : String
  keyPrefix : String
  isSiteKey : Bool
  deriving DecidableEq, Repr

def UpsertKeyArgs.key (args : UpsertKeyArgs) : ApiKey :=
  { userId := args.userId, name := args.name, keyPrefix := args.keyPrefix
    keyHash := args.keyHash, isSiteKey := args.isSiteKey }

/-- Another site key of the same owner, which a rotated one replaces. -/
def isOtherSiteKey (args : UpsertKeyArgs) (k : ApiKey) : Bool :=
  k.userId = args.userId && k.isSiteKey && k.keyHash ≠ args.keyHash

/-- The key table after a new site key retired the ones it replaces. -/
def retireSiteKeys (now : ℕ) (args : UpsertKeyArgs) (keys : Table ApiKey) : Table ApiKey :=
  if args.isSiteKey then keys.patchAll (isOtherSiteKey args) (revokeApiKey now) else keys

def upsertKey (now : ℕ) (args : UpsertKeyArgs) (db : Db) : Except TxError (Unit × Db) :=
  match db.apiKeys.unique fun k => k.keyHash = args.keyHash with
  | .several => .error .notUnique
  | .none => .ok ((), { db with apiKeys := retireSiteKeys now args (db.apiKeys.insert args.key) })
  | .one existing =>
      if existing.val.revokedAt.isSome ∨ existing.val.userId ≠ args.userId then
        .error (.error ("Key \"" ++ args.name ++
          "\" exists but is revoked or owned by another account; choose a new secret."))
      else .ok ((), { db with apiKeys := retireSiteKeys now args db.apiKeys })

/-! ### Accounts and sessions, kept by Convex Auth -/

def signUp (email : String) (db : Db) : ℕ × Db :=
  (db.users.nextId, { db with users := db.users.insert { email := some email } })

def signIn (userId expirationTime : ℕ) (db : Db) : ℕ × Db :=
  (db.authSessions.nextId,
    { db with authSessions := db.authSessions.insert ⟨userId, expirationTime⟩ })

def invalidateSessions (userId : ℕ) (db : Db) : Db :=
  { db with authSessions := db.authSessions.keep fun s => s.val.userId ≠ userId }

end GeoPlatform.Convex
