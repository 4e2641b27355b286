import GeoPlatform.Convex.Backend

/-! Usage on its way from the API to the daily rollups: the recorder (`services/usage.py`), its
gateway calls (`services/gateway.py`), and the handler of `/gateway/usage` (`http.ts`). A record
carries the number of its `record` call, and a call what it has counted; only statements read
these. -/
namespace GeoPlatform.Api
open GeoPlatform.Convex Docs

/-! ### Records -/

structure UsageRecord where
  keyId : String
  userId : String
  endpoint : String
  method : String
  statusCode : ℤ
  responseTimeMs : ℤ
  timestampMs : ℤ
  deriving DecidableEq, Repr

/-- `to_json` followed by `toUsageEntry`, which drops no record whose numbers are finite. -/
def UsageRecord.toUsageEntry (r : UsageRecord) : UsageEntry where
  keyId := slice 64 r.keyId
  userId := slice 64 r.userId
  endpoint := slice 100 r.endpoint
  method := slice 10 r.method
  statusCode := some r.statusCode
  responseTimeMs := some r.responseTimeMs
  timestamp := some r.timestampMs

structure TaggedRecord where
  tag : ℕ
  record : UsageRecord
  deriving DecidableEq

structure TaggedEntry where
  tag : ℕ
  entry : UsageEntry
  deriving DecidableEq

def TaggedRecord.toEntry (t : TaggedRecord) : TaggedEntry := ⟨t.tag, t.record.toUsageEntry⟩

/-! ### The queue -/

structure RecorderConfig where
  batchSize : ℕ := 200
  maxPending : ℕ := 50000

/-- `append` on a bounded deque: a full one loses its oldest record. -/
def append (maxPending : ℕ) (pending : List TaggedRecord) (r : TaggedRecord) :
    List TaggedRecord :=
  if pending.length < maxPending then pending ++ [r] else (pending ++ [r]).drop 1

/-- `extendleft(reversed(batch))` on a bounded deque: what does not fit is lost at the other end. -/
def requeue (maxPending : ℕ) (batch pending : List TaggedRecord) : List TaggedRecord :=
  (batch ++ pending).take maxPending

/-! ### Gateway calls -/

def MAX_USAGE_BATCH : ℕ := 200

/-- The bound of the handler; the one of the mutation is `Convex.MAX_USAGE_ENTRIES`. -/
def MAX_REQUEST_ENTRIES : ℕ := 1000

/-- How far a request has come. -/
inductive PostStage where
  | sent
  | handling (rest : List TaggedEntry) (written : ℕ)
  | replied (status : ℕ) (body : Option UsageReply)
  deriving DecidableEq

/-- A gateway call. It has `failed` once it ended in `ConvexGatewayError`, wherever its request
is. -/
structure Post where
  batch : List TaggedRecord
  stage : PostStage := .sent
  failed : Bool := false
  counted : List (ℕ × RollupKey) := []

/-- The records of a chunk that the mutation accepts, with the rows they go to. -/
def acceptedTags (db : Db) (now : ℕ) (chunk : List TaggedEntry) : List (ℕ × RollupKey) :=
  (chunk.take MAX_USAGE_ENTRIES).filterMap fun t =>
    (acceptEntry now (keyByIdString db.apiKeys t.entry.keyId) t.entry).map fun a =>
      (t.tag, a.rollupKey)

/-- The handler starts on a request that reaches it. -/
def Post.arrive (p : Post) : Post :=
  match p.stage with
  | .sent =>
      if MAX_REQUEST_ENTRIES < p.batch.length then { p with stage := .replied 400 none }
      else { p with stage := .handling (p.batch.map TaggedRecord.toEntry) 0 }
  | _ => p

/-- The handler refuses a request, or breaks down: a wrong secret, a body too large, an error. -/
def Post.refuse (status : ℕ) (p : Post) : Post :=
  match p.stage with
  | .replied _ _ => p
  | _ => if status = 200 then p else { p with stage := .replied status none }

/-- The next step of the handler: the mutation on the next chunk, or the reply. -/
def Post.commit (now : ℕ) (db : Db) (p : Post) : Post × Db :=
  match p.stage with
  | .handling rest written =>
      if rest = [] then
        ({ p with stage := .replied 200 (some ⟨written, p.batch.length - written⟩) }, db)
      else
        let chunk := rest.take MAX_USAGE_BATCH
        match recordUsage now (chunk.map TaggedEntry.entry) db with
        | .error _ => ({ p with stage := .replied 500 none }, db)
        | .ok (reply, db') =>
            ({ p with
              stage := .handling (rest.drop MAX_USAGE_BATCH) (written + reply.written)
              counted := p.counted ++ acceptedTags db now chunk }, db')
  | _ => (p, db)

/-! ### The system -/

structure UsageSystem where
  pending : List TaggedRecord := []
  /-- The call that the flush in progress waits for; the lock is free when there is none. -/
  flushing : Option ℕ := none
  posts : List Post := []
  nextTag : ℕ := 0
  db : Db := {}

inductive UsageEvent where
  | record (r : UsageRecord)
  | flush
  | arrive (i : ℕ)
  | refuse (i status : ℕ)
  | commit (now i : ℕ)
  /-- The reply reaches the flush in progress. -/
  | receive
  /-- The call of the flush in progress times out, or its reply is lost or unreadable. -/
  | lose
  /-- The task of the flush in progress is cancelled. -/
  | cancel
  | call (c : Call)

/-- The head of the loop of `flush`: send the next batch, or return. -/
def UsageSystem.sendBatch (config : RecorderConfig) (s : UsageSystem) : UsageSystem :=
  if s.pending = [] then { s with flushing := none }
  else
    { s with
      pending := s.pending.drop config.batchSize
      flushing := some s.posts.length
      posts := s.posts ++ [{ batch := s.pending.take config.batchSize }] }

/-- `ConvexGatewayError`: the batch goes back to the front of the queue and the flush ends. -/
def UsageSystem.failCall (config : RecorderConfig) (s : UsageSystem) (i : ℕ) (p : Post) :
    UsageSystem :=
  { s with
    pending := requeue config.maxPending p.batch s.pending
    flushing := none
    posts := s.posts.set i { p with failed := true } }

/-- `_post` accepts a JSON object with status 200. -/
def UsageSystem.receive (config : RecorderConfig) (s : UsageSystem) (i : ℕ) (p : Post) :
    UsageSystem :=
  match p.stage with
  | .replied status body =>
      if status = 200 ∧ body.isSome then s.sendBatch config else s.failCall config i p
  | _ => s

/-- The flush in progress and the call it waits for. -/
def UsageSystem.waiting (s : UsageSystem) : Option (ℕ × Post) :=
  match s.flushing with
  | none => none
  | some i => s.posts[i]?.map fun p => (i, p)

def isRecordUsage : Txn → Bool
  | .recordUsage _ => true
  | _ => false

/-- A step on one call, if there is such a call. -/
def UsageSystem.onPost (s : UsageSystem) (i : ℕ) (f : Post → Post × Db) : UsageSystem :=
  match s.posts[i]? with
  | none => s
  | some p => { s with posts := s.posts.set i (f p).1, db := (f p).2 }

def UsageSystem.next (config : RecorderConfig) (env : ProcessEnv) (s : UsageSystem) :
    UsageEvent → UsageSystem
  | .record r =>
      { s with
        pending := append config.maxPending s.pending ⟨s.nextTag, r⟩
        nextTag := s.nextTag + 1 }
  | .flush => if s.flushing.isSome then s else s.sendBatch config
  | .arrive i => s.onPost i fun p => (p.arrive, s.db)
  | .refuse i status => s.onPost i fun p => (p.refuse status, s.db)
  | .commit now i => s.onPost i fun p => p.commit now s.db
  | .receive =>
      match s.waiting with
      | none => s
      | some (i, p) => s.receive config i p
  | .lose =>
      match s.waiting with
      | none => s
      | some (i, p) => s.failCall config i p
  | .cancel => { s with flushing := none }
  | .call c => if isRecordUsage c.txn then s else { s with db := (c.run env s.db).2 }

def UsageSystem.step (config : RecorderConfig) (env : ProcessEnv) (s : UsageSystem)
    (e : UsageEvent) : Unit × UsageSystem :=
  ((), s.next config env e)

end GeoPlatform.Api
