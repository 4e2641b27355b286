import GeoPlatform.Convex.Senders

/-! What one sender's requests add to a ceiling. Every request that reaches the counters is
charged to all of them before any is looked at, so a refused request is added to the ceiling like
an answered one; only the answered ones are held to the sender's own limit. -/
namespace GeoPlatform.Convex
open Docs

variable (env : ProcessEnv)

def answeredOk : Answer → Bool
  | .authorized reply => reply.status = .ok
  | .demo reply => reply.status = .ok
  | _ => false

/-- The hits of a request that reaches the counters. -/
def requestHits (db : Db) (c : Call) : Except TxError (List Hit) :=
  match c.txn with
  | .authorize args =>
      match admission db c.now args with
      | .ok a => (fun bs => bs.map fun b => hit b.1 b.2) <$> buckets env args a
      | .error _ => .ok []
  | .authorizeDemo args =>
      (fun secret => demoHits (demoIpHash env secret args.clientIp) args) <$> env.gatewaySecret
  | _ => .ok []

def requestCost : Txn → ℕ
  | .authorizeDemo args => demoCost args.cost
  | _ => 1

/-- The sender's own limit per minute that a request meets. -/
def ownLimit (db : Db) (c : Call) : Option ℚ :=
  match c.txn with
  | .authorize args =>
      match admission db c.now args with
      | .ok a => some (perAccountLimit env args a)
      | .error _ => none
  | .authorizeDemo args => some (clampLimit args.minuteLimit 20 : ℚ)
  | _ => none

/-- The ceiling's limit for a transaction. -/
def ceilingLimit (env : ProcessEnv) : Txn → ℚ
  | .authorizeDemo args => clampLimit args.globalMinuteLimit 5000
  | _ => env.globalRateLimitPerMinute

/-- The counter that holds a sender to its own limit. -/
def Sender.limitBucket : Sender → String
  | .customer u => userBucket u
  | .site _ => ""
  | .visitor h => "demo:ip:" ++ h ++ ":minute"

/-- What a request of the sender adds to its ceiling's counter of a minute. -/
def ceilingAdds (A : Sender) (minute : ℕ) (db : Db) (c : Call) : ℕ :=
  match A.ceiling with
  | some bucket =>
      if sender env db c = some A then
        windowCount (c.run env db).2.rateLimitWindows bucket minute -
          windowCount db.rateLimitWindows bucket minute
      else 0
  | none => 0

/-- The same, for the requests answered ok alone. -/
def okCeilingAdds (A : Sender) (minute : ℕ) (db : Db) (c : Call) : ℕ :=
  if answeredOk (c.run env db).1 then ceilingAdds env A minute db c else 0

def threw : Answer → Bool
  | .threw _ => true
  | _ => false

/-- The cost of a request of the sender that falls into a minute and commits, refused or not. -/
def requested (A : Sender) (minute : ℕ) (db : Db) (c : Call) : ℕ :=
  if sender env db c = some A ∧ A.ceiling.isSome ∧ windowStart c.now MINUTE_MS = minute ∧
    threw (c.run env db).1 = false then requestCost c.txn else 0

variable {env}

/-! ### The hits of a request -/

theorem charge_hits {now : ℕ} {args : AuthorizeArgs} {db db' : Db} {a : Admission}
    {reply : AuthorizeReply} (h : charge env now args db a = .ok (reply, db')) :
    ∃ bs states, buckets env args a = .ok bs ∧
      hitAll db.rateLimitWindows now (bs.map fun b => hit b.1 b.2) =
        .ok (states, db'.rateLimitWindows) ∧
      (reply.status = .ok → states.all RateLimitState.allowed = true) := by
  obtain ⟨bs, hbs, h⟩ := except_bind_ok.mp h
  obtain ⟨⟨states, windows⟩, hhits, h⟩ := except_bind_ok.mp h
  simp only [combine_allowed] at h
  refine ⟨bs, states, hbs, ?_⟩
  split_ifs at h with hlimited hsite
  · cases h
    exact ⟨hhits, nofun⟩
  · cases h
    exact ⟨hhits, fun _ => by simpa using hlimited⟩
  · obtain ⟨⟨quota, quotas⟩, -, h⟩ := except_bind_ok.mp h
    simp only at h
    split_ifs at h with hrefused
    · cases h
      exact ⟨hhits, nofun⟩
    · cases h
      exact ⟨hhits, fun _ => by simpa using hlimited⟩

/-- What a call is whose sender is known. -/
theorem sender_eq_some {db : Db} {c : Call} {A : Sender} (h : sender env db c = some A) :
    (∃ args a, c.txn = .authorize args ∧ admission db c.now args = .ok a ∧
      A = if a.isSiteKey then .site a.key.val.userId else .customer a.key.val.userId) ∨
    ∃ args secret, c.txn = .authorizeDemo args ∧ env.gatewaySecret = .ok secret ∧
      A = .visitor (demoIpHash env secret args.clientIp) := by
  unfold sender at h
  split at h
  · rename_i args htxn
    split at h
    · rename_i a ha
      exact Or.inl ⟨args, a, htxn, ha, (Option.some.inj h).symm⟩
    · cases h
  · rename_i args htxn
    split at h
    · rename_i secret hsecret
      exact Or.inr ⟨args, secret, htxn, hsecret, (Option.some.inj h).symm⟩
    · cases h
  · cases h

/-- A request that reaches the counters throws, or is charged to each of its counters; when it is
answered ok each had room. -/
theorem sent_cases {db : Db} {c : Call} {A : Sender} (h : sender env db c = some A) :
    (∃ e, c.run env db = (.threw e, db)) ∨
      ∃ hs states, requestHits env db c = .ok hs ∧
        hitAll db.rateLimitWindows c.now hs = .ok (states, (c.run env db).2.rateLimitWindows) ∧
        threw (c.run env db).1 = false ∧
        (answeredOk (c.run env db).1 = true → states.all RateLimitState.allowed = true) := by
  obtain ⟨now, txn⟩ := c
  rcases sender_eq_some h with ⟨args, a, htxn, ha, -⟩ | ⟨args, secret, htxn, hsecret, -⟩
  · obtain rfl : txn = .authorize args := htxn
    have hcharge : authorize env now args db = charge env now args db a := by
      rw [authorize, ha]
    rcases commit_cases db .authorized (authorize env now args db) with
      ⟨e, -, hc⟩ | ⟨reply, db', hok, hc⟩
    · exact Or.inl ⟨e, hc⟩
    · rw [hcharge] at hok
      obtain ⟨bs, states, hbs, hhits, hall⟩ := charge_hits hok
      refine Or.inr ⟨bs.map fun b => hit b.1 b.2, states, ?_, ?_, ?_, ?_⟩
      · simp only [requestHits, ha, hbs]
        rfl
      · rw [run_authorize, hc]
        exact hhits
      · rw [run_authorize, hc]
        rfl
      · rw [run_authorize, hc]
        exact fun hstatus => hall (by simpa [answeredOk] using hstatus)
  · obtain rfl : txn = .authorizeDemo args := htxn
    rcases commit_cases db .demo (authorizeDemo env now args db) with
      ⟨e, -, hc⟩ | ⟨reply, db', hok, hc⟩
    · exact Or.inl ⟨e, hc⟩
    · obtain ⟨secret', states, windows, audit, hsecret', hhits, hall, rfl⟩ := authorizeDemo_ok hok
      refine Or.inr ⟨demoHits (demoIpHash env secret' args.clientIp) args, states, ?_, ?_, ?_, ?_⟩
      · simp only [requestHits, hsecret']
        rfl
      · rw [run_authorizeDemo, hc]
        exact hhits
      · rw [run_authorizeDemo, hc]
        rfl
      · rw [run_authorizeDemo, hc]
        exact fun hstatus => hall.mp (by simpa [answeredOk] using hstatus)

/-- Who sent a request, and the counters it is charged to. -/
inductive Sent (env : ProcessEnv) (db : Db) (c : Call) : Sender → List Hit → Prop
  | customer (args : AuthorizeArgs) (a : Admission) (htxn : c.txn = .authorize args)
      (ha : admission db c.now args = .ok a) (hsite : a.isSiteKey = false) :
      Sent env db c (.customer a.key.val.userId)
        [hit (keyBucket a.key.id) (perKeyLimit args a),
          hit (userBucket a.key.val.userId) (perAccountLimit env args a),
          hit (endpointBucket a.key.id args.endpoint) (perEndpointLimit env args a),
          hit globalBucket env.globalRateLimitPerMinute]
  | site (args : AuthorizeArgs) (a : Admission) (hs : List Hit) (htxn : c.txn = .authorize args)
      (ha : admission db c.now args = .ok a)
      (hhits : ∀ g ∈ hs, (∃ rest, g.bucket = "ip:" ++ rest) ∨ g.bucket = keyBucket a.key.id) :
      Sent env db c (.site a.key.val.userId) hs
  | visitor (args : DemoArgs) (secret : String) (htxn : c.txn = .authorizeDemo args)
      (hsecret : env.gatewaySecret = .ok secret) :
      Sent env db c (.visitor (demoIpHash env secret args.clientIp))
        (demoHits (demoIpHash env secret args.clientIp) args)

theorem sent_of_requestHits {db : Db} {c : Call} {A : Sender} {hs : List Hit}
    (h : sender env db c = some A) (hhs : requestHits env db c = .ok hs) : Sent env db c A hs := by
  obtain ⟨now, txn⟩ := c
  rcases sender_eq_some h with ⟨args, a, htxn, ha, rfl⟩ | ⟨args, secret, htxn, hsecret, rfl⟩
  · obtain rfl : txn = .authorize args := htxn
    simp only [requestHits, ha] at hhs
    obtain ⟨bs, hbs, rfl⟩ := except_map_ok.mp hhs
    unfold buckets at hbs
    cases hsite : a.isSiteKey with
    | false =>
      simp only [hsite, Bool.false_eq_true, if_false] at hbs ⊢
      cases hbs
      exact .customer args a rfl ha hsite
    | true =>
      simp only [hsite, if_true] at hbs ⊢
      obtain ⟨secret, -, hbs⟩ := except_bind_ok.mp hbs
      cases hbs
      refine .site args a _ rfl ha fun g hg => ?_
      obtain ⟨b, hb, rfl⟩ := List.mem_map.mp hg
      rcases List.mem_append.mp hb with hb | hb
      · rcases List.mem_pair.mp hb with rfl | rfl
        · exact Or.inl ⟨_, rfl⟩
        · exact Or.inr rfl
      · split_ifs at hb
        · obtain rfl := List.mem_singleton.mp hb
          exact Or.inl ⟨_, String.append_assoc⟩
        · cases hb
  · obtain rfl : txn = .authorizeDemo args := htxn
    simp only [requestHits, hsecret] at hhs
    cases hhs
    exact .visitor args secret rfl hsecret

/-- The digest function writes its 32 bytes as 64 hexadecimal digits. -/
def HexDigests (env : ProcessEnv) : Prop :=
  ∀ secret value, (env.hmacSha256Hex secret value).length = 64

theorem demoIpHash_length (hhex : HexDigests env) (secret clientIp : String) :
    (demoIpHash env secret clientIp).length = 32 := by
  have h := hhex secret ("demo:" ++ demoAddress clientIp)
  rw [← String.length_toList] at h
  rw [demoIpHash, slice, String.length_ofList, List.length_take, h]
  decide

/-- A request is charged to its sender's own counters and its ceiling, and to no other. -/
theorem Sent.touches (hhex : HexDigests env) {db : Db} {c : Call} {A : Sender} {hs : List Hit}
    (h : Sent env db c A hs) {g : Hit} (hg : g ∈ hs) : A.Touches db.apiKeys g.bucket := by
  cases h with
  | customer args a htxn ha hsite =>
    have hkey := (admission_ok ha).key_mem
    simp only [List.mem_cons, List.not_mem_nil, or_false] at hg
    rcases hg with rfl | rfl | rfl | rfl
    · exact Or.inl (Or.inr ⟨a.key.id, a.key.val, hkey, rfl, Or.inl rfl⟩)
    · exact Or.inl (Or.inl rfl)
    · exact Or.inl (Or.inr ⟨a.key.id, a.key.val, hkey, rfl, Or.inr ⟨args.endpoint, rfl⟩⟩)
    · exact Or.inr rfl
  | site args a hs htxn ha hhits =>
    have hkey := (admission_ok ha).key_mem
    rcases hhits g hg with hip | hb
    · exact Or.inl (Or.inl hip)
    · exact Or.inl (Or.inr ⟨a.key.id, a.key.val, hkey, rfl, Or.inl hb⟩)
  | visitor args secret htxn hsecret =>
    have hlen := demoIpHash_length hhex secret args.clientIp
    simp only [demoHits, List.mem_cons, List.not_mem_nil, or_false] at hg
    rcases hg with rfl | rfl | rfl | rfl
    · exact Or.inl ⟨hlen, _, rfl⟩
    · exact Or.inl ⟨hlen, _, rfl⟩
    · exact Or.inl ⟨hlen, ":" ++ (demoEndpoint args.endpoint ++ ":minute"), by
        simp only [String.append_assoc]⟩
    · exact Or.inr rfl

/-- The ceiling is charged last, after the sender's own counters. -/
theorem Sent.ceiling_last {db : Db} {c : Call} {A : Sender} {hs : List Hit}
    (h : Sent env db c A hs) {bucket : String} (hb : A.ceiling = some bucket) :
    ∃ own, hs = own ++ [⟨bucket, ceilingLimit env c.txn, MINUTE_MS, requestCost c.txn⟩] ∧
      ∀ g ∈ own, g.bucket ≠ bucket := by
  have hne : ∀ {p b : String}, p ∈ A.namePrefixes → p.toList <+: b.toList → b ≠ bucket := by
    rintro p b hp hstarts rfl
    exact ne_ceiling_of_starts hp hstarts hb
  cases h with
  | customer args a htxn ha hsite =>
    obtain rfl : globalBucket = bucket := Option.some.inj hb
    refine ⟨[_, _, _], by rw [htxn]; rfl, ?_⟩
    have hendpoint : "key:".toList <+: (endpointBucket a.key.id args.endpoint).toList := by
      rw [endpointBucket, String.append_assoc, String.append_assoc]
      exact prefix_append "key:" _
    simp only [List.forall_mem_cons, List.not_mem_nil, false_implies, implies_true, and_true]
    exact ⟨hne (by simp [Sender.namePrefixes]) (prefix_append "key:" _),
      hne (by simp [Sender.namePrefixes]) (prefix_append "user:" _),
      hne (by simp [Sender.namePrefixes]) hendpoint⟩
  | site args a hs htxn ha hhits => cases hb
  | visitor args secret htxn hsecret =>
    obtain rfl : demoGlobalBucket = bucket := Option.some.inj hb
    have hown : ∀ rest, "demo:ip:" ++ rest ≠ demoGlobalBucket := fun rest =>
      hne (by simp [Sender.namePrefixes]) (prefix_append "demo:ip:" rest)
    refine ⟨[_, _, _], by rw [htxn]; rfl, ?_⟩
    simp only [List.forall_mem_cons, List.not_mem_nil, false_implies, implies_true, and_true,
      demoHourBucket, String.append_assoc]
    exact ⟨hown _, hown _, hown _⟩

theorem addedBy_eq_zero {hs : List Hit} {b : String} (h : ∀ g ∈ hs, g.bucket ≠ b) (now s : ℕ) :
    addedBy hs now b s = 0 := by
  refine List.sum_eq_zero fun n hn => ?_
  obtain ⟨g, hg, rfl⟩ := List.mem_map.mp hn
  simp [Hit.addsTo, h g hg]

/-- A request adds its cost to its ceiling's counter of the minute, once. -/
theorem Sent.addedBy_ceiling {db : Db} {c : Call} {A : Sender} {hs : List Hit}
    (h : Sent env db c A hs) {bucket : String} (hb : A.ceiling = some bucket) (minute : ℕ) :
    addedBy hs c.now bucket minute =
      if windowStart c.now MINUTE_MS = minute then requestCost c.txn else 0 := by
  obtain ⟨own, rfl, hown⟩ := h.ceiling_last hb
  have hzero := addedBy_eq_zero hown c.now minute
  unfold addedBy at hzero ⊢
  rw [List.map_append, List.sum_append, hzero]
  simp [Hit.addsTo]

/-- A request of a sender with a ceiling meets the sender's own limit. -/
theorem Sent.limit_mem {db : Db} {c : Call} {A : Sender} {hs : List Hit}
    (h : Sent env db c A hs) (hA : A.ceiling.isSome = true) :
    ∃ g ∈ hs, g.bucket = A.limitBucket ∧ g.durationMs = MINUTE_MS ∧
      g.cost = requestCost c.txn ∧ ownLimit env db c = some g.limit := by
  cases h with
  | customer args a htxn ha hsite =>
    refine ⟨hit (userBucket a.key.val.userId) (perAccountLimit env args a),
      by simp, rfl, rfl, ?_, ?_⟩
    · rw [htxn]
      rfl
    · simp only [ownLimit, htxn, ha]
      rfl
  | site args a hs htxn ha hhits => cases hA
  | visitor args secret htxn hsecret =>
    let ipHash := demoIpHash env secret args.clientIp
    refine ⟨⟨"demo:ip:" ++ ipHash ++ ":minute", clampLimit args.minuteLimit 20, MINUTE_MS,
      demoCost args.cost⟩, by simp [demoHits, ipHash], rfl, rfl, ?_, ?_⟩
    · rw [htxn]
      rfl
    · simp only [ownLimit, htxn]

/-! ### Runs -/

/-- Every request that commits adds its cost to the ceiling, whatever it is answered. -/
theorem ceilingAdds_eq_requested (A : Sender) (minute : ℕ) (db : Db) (c : Call) :
    ceilingAdds env A minute db c = requested env A minute db c := by
  unfold ceilingAdds requested
  cases hA : A.ceiling with
  | none => simp
  | some bucket =>
    by_cases hs : sender env db c = some A
    · rcases sent_cases hs with ⟨e, hrun⟩ | ⟨hs', states, hhs, hhits, hthrew, -⟩
      · simp [hrun, threw]
      · have hadded := (sent_of_requestHits hs hhs).addedBy_ceiling hA minute
        have hcount := hitAll_count hhits bucket minute
        simp only [hs, hthrew, hcount, hadded, Option.isSome_some, if_true, true_and, and_true,
          Nat.add_sub_cancel_left]
    · simp [hs]

/-- The run has no cleanup. -/
def NoCleanup (cs : List Call) : Prop := ∀ c ∈ cs, c.txn ≠ .prune

theorem NoCleanup.dropsLast {cs : List Call} (h : NoCleanup cs) (bucket : String) (start : ℕ)
    (cost : Db → Call → ℕ) (db : Db) :
    Runs.DropsLast (Call.run env) (DropsWindow bucket start) cost db cs := by
  induction cs generalizing db with
  | nil => trivial
  | cons c cs ih =>
    obtain ⟨hc, hcs⟩ := List.forall_mem_cons.mp h
    exact ⟨fun hdrop => absurd hdrop.1 hc, ih hcs _⟩

theorem okCeilingAdds_pos {A : Sender} {minute : ℕ} {db : Db} {c : Call}
    (h : 0 < okCeilingAdds env A minute db c) :
    sender env db c = some A ∧ A.ceiling.isSome = true ∧ windowStart c.now MINUTE_MS = minute ∧
      threw (c.run env db).1 = false ∧ answeredOk (c.run env db).1 = true ∧
      okCeilingAdds env A minute db c = requestCost c.txn := by
  unfold okCeilingAdds at h ⊢
  split_ifs at h with hok
  · rw [ceilingAdds_eq_requested, requested] at h ⊢
    split_ifs at h with hreq
    · obtain ⟨hs, hA, hminute, hthrew⟩ := hreq
      refine ⟨hs, hA, hminute, hthrew, hok, ?_⟩
      rw [if_pos hok, if_pos ⟨hs, hA, hminute, hthrew⟩]
    · cases h
  · cases h

/-- What a sender's requests answered ok add to a ceiling's minute is at most the highest of the
sender's own limits they met. -/
theorem okCeilingAdds_cap {db : Db} {cs : List Call} (hno : NoCleanup cs) {A : Sender}
    {minute : ℕ} {L : ℚ} (hL : 0 ≤ L)
    (hlimit : ∀ x ∈ Runs.trace (Call.run env) db cs, sender env x.before x.event = some A →
      answeredOk x.reply = true → windowStart x.event.now MINUTE_MS = minute →
        ∀ l ∈ ownLimit env x.before x.event, l ≤ L) :
    (Runs.total (Call.run env) (okCeilingAdds env A minute) db cs : ℚ) ≤ L := by
  refine window_cap hL (fun x hx hpos => ?_) (hno.dropsLast A.limitBucket minute _ db)
  obtain ⟨hs, hA, hminute, hthrew, hok, hcost⟩ := okCeilingAdds_pos hpos
  rcases sent_cases hs with ⟨e, hrun⟩ | ⟨hs', states, hhs, hhits, -, hall⟩
  · rw [hrun] at hthrew
    cases hthrew
  · obtain ⟨g, hg, hbucket, hduration, hgcost, hglimit⟩ :=
      (sent_of_requestHits hs hhs).limit_mem hA
    obtain ⟨-, -, -, -, hreply⟩ := Runs.mem_trace _ hx
    refine ⟨g, counted_of_hitAll hhits (hall hok) hg, hbucket, ?_, hcost.trans hgcost.symm, ?_⟩
    · rw [hduration]
      exact hminute
    · exact hlimit x hx hs (by rw [hreply]; exact hok) hminute g.limit (by rw [hglimit]; rfl)

end GeoPlatform.Convex
