import GeoPlatform.Convex.Backend

/-! The standing of a key hash. The read-only `describe` answers it, and `authorize` refuses on it
before it looks at the endpoint; both ladders are compared with the one of `standing`. -/
namespace GeoPlatform.Convex
open Docs

variable {env : ProcessEnv} {now : ℕ} {db : Db}

/-! ### Standings -/

/-- What a key hash is worth at an instant. -/
inductive Standing where
  | invalid
  | revoked
  | expired
  | paymentRequired
  | good (key : Doc ApiKey) (owner : User)

/-- The owner of a key, unless it is deleted or locked. -/
def enabledOwner (db : Db) (key : Doc ApiKey) : Option User :=
  (db.users.get key.val.userId).filter fun owner => owner.disabledAt.isNone

def keyStanding (db : Db) (now : ℕ) (key : Doc ApiKey) : Standing :=
  if key.val.revokedAt.isSome then .revoked
  else if key.val.expiresAt.any (· ≤ now) then .expired
  else match enabledOwner db key with
    | none => .revoked
    | some owner =>
        if key.val.isSiteKey || hasKeyAccess owner now then .good key owner else .paymentRequired

def standing (db : Db) (now : ℕ) (hash : String) : Except TxError Standing :=
  match db.apiKeys.unique (isKeyHash hash) with
  | .several => .error .notUnique
  | .none => .ok .invalid
  | .one key => .ok (keyStanding db now key)

def Standing.status : Standing → AuthorizeStatus
  | .invalid => .invalid
  | .revoked => .revoked
  | .expired => .expired
  | .paymentRequired => .paymentRequired
  | .good _ _ => .ok

def DescribeReply.status : DescribeReply → AuthorizeStatus
  | .invalid => .invalid
  | .revoked => .revoked
  | .expired => .expired
  | .paymentRequired => .paymentRequired
  | .ok _ => .ok

/-- A stored endpoint list covers an endpoint, the legacy value standing for geocoding. -/
def Covers (stored : List StoredEndpoint) : ApiEndpoint → Prop
  | .geocode => .geocode ∈ stored ∨ .reverseGeocode ∈ stored
  | .route => .route ∈ stored

theorem mem_normalizeEndpoints (stored : List StoredEndpoint) (e : ApiEndpoint) :
    e ∈ normalizeEndpoints (stored.map StoredEndpoint.name) ↔ Covers stored e := by
  have hmem : e ∈ normalizeEndpoints (stored.map StoredEndpoint.name) ↔
      ∃ s ∈ stored, normalizeEndpoint s.name = some e := by
    cases e <;> simp [normalizeEndpoints, API_ENDPOINTS]
  rw [hmem]
  have hname : ∀ s : StoredEndpoint, normalizeEndpoint s.name = some e ↔
      s = storedEndpoint e ∨ (s = .reverseGeocode ∧ e = .geocode) := by
    intro s
    cases s <;> cases e <;> decide
  simp only [hname]
  cases e <;> simp [Covers, storedEndpoint, and_or_left, exists_or]

/-! ### Both lookups read the standing -/

/-- A key's endpoints as `describe` lists them. -/
def listedEndpoints (key : Doc ApiKey) : Option (List ApiEndpoint) :=
  key.val.endpoints.map fun es => normalizeEndpoints (es.map StoredEndpoint.name)

def KeyDescription.of (env : ProcessEnv) (key : Doc ApiKey) : KeyDescription where
  keyId := key.id
  userId := key.val.userId
  isSiteKey := key.val.isSiteKey
  rateLimitPerMinute := key.val.rateLimitPerMinute
  accountLimit := env.accountRateLimitPerMinute
  routeLimit := env.routeRateLimitPerMinute
  endpoints := listedEndpoints key

def Standing.describe (env : ProcessEnv) : Standing → DescribeReply
  | .invalid => .invalid
  | .revoked => .revoked
  | .expired => .expired
  | .paymentRequired => .paymentRequired
  | .good key _ => .ok (.of env key)

theorem Standing.describe_status (env : ProcessEnv) (s : Standing) :
    (s.describe env).status = s.status := by
  cases s <;> rfl

theorem describe_eq (env : ProcessEnv) (now : ℕ) (hash : String) (db : Db) :
    describe env now hash db = (standing db now hash).map (Standing.describe env) := by
  unfold GeoPlatform.Convex.describe standing
  cases h : db.apiKeys.unique (isKeyHash hash) with
  | several => rfl
  | none => rfl
  | one key =>
    simp only [Except.map, keyStanding]
    by_cases hrevoked : key.val.revokedAt.isSome
    · simp [hrevoked, Standing.describe]
    by_cases hexpired : key.val.expiresAt.any (· ≤ now)
    · simp only [hrevoked, hexpired, if_true, Bool.false_eq_true, if_false, Standing.describe]
    simp only [hrevoked, hexpired, Bool.false_eq_true, if_false, enabledOwner]
    cases howner : db.users.get key.val.userId with
    | none => rfl
    | some owner =>
      cases hdisabled : owner.disabledAt with
      | some t => simp [Option.filter, hdisabled, Standing.describe]
      | none =>
        cases hsite : key.val.isSiteKey <;> cases haccess : hasKeyAccess owner now <;>
          simp [Option.filter, hdisabled, hsite, haccess, Standing.describe, KeyDescription.of,
            listedEndpoints]

/-- The key's list is not null and lacks the endpoint. -/
def OutOfScope (listed : Option (List ApiEndpoint)) (endpoint : Option String) : Prop :=
  ∃ es, listed = some es ∧ ∀ e ∈ es, some e.name ≠ endpoint

/-- The last test of `authorize`, on a key in good standing. -/
theorem checkScope_good (now : ℕ) (args : AuthorizeArgs) {key : Doc ApiKey} {owner : User}
    (haccess : (key.val.isSiteKey || hasKeyAccess owner now) = true) :
    (¬ OutOfScope (listedEndpoints key) args.endpoint ∧
      ∃ a, checkScope now args key false owner = .ok a) ∨
    (OutOfScope (listedEndpoints key) args.endpoint ∧
      ∃ r, checkScope now args key false owner = .error (.refuse r) ∧
        r.reply.status = .endpointNotAllowed ∧ r.reply.allowedEndpoints = listedEndpoints key) := by
  have hpaid : (!(key.val.isSiteKey && !false) && !hasKeyAccess owner now) = false := by
    revert haccess
    cases key.val.isSiteKey <;> cases hasKeyAccess owner now <;> simp
  simp only [checkScope, hpaid, Bool.false_eq_true, if_false, OutOfScope, listedEndpoints]
  cases hscope : key.val.endpoints with
  | none => exact Or.inl ⟨by simp, _, rfl⟩
  | some stored =>
    simp only [Option.map_some, Option.some.injEq, exists_eq_left']
    cases hany : (normalizeEndpoints (stored.map StoredEndpoint.name)).any
        fun e => some e.name = args.endpoint with
    | true =>
      obtain ⟨e, he, hname⟩ := List.any_eq_true.mp hany
      exact Or.inl ⟨fun hnone => hnone e he (of_decide_eq_true hname), _, rfl⟩
    | false =>
      refine Or.inr ⟨fun e he hname => ?_, _, rfl, rfl, rfl⟩
      have := List.any_eq_false.mp hany e he
      exact this (decide_eq_true hname)

/-- What `authorize` makes of a key's standing: a credential that is not good is refused with it,
and a good one goes to the endpoint scope. -/
theorem admission_standing {args : AuthorizeArgs} (hkind : args.kind = .key) {s : Standing}
    (hs : standing db now args.hash = .ok s) :
    (s.status ≠ .ok ∧ ∃ r, admission db now args = .error (.refuse r) ∧
      r.reply.status = s.status) ∨
    ∃ key owner, s = .good key owner ∧ (key.val.isSiteKey || hasKeyAccess owner now) = true ∧
      admission db now args = checkScope now args key false owner := by
  unfold standing at hs
  simp only [admission, findKey, hkind]
  cases hunique : db.apiKeys.unique (isKeyHash args.hash) with
  | several =>
    rw [hunique] at hs
    cases hs
  | none =>
    rw [hunique] at hs
    cases hs
    exact Or.inl ⟨by simp [Standing.status], _, rfl, rfl⟩
  | one key =>
    rw [hunique] at hs
    obtain rfl : keyStanding db now key = s := by simpa using hs
    simp only [bind, Except.bind, checkKey, keyStanding]
    by_cases hrevoked : key.val.revokedAt.isSome
    · simp only [hrevoked, if_true]
      exact Or.inl ⟨by simp [Standing.status], _, rfl, rfl⟩
    by_cases hexpired : key.val.expiresAt.any (· ≤ now)
    · simp only [hrevoked, hexpired, if_true, Bool.false_eq_true, if_false]
      exact Or.inl ⟨by simp [Standing.status], _, rfl, rfl⟩
    simp only [hrevoked, hexpired, Bool.false_eq_true, if_false, enabledOwner]
    cases howner : db.users.get key.val.userId with
    | none => exact Or.inl ⟨by simp [Standing.status], _, rfl, rfl⟩
    | some owner =>
      cases hdisabled : owner.disabledAt with
      | some t =>
        simp only [Option.filter, hdisabled, Option.isNone_some, Option.isSome_some, if_true,
          Bool.false_eq_true, if_false]
        exact Or.inl ⟨by simp [Standing.status], _, rfl, rfl⟩
      | none =>
        simp only [Option.filter, hdisabled, Option.isNone_none, Option.isSome_none, if_true,
          Bool.false_eq_true, if_false]
        split_ifs with haccess
        · exact Or.inr ⟨key, owner, rfl, haccess, rfl⟩
        · -- Neither a site key nor paid for: `authorize` stops at the same test.
          simp only [Bool.or_eq_true, not_or, Bool.not_eq_true] at haccess
          refine Or.inl ⟨by simp [Standing.status], ?_⟩
          simp only [checkScope, haccess.1, haccess.2, Bool.false_and, Bool.not_false,
            Bool.true_and, if_true]
          exact ⟨_, rfl, rfl⟩

/-! ### The answers of `authorize` -/

/-- `authorize` commits with a status. -/
def Answers (env : ProcessEnv) (now : ℕ) (args : AuthorizeArgs) (db : Db)
    (status : AuthorizeStatus) : Prop :=
  ∃ reply db', authorize env now args db = .ok (reply, db') ∧ reply.status = status

/-- `describe` answers with a status. -/
def Describes (env : ProcessEnv) (now : ℕ) (hash : String) (db : Db)
    (status : AuthorizeStatus) : Prop :=
  ∃ reply, describe env now hash db = .ok reply ∧ reply.status = status

theorem answers_of_refuse {args : AuthorizeArgs} {r : Refusal}
    (h : admission db now args = .error (.refuse r)) (status : AuthorizeStatus) :
    Answers env now args db status ↔ r.reply.status = status := by
  simp only [Answers, authorize, h]
  constructor
  · rintro ⟨reply, db', hok, hstatus⟩
    cases hok
    exact hstatus
  · exact fun hstatus => ⟨_, _, rfl, hstatus⟩

/-- A counted request is answered ok, or refused by a rate limit or a quota. -/
theorem charge_status {args : AuthorizeArgs} {a : Admission} {reply : AuthorizeReply} {db' : Db}
    (h : charge env now args db a = .ok (reply, db')) :
    reply.status = .ok ∨ reply.status = .rateLimited ∨ reply.status = .quotaExceeded := by
  obtain ⟨bs, -, h⟩ := except_bind_ok.mp h
  obtain ⟨⟨states, windows⟩, -, h⟩ := except_bind_ok.mp h
  simp only at h
  split_ifs at h with hlimited hsite
  · cases h
    exact Or.inr (Or.inl rfl)
  · cases h
    exact Or.inl rfl
  · obtain ⟨⟨quota, quotas⟩, -, h⟩ := except_bind_ok.mp h
    simp only at h
    split_ifs at h with hrefused
    · cases h
      exact Or.inr (Or.inr rfl)
    · cases h
      exact Or.inl rfl

theorem answers_of_admitted {args : AuthorizeArgs} {a : Admission} {status : AuthorizeStatus}
    (h : admission db now args = .ok a) (hstatus : Answers env now args db status) :
    status = .ok ∨ status = .rateLimited ∨ status = .quotaExceeded := by
  obtain ⟨reply, db', hok, rfl⟩ := hstatus
  simp only [authorize, h] at hok
  exact charge_status hok

/-! ### Agreement -/

theorem describes_standing {hash : String} {status : AuthorizeStatus} :
    Describes env now hash db status ↔
      ∃ s, standing db now hash = .ok s ∧ s.status = status := by
  simp only [Describes, describe_eq]
  cases standing db now hash with
  | error e => simp [Except.map]
  | ok s => simp [Except.map, Standing.describe_status]

/-- The refusals both lookups share. -/
def refusedStatuses : List AuthorizeStatus := [.invalid, .revoked, .expired, .paymentRequired]

theorem describes_iff_answers {args : AuthorizeArgs} (hkind : args.kind = .key)
    {status : AuthorizeStatus} (hstatus : status ∈ refusedStatuses) :
    Describes env now args.hash db status ↔ Answers env now args db status := by
  rw [describes_standing]
  cases hs : standing db now args.hash with
  | error e =>
    have hthrow : admission db now args = .error (.throw e) := by
      unfold standing at hs
      split at hs
      · rename_i hseveral
        cases hs
        simp only [admission, findKey, hkind, hseveral]
        rfl
      · cases hs
      · cases hs
    constructor
    · rintro ⟨s, hok, -⟩
      cases hok
    · rintro ⟨reply, db', hok, -⟩
      simp only [authorize, hthrow] at hok
      cases hok
  | ok s =>
    simp only [Except.ok.injEq, exists_eq_left']
    rcases admission_standing hkind hs with ⟨-, r, hr, hrs⟩ | ⟨key, owner, rfl, haccess, hadm⟩
    · rw [answers_of_refuse hr, hrs]
    · -- A key in good standing is refused by its scope or reaches the counters.
      have hok : Standing.status (.good key owner) ≠ status := by
        rintro rfl
        simp [refusedStatuses, Standing.status] at hstatus
      refine iff_of_false hok fun hanswers => ?_
      rcases checkScope_good now args haccess with
        ⟨-, a, ha⟩ | ⟨-, r, hr, hrs, -⟩
      · rcases answers_of_admitted (hadm.trans ha) hanswers with rfl | rfl | rfl <;>
          simp [refusedStatuses] at hstatus
      · rw [answers_of_refuse (hadm.trans hr), hrs] at hanswers
        subst hanswers
        simp [refusedStatuses] at hstatus

theorem unique_of_standing {hash : String} {key : Doc ApiKey} {owner : User}
    (h : standing db now hash = .ok (.good key owner)) :
    db.apiKeys.unique (isKeyHash hash) = .one key := by
  unfold standing at h
  split at h
  · cases h
  · cases h
  · rename_i key' hone
    have hgood : keyStanding db now key' = .good key owner := by simpa using h
    unfold keyStanding at hgood
    split_ifs at hgood
    split at hgood
    · cases hgood
    · split_ifs at hgood
      cases hgood
      exact hone

/-- The two lookups refuse the same credentials with the same status, and a described key is
refused for exactly the endpoints its description leaves out. Both fold the legacy endpoint. -/
theorem describe_authorize_agree (env : ProcessEnv) (now : ℕ) (args : AuthorizeArgs) (db : Db)
    (hkind : args.kind = .key) :
    (∀ status ∈ refusedStatuses,
      (Describes env now args.hash db status ↔ Answers env now args db status)) ∧
    ∀ d, describe env now args.hash db = .ok (.ok d) →
      (Answers env now args db .endpointNotAllowed ↔ OutOfScope d.endpoints args.endpoint) ∧
      (∀ reply db', authorize env now args db = .ok (reply, db') →
        reply.status = .endpointNotAllowed → reply.allowedEndpoints = d.endpoints) ∧
      ∃ key, db.apiKeys.unique (isKeyHash args.hash) = .one key ∧
        (d.endpoints = none ↔ key.val.endpoints = none) ∧
        ∀ stored es, key.val.endpoints = some stored → d.endpoints = some es →
          ∀ e, e ∈ es ↔ Covers stored e := by
  refine ⟨fun status hstatus => describes_iff_answers hkind hstatus, fun d hd => ?_⟩
  rw [describe_eq] at hd
  obtain ⟨s, hs, hsd⟩ : ∃ s, standing db now args.hash = .ok s ∧ s.describe env = .ok d := by
    cases hs : standing db now args.hash with
    | error e => simp [hs, Except.map] at hd
    | ok s => exact ⟨s, rfl, by simpa [hs, Except.map] using hd⟩
  obtain ⟨key, owner, rfl⟩ : ∃ key owner, s = .good key owner := by
    cases s with
    | good key owner => exact ⟨key, owner, rfl⟩
    | _ => cases hsd
  cases hsd
  rcases admission_standing hkind hs with ⟨hbad, -⟩ | ⟨key', owner', hgood, haccess, hadm⟩
  · exact absurd rfl hbad
  cases hgood
  have hscope := checkScope_good now args haccess
  refine ⟨?_, ?_, key, unique_of_standing hs, ?_, ?_⟩
  · rcases hscope with ⟨hin, a, ha⟩ | ⟨hout, r, hr, hrs, -⟩
    · refine iff_of_false (fun hanswers => ?_) hin
      rcases answers_of_admitted (hadm.trans ha) hanswers with h | h | h <;> cases h
    · exact iff_of_true ((answers_of_refuse (hadm.trans hr) _).mpr hrs) hout
  · intro reply db' hok hstatus
    rcases hscope with ⟨-, a, ha⟩ | ⟨-, r, hr, -, hlist⟩
    · rcases answers_of_admitted (hadm.trans ha) ⟨reply, db', hok, hstatus⟩ with h | h | h <;>
        cases h
    · simp only [authorize, hadm, hr] at hok
      cases hok
      exact hlist
  · simp [KeyDescription.of, listedEndpoints]
  · intro stored es hstored hes e
    have hlist : normalizeEndpoints (stored.map StoredEndpoint.name) = es := by
      simpa [KeyDescription.of, listedEndpoints, hstored] using hes
    rw [← hlist]
    exact mem_normalizeEndpoints stored e

def legacyKey : ApiKey where
  userId := 0
  keyHash := "free-key"
  endpoints := some [.reverseGeocode]

/-- An account of the free tier whose key still has the legacy endpoint. -/
def legacyAccount : Db where
  users := Table.empty.insert { freeTierActivatedAt := some 0 }
  apiKeys := Table.empty.insert legacyKey

/-- The legacy key is described as a geocoding key and refused for routes. -/
theorem legacy_key_agrees :
    Answers testEnv 5 { freeRequest with endpoint := some "route" } legacyAccount
        .endpointNotAllowed ∧
      Describes testEnv 5 freeRequest.hash legacyAccount .ok := by
  have hd : describe testEnv 5 freeRequest.hash legacyAccount =
      .ok (.ok (.of testEnv ⟨0, legacyKey⟩)) := by rfl
  have h := (describe_authorize_agree testEnv 5 { freeRequest with endpoint := some "route" }
    legacyAccount rfl).2 _ hd
  exact ⟨h.1.mpr ⟨[.geocode], by decide +kernel, by decide⟩, _, hd, rfl⟩

end GeoPlatform.Convex
