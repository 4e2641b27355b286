import GeoPlatform.Convex.PaidTraffic

/-! Once a paid plan has expired, the free tier answers as if the paid plan's requests had never
been made. -/
namespace GeoPlatform.Convex
open Docs Runs

variable {env : ProcessEnv}

/-- An `authorize` call made while the account had a paid plan, with a key of the account or with
a credential that is refused. -/
def MadeWhilePaid (userId : ℕ) (db : Db) (c : Call) : Prop :=
  ∃ args, c.txn = .authorize args ∧
    (∃ user, db.users.get userId = some user ∧ (activePlan user c.now).isSome = true) ∧
    ∀ a, admission db c.now args = .ok a → a.key.val.userId = userId

theorem MadeWhilePaid.spares {userId : ℕ} {db : Db} {c : Call} (h : MadeWhilePaid userId db c) :
    Spares userId db c := by
  obtain ⟨args, htxn, ⟨user, huser, hplan⟩, howner⟩ := h
  intro args' a htxn' ha
  rw [htxn] at htxn'
  cases htxn'
  have hadmitted := admission_ok ha
  have hmem := hadmitted.owner_mem
  rw [howner a ha, huser] at hmem
  obtain rfl := Option.some.inj hmem
  cases hsite : a.isSiteKey with
  | true => exact Or.inl rfl
  | false =>
    have hactive := hadmitted.plan
    rw [hsite, if_neg Bool.false_ne_true] at hactive
    rw [hactive]
    exact Or.inr ⟨howner a ha, hplan⟩

/-- The minutes of the events that one of the runs makes alone. -/
def ownMinutes (m : List (Side × Call)) : List ℕ :=
  (m.filter fun e => e.1 ≠ .both).map fun e => windowStart e.2.now MINUTE_MS

theorem ownMinutes_append (m n : List (Side × Call)) :
    ownMinutes (m ++ n) = ownMinutes m ++ ownMinutes n := by
  simp [ownMinutes]

/-- Two runs of one account, and the requests that follow them. The runs differ in `authorize`
calls made while a paid plan was active; by the requests that follow, the plan has expired and
the minute is later than all those calls. -/
structure DifferWhilePaid (env : ProcessEnv) (userId : ℕ) (db : Db) (m : List (Side × Call))
    (cs : List Call) : Prop where
  ordered : (m.map (fun e => e.2.now) ++ cs.map Call.now).Pairwise (· ≤ ·)
  first : ∀ pre c, pre ++ [(.first, c)] <+: m →
    MadeWhilePaid userId (final (Call.run env) db (firstRun pre)) c
  second : ∀ pre c, pre ++ [(.second, c)] <+: m →
    MadeWhilePaid userId (final (Call.run env) db (secondRun pre)) c
  requests : ∀ c ∈ cs, ∃ args, c.txn = .authorize args
  expired : ∀ user, (final (Call.run env) db (firstRun m)).users.get userId = some user →
    ∀ c ∈ cs, activePlan user c.now = none
  later : ∀ minute ∈ ownMinutes m, ∀ c ∈ cs, minute < windowStart c.now MINUTE_MS

/-- A request that both runs make falls into a minute after a call of one alone only if it spares
the free tier too. -/
def MinutesApart (env : ProcessEnv) (userId : ℕ) (db : Db) (m : List (Side × Call)) : Prop :=
  ∀ pre c, pre ++ [(.both, c)] <+: m → windowStart c.now MINUTE_MS ∈ ownMinutes pre →
    Spares userId (final (Call.run env) db (firstRun pre)) c

/-- The requests that follow get the same answers. -/
def AnsweredAlike (env : ProcessEnv) (db : Db) (m : List (Side × Call)) (cs : List Call) : Prop :=
  (trace (Call.run env) (final (Call.run env) db (firstRun m)) cs).map Entry.reply =
    (trace (Call.run env) (final (Call.run env) db (secondRun m)) cs).map Entry.reply

/-! ### The runs -/

/-- One event on both sides, in its own minute or sparing the free tier. -/
theorem Alike.both {userId : ℕ} {minutes : List ℕ} {db db' : Db} {c : Call}
    (h : Alike userId c.now minutes db db') (env : ProcessEnv)
    (hspares : windowStart c.now MINUTE_MS ∈ minutes → Spares userId db c) :
    Alike userId c.now minutes (c.run env db).2 (c.run env db').2 := by
  cases hcounts : c.txn.counts with
  | false => exact h.bystander hcounts
  | true =>
    obtain ⟨now, txn⟩ := c
    cases txn <;> simp only [Txn.counts, Bool.false_eq_true] at hcounts
    case authorizeDemo args => exact ((h.demo args).symm.demo args).symm
    case prune => exact h.prune
    case authorize args =>
      by_cases hminute : windowStart now MINUTE_MS ∈ minutes
      · -- The minute is left out already, so each side may answer as it likes.
        have hleft : windowStart now MINUTE_MS :: minutes ⊆ minutes :=
          List.cons_subset.mpr ⟨hminute, List.Subset.refl _⟩
        have hfirst := (h.spared env (hspares hminute)).mono le_rfl hleft
        have hspares' : Spares userId db' ⟨now, .authorize args⟩ := by
          intro args' a htxn ha
          rw [admission_same h.accounts] at ha
          exact hspares hminute args' a htxn ha
        exact ((hfirst.symm.spared env hspares').mono le_rfl hleft).symm
      · exact (h.authorize_both hminute args).1

/-- A call made while the account had a paid plan, on one side. -/
theorem Alike.alone {userId : ℕ} {minutes : List ℕ} {db db' : Db} {c : Call}
    (h : Alike userId c.now minutes db db') (env : ProcessEnv)
    (hpaid : MadeWhilePaid userId db c) :
    Alike userId c.now (windowStart c.now MINUTE_MS :: minutes) (c.run env db).2 db' := by
  obtain ⟨args, htxn, -⟩ := id hpaid
  obtain ⟨now, txn⟩ := c
  obtain rfl : txn = .authorize args := htxn
  exact h.spared env hpaid.spares

theorem ordered_before {m : List (Side × Call)} {ts : List ℕ}
    (h : (m.map (fun e => e.2.now) ++ ts).Pairwise (· ≤ ·)) {pre : List (Side × Call)}
    {e : Side × Call} (hpre : pre ++ [e] <+: m) : ∀ e' ∈ pre, e'.2.now ≤ e.2.now := by
  obtain ⟨post, rfl⟩ := hpre
  simp only [List.map_append, List.map_cons, List.map_nil, List.append_assoc] at h
  rw [List.pairwise_append] at h
  intro e' he'
  exact h.2.2 _ (List.mem_map_of_mem he') _ (by simp)

theorem ownMinutes_alone {side : Side} (hside : side ≠ .both) (pre : List (Side × Call))
    (c : Call) :
    windowStart c.now MINUTE_MS :: ownMinutes pre ⊆ ownMinutes (pre ++ [(side, c)]) := by
  have hown : ownMinutes [(side, c)] = [windowStart c.now MINUTE_MS] := by
    simp [ownMinutes, hside]
  rw [ownMinutes_append, hown]
  intro minute hminute
  rcases List.mem_cons.mp hminute with rfl | hold
  · exact List.mem_append_right _ (List.mem_singleton_self _)
  · exact List.mem_append_left _ hold

/-- At the end of two runs the deployments are alike, from any instant after their events. -/
theorem alike_final {userId : ℕ} {db : Db} {m : List (Side × Call)} {cs : List Call}
    (h : DifferWhilePaid env userId db m cs) (hapart : MinutesApart env userId db m) :
    ∀ now, (∀ e ∈ m, e.2.now ≤ now) →
      Alike userId now (ownMinutes m) (final (Call.run env) db (firstRun m))
        (final (Call.run env) db (secondRun m)) := by
  apply aligned_induction (Call.run env) (R := fun pre d d' => ∀ now,
    (∀ e ∈ pre, e.2.now ≤ now) → Alike userId now (ownMinutes pre) d d')
  · intro now _
    exact Alike.refl _ _ _ _
  · intro pre c hpre halike now hnow
    have hbefore := halike c.now (ordered_before h.ordered hpre)
    have hboth := hbefore.both env (hapart pre c hpre)
    apply hboth.mono (hnow (.both, c) (by simp))
    rw [ownMinutes_append]
    exact List.subset_append_left _ _
  · intro pre c hpre halike now hnow
    have hbefore := halike c.now (ordered_before h.ordered hpre)
    have halone := hbefore.alone env (h.first pre c hpre)
    exact halone.mono (hnow (.first, c) (by simp)) (ownMinutes_alone (by decide) pre c)
  · intro pre c hpre halike now hnow
    have hbefore := halike c.now (ordered_before h.ordered hpre)
    have halone := hbefore.symm.alone env (h.second pre c hpre)
    exact halone.symm.mono (hnow (.second, c) (by simp)) (ownMinutes_alone (by decide) pre c)

/-! ### The requests that follow -/

/-- A request changes the plan of no account. -/
theorem plan_kept {db : Db} {c : Call} {args : AuthorizeArgs} (htxn : c.txn = .authorize args)
    {userId : ℕ} {user' : User} (h : (c.run env db).2.users.get userId = some user') :
    ∃ user, db.users.get userId = some user ∧ ∀ t, activePlan user' t = activePlan user t := by
  cases hok : okCall env db c with
  | none =>
    rw [(authorize_not_ok htxn hok).2] at h
    exact ⟨user', h, fun _ => rfl⟩
  | some r =>
    obtain ⟨args', a⟩ := r
    rcases (okCall_outcome hok).2 with ⟨-, -, husers⟩ | ⟨-, husers, -⟩
    · rw [husers] at h
      exact ⟨user', h, fun _ => rfl⟩
    · rw [husers, countFree] at h
      split_ifs at h
      · rw [Table.get_patch] at h
        split_ifs at h
        · obtain ⟨user, huser, rfl⟩ := Option.map_eq_some_iff.mp h
          exact ⟨user, huser, fun _ => rfl⟩
        · exact ⟨user', h, fun _ => rfl⟩
      · exact ⟨user', h, fun _ => rfl⟩

/-- Requests without a plan, in minutes that are not left out, are answered alike. -/
theorem Alike.answers {userId : ℕ} {minutes : List ℕ} {cs : List Call} (env : ProcessEnv)
    (hrequests : ∀ c ∈ cs, ∃ args, c.txn = .authorize args)
    (hlater : ∀ c ∈ cs, windowStart c.now MINUTE_MS ∉ minutes)
    (hordered : (cs.map Call.now).Pairwise (· ≤ ·)) {db db' : Db}
    (hexpired : ∀ user, db.users.get userId = some user → ∀ c ∈ cs, activePlan user c.now = none)
    {now : ℕ} (hnow : ∀ c ∈ cs, now ≤ c.now) (h : Alike userId now minutes db db') :
    (trace (Call.run env) db cs).map Entry.reply =
      (trace (Call.run env) db' cs).map Entry.reply := by
  induction cs generalizing db db' now with
  | nil => rfl
  | cons c cs ih =>
    obtain ⟨⟨args, htxn⟩, hrequests'⟩ := List.forall_mem_cons.mp hrequests
    obtain ⟨hminute, hlater'⟩ := List.forall_mem_cons.mp hlater
    obtain ⟨hnow, -⟩ := List.forall_mem_cons.mp hnow
    rw [List.map_cons, List.pairwise_cons] at hordered
    have hhere := h.mono hnow (List.Subset.refl minutes)
    have hnext : ∀ c' ∈ cs, c.now ≤ c'.now :=
      fun c' hc' => hordered.1 _ (List.mem_map_of_mem hc')
    have hstill : ∀ user', (c.run env db).2.users.get userId = some user' →
        ∀ c' ∈ cs, activePlan user' c'.now = none := by
      intro user' huser' c' hc'
      obtain ⟨user, huser, hplan⟩ := plan_kept htxn huser'
      rw [hplan]
      exact hexpired user huser c' (List.mem_cons_of_mem c hc')
    obtain ⟨t, txn⟩ := c
    obtain rfl : txn = .authorize args := htxn
    obtain ⟨halike, hanswer⟩ := @Alike.authorize_both env _ _ _ _ _ hhere hminute args
    have hreply : (Call.run env db ⟨t, .authorize args⟩).1 =
        (Call.run env db' ⟨t, .authorize args⟩).1 := by
      apply hanswer
      intro a ha
      have hadmitted := admission_ok ha
      cases hsite : a.isSiteKey with
      | true => exact Or.inl rfl
      | false =>
        refine Or.inr ?_
        rintro ⟨rfl, hplan⟩
        have hnone := hexpired a.owner hadmitted.owner_mem _ List.mem_cons_self
        rw [hadmitted.plan, hsite, if_neg Bool.false_ne_true, hnone] at hplan
        cases hplan
    rw [trace_cons, trace_cons, List.map_cons, List.map_cons]
    have hrest := ih hrequests' hlater' hordered.2 hstill hnext halike
    exact congrArg₂ List.cons hreply hrest

/-- Paid traffic does not use up the free allowance. Two runs of an account that differ in
`authorize` calls made while a paid plan was active, none of which shares its minute with a later
request that counts for anyone's free tier or for another account, leave every request alike that
follows in a later minute, once the plan has expired. -/
theorem paid_traffic_spares_free_tier {userId : ℕ} {db : Db} {m : List (Side × Call)}
    {cs : List Call} (h : DifferWhilePaid env userId db m cs)
    (hapart : MinutesApart env userId db m) : AnsweredAlike env db m cs := by
  cases cs with
  | nil => rfl
  | cons c cs =>
    have hlast : ∀ e ∈ m, e.2.now ≤ c.now := by
      intro e he
      exact (List.pairwise_append.mp h.ordered).2.2 _ (List.mem_map_of_mem he) _ (by simp)
    have hordered := (List.pairwise_append.mp h.ordered).2.1
    have hnow : ∀ c' ∈ c :: cs, c.now ≤ c'.now := by
      rw [List.map_cons, List.pairwise_cons] at hordered
      exact List.forall_mem_cons.mpr
        ⟨le_rfl, fun c' hc' => hordered.1 _ (List.mem_map_of_mem hc')⟩
    have hlater : ∀ c' ∈ c :: cs, windowStart c'.now MINUTE_MS ∉ ownMinutes m :=
      fun c' hc' hminute => lt_irrefl _ (h.later _ hminute c' hc')
    exact (alike_final h hapart c.now hlast).answers env h.requests hlater hordered h.expired hnow

/-! ### An account whose plan lapses within a minute -/

/-- One route request a minute. -/
def oneRouteEnv : ProcessEnv := { testEnv with ROUTE_RATE_LIMIT_PER_MINUTE := .finite 1 }

/-- An account with one free request left, whose plan ends half a minute past the epoch. -/
def lapsingAccount : Db where
  users := Table.empty.insert { plan := some .starter, planExpiresAt := some 30000,
                                freeTierActivatedAt := some 0, freeRequestsUsed := some 499 }
  apiKeys := Table.empty.insert { userId := 0, keyHash := "free-key" }

def routeRequest (now : ℕ) : Call := ⟨now, .authorize { freeRequest with endpoint := some "route" }⟩

theorem routeRequest_made_while_paid : MadeWhilePaid 0 lapsingAccount (routeRequest 10000) := by
  refine ⟨_, rfl, ⟨_, rfl, by decide +kernel⟩, ?_⟩
  intro a ha
  have hmem := Table.get_eq_some.mp (admission_ok ha).key_mem
  have hkey : (⟨a.key.id, a.key.val⟩ : Doc ApiKey) = ⟨0, { userId := 0, keyHash := "free-key" }⟩ :=
    List.mem_singleton.mp hmem
  exact congrArg (fun d => d.val.userId) hkey

/-- A request before the plan ends, in the first run alone, and one after it within the minute. -/
def lapsingRuns : List (Side × Call) :=
  [(.first, routeRequest 10000), (.both, routeRequest 40000)]

theorem lapsingRuns_differ :
    DifferWhilePaid oneRouteEnv 0 lapsingAccount lapsingRuns [routeRequest 70000] := by
  refine ⟨by decide, ?_, ?_, ?_, ?_, by decide⟩
  · rintro pre c ⟨post, hpost⟩
    unfold lapsingRuns at hpost
    rcases pre with _ | ⟨e, _ | ⟨e', pre⟩⟩
    · cases hpost
      exact routeRequest_made_while_paid
    · cases hpost
    · simp at hpost
  · rintro pre c ⟨post, hpost⟩
    unfold lapsingRuns at hpost
    rcases pre with _ | ⟨e, _ | ⟨e', pre⟩⟩
    · cases hpost
    · cases hpost
    · simp at hpost
  · intro c hc
    rw [List.mem_singleton.mp hc]
    exact ⟨_, rfl⟩
  · intro user huser c hc
    have hlapsed : ((final (Call.run oneRouteEnv) lapsingAccount
        (firstRun lapsingRuns)).users.get 0).all (fun u => activePlan u 70000 = none) = true := by
      decide +kernel
    rw [huser] at hlapsed
    rw [List.mem_singleton.mp hc]
    simpa [routeRequest] using hlapsed

/-- The request made before the plan ends uses up the minute, so the one made after it is refused
and keeps the last free request for the next minute; without the first, the second one is answered
and leaves none. -/
theorem lapsing_minute_is_shared : ¬ ∀ (env : ProcessEnv) (userId : ℕ) (db : Db)
    (m : List (Side × Call)) (cs : List Call),
    DifferWhilePaid env userId db m cs → AnsweredAlike env db m cs := by
  intro h
  have hanswers := h _ _ _ _ _ lapsingRuns_differ
  have hdifferent : ¬ (trace (Call.run oneRouteEnv) (final (Call.run oneRouteEnv) lapsingAccount
      (firstRun lapsingRuns)) [routeRequest 70000]).map Entry.reply =
        (trace (Call.run oneRouteEnv) (final (Call.run oneRouteEnv) lapsingAccount
          (secondRun lapsingRuns)) [routeRequest 70000]).map Entry.reply := by decide +kernel
  exact hdifferent hanswers

theorem paid_traffic_spares_lapsing_account :
    AnsweredAlike oneRouteEnv lapsingAccount [(.first, routeRequest 10000)]
      [routeRequest 70000, routeRequest 130000] := by
  apply @paid_traffic_spares_free_tier oneRouteEnv 0
  · refine ⟨by decide, ?_, ?_, ?_, ?_, by decide⟩
    · rintro pre c ⟨post, hpost⟩
      rcases pre with _ | ⟨e, pre⟩
      · cases hpost
        exact routeRequest_made_while_paid
      · simp at hpost
    · rintro pre c ⟨post, hpost⟩
      rcases pre with _ | ⟨e, pre⟩
      · cases hpost
      · simp at hpost
    · intro c hc
      rcases List.mem_pair.mp hc with rfl | rfl <;> exact ⟨_, rfl⟩
    · intro user huser
      have hlapsed : ((final (Call.run oneRouteEnv) lapsingAccount
          (firstRun [(.first, routeRequest 10000)])).users.get 0).all fun u =>
            activePlan u 70000 = none && activePlan u 130000 = none := by decide +kernel
      rw [huser] at hlapsed
      simpa [routeRequest] using hlapsed
  · rintro pre c ⟨post, hpost⟩
    rcases pre with _ | ⟨e, pre⟩
    · cases hpost
    · simp at hpost

end GeoPlatform.Convex
