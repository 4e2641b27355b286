import GeoPlatform.Convex.Ceilings
import GeoPlatform.Library.RunPairs

/-! One sender's refused requests and everybody else's answers. Two deployments that differ in the
refused requests of one sender differ in that sender's own counters and in its ceiling alone, so
the others are answered alike for as long as the ceiling has room for them. -/
namespace GeoPlatform.Convex
open Docs

/-! ### Counter tables that differ in some buckets -/

/-- The second table has counted everything the first has, and more in the touched buckets only. -/
structure Ahead (touched : String → Prop) (t u : Table RateLimitWindow) : Prop where
  clash : ∀ b s, 1 < (t.query (isWindow b s)).length ↔ 1 < (u.query (isWindow b s)).length
  same : ∀ b s, ¬ touched b → windowCount t b s = windowCount u b s
  le : ∀ b s, windowCount t b s ≤ windowCount u b s

theorem Ahead.refl (touched : String → Prop) (t : Table RateLimitWindow) : Ahead touched t t :=
  ⟨fun _ _ => Iff.rfl, fun _ _ _ => rfl, fun _ _ => le_rfl⟩

variable {touched : String → Prop} {t t' u u' : Table RateLimitWindow} {now : ℕ}

/-- A hit throws exactly when its counter has several rows. -/
theorem hitWindow_cases (t : Table RateLimitWindow) (now : ℕ) (h : Hit) :
    (1 < (t.query (isWindow h.bucket (windowStart now h.durationMs))).length ∧
      hitWindow t now h = .error .notUnique) ∨
    (¬ 1 < (t.query (isWindow h.bucket (windowStart now h.durationMs))).length ∧
      ∃ state t', hitWindow t now h = .ok (state, t')) := by
  rw [← Table.unique_eq_several]
  cases hu : t.unique (isWindow h.bucket (windowStart now h.durationMs)) with
  | none =>
    refine Or.inr ⟨nofun, ?_⟩
    simp only [hitWindow, hu]
    exact ⟨_, _, rfl⟩
  | one d =>
    refine Or.inr ⟨nofun, ?_⟩
    simp only [hitWindow, hu]
    exact ⟨_, _, rfl⟩
  | several => exact Or.inl ⟨rfl, by simp only [hitWindow, hu]⟩

theorem hitAll_cons_ok {h : Hit} {hs : List Hit} {state : RateLimitState}
    {states : List RateLimitState} (hhit : hitWindow t now h = .ok (state, t'))
    (hrest : hitAll t' now hs = .ok (states, u)) :
    hitAll t now (h :: hs) = .ok (state :: states, u) :=
  except_bind_ok.mpr ⟨_, hhit, except_bind_ok.mpr ⟨_, hrest, rfl⟩⟩

theorem hitAll_cons_error {h : Hit} {hs : List Hit} {state : RateLimitState} {e : TxError}
    (hhit : hitWindow t now h = .ok (state, t')) (hrest : hitAll t' now hs = .error e) :
    hitAll t now (h :: hs) = .error e := by
  simp only [hitAll, hhit, hrest, bind, Except.bind]

/-- No hit gives a counter a second row. -/
theorem hitWindow_clash {h : Hit} {state : RateLimitState}
    (hok : hitWindow t now h = .ok (state, t')) (b : String) (s : ℕ) :
    1 < (t'.query (isWindow b s)).length ↔ 1 < (t.query (isWindow b s)).length := by
  unfold hitWindow at hok
  simp only at hok
  split at hok
  · cases hok
  · rename_i d hd
    cases hok
    have hpatch := @Table.query_patch _ t (isWindow b s)
      (fun w => { w with count := d.val.count + h.cost }) (fun w => rfl) d.id
    rw [hpatch, List.length_map]
  · rename_i hnone
    cases hok
    rw [Table.query_insert]
    by_cases hw : isWindow b s ⟨h.bucket, windowStart now h.durationMs, h.cost⟩ = true
    · have hkey : h.bucket = b ∧ windowStart now h.durationMs = s := by simpa [isWindow] using hw
      have hempty := Table.unique_none hnone
      rw [hkey.1, hkey.2] at hempty
      simp [hempty, hw]
    · simp [hw]

theorem hitAll_clash {hs : List Hit} {states : List RateLimitState}
    (hok : hitAll t now hs = .ok (states, t')) (b : String) (s : ℕ) :
    1 < (t'.query (isWindow b s)).length ↔ 1 < (t.query (isWindow b s)).length := by
  induction hs generalizing t states with
  | nil =>
    cases hok
    exact Iff.rfl
  | cons h hs ih =>
    obtain ⟨⟨state, v⟩, hhit, hok⟩ := except_bind_ok.mp hok
    obtain ⟨⟨states, v'⟩, hrest, hok⟩ := except_bind_ok.mp hok
    cases hok
    exact (ih hrest).trans (hitWindow_clash hhit b s)

/-- Hits on touched buckets put the second table further ahead. -/
theorem Ahead.hitAll_right (h : Ahead touched t u) {hs : List Hit} {states : List RateLimitState}
    (hok : hitAll u now hs = .ok (states, u')) (htouched : ∀ g ∈ hs, touched g.bucket) :
    Ahead touched t u' := by
  refine ⟨fun b s => (h.clash b s).trans (hitAll_clash hok b s).symm,
    fun b s hb => ?_, fun b s => ?_⟩
  · have hzero : addedBy hs now b s = 0 :=
      addedBy_eq_zero (fun g hg (hgb : g.bucket = b) => hb (hgb ▸ htouched g hg)) now s
    rw [hitAll_count hok, hzero, Nat.add_zero]
    exact h.same b s hb
  · rw [hitAll_count hok]
    exact (h.le b s).trans (Nat.le_add_right _ _)

/-- The same hit on both tables. -/
theorem Ahead.hitWindow_both {h : Hit} {st su : RateLimitState} (hahead : Ahead touched t u)
    (ht : hitWindow t now h = .ok (st, t')) (hu : hitWindow u now h = .ok (su, u')) :
    Ahead touched t' u' := by
  refine ⟨fun b s => ?_, fun b s hb => ?_, fun b s => ?_⟩
  · rw [hitWindow_clash ht, hitWindow_clash hu]
    exact hahead.clash b s
  · rw [(hitWindow_ok ht).1, (hitWindow_ok hu).1, hahead.same b s hb]
  · rw [(hitWindow_ok ht).1, (hitWindow_ok hu).1]
    exact Nat.add_le_add_right (hahead.le b s) _

/-- What the fuller counter allows, the emptier one does. -/
theorem allowed_of_le {h : Hit} {st su : RateLimitState} {start m n : ℕ} (hmn : m ≤ n)
    (hst : st = rateLimitState h start (m + h.cost))
    (hsu : su = rateLimitState h start (n + h.cost)) (hallowed : su.allowed = true) :
    st.allowed = true := by
  rw [hsu] at hallowed
  rw [hst]
  simp only [rateLimitState, decide_eq_true_eq] at hallowed ⊢
  exact le_trans (by exact_mod_cast Nat.add_le_add_right hmn _) hallowed

/-- One hit's verdict on both tables. The charged bucket must still have room in the second where
it is touched; `n` is what its counter there grows to. -/
theorem Ahead.allowed_both {h : Hit} {st su : RateLimitState} {n : ℕ}
    (hahead : Ahead touched t u) (ht : hitWindow t now h = .ok (st, t'))
    (hu : hitWindow u now h = .ok (su, u'))
    (hn : windowCount u h.bucket (windowStart now h.durationMs) + h.cost ≤ n)
    (hroom : su.allowed = false → touched h.bucket → (n : ℚ) ≤ h.limit) :
    st.allowed = su.allowed := by
  obtain ⟨-, hst⟩ := hitWindow_ok ht
  obtain ⟨-, hsu⟩ := hitWindow_ok hu
  cases hallowed : su.allowed with
  | true => exact allowed_of_le (hahead.le _ _) hst hsu hallowed
  | false =>
    by_cases htouch : touched h.bucket
    · have hfits : ((windowCount u h.bucket (windowStart now h.durationMs) + h.cost : ℕ) : ℚ)
          ≤ h.limit := le_trans (by exact_mod_cast hn) (hroom hallowed htouch)
      rw [hsu] at hallowed
      simp only [rateLimitState, decide_eq_false_iff_not] at hallowed
      exact absurd hfits hallowed
    · rw [hst, hahead.same _ _ htouch, ← hsu]
      exact hallowed

/-- The same hits on both tables. They throw alike, and are allowed alike where each touched
bucket still has room in the second table. -/
theorem Ahead.hitAll_both (hahead : Ahead touched t u) (hs : List Hit) :
    (hitAll t now hs = .error .notUnique ∧ hitAll u now hs = .error .notUnique) ∨
      ∃ st t' su u', hitAll t now hs = .ok (st, t') ∧
        hitAll u now hs = .ok (su, u') ∧ Ahead touched t' u' ∧
        ((su.all RateLimitState.allowed = false → ∀ g ∈ hs, touched g.bucket →
            (windowCount u' g.bucket (windowStart now g.durationMs) : ℚ) ≤ g.limit) →
          st.all RateLimitState.allowed = su.all RateLimitState.allowed) := by
  induction hs generalizing t u with
  | nil => exact Or.inr ⟨[], t, [], u, rfl, rfl, hahead, fun _ => rfl⟩
  | cons h hs ih =>
    have hclash := hahead.clash h.bucket (windowStart now h.durationMs)
    rcases hitWindow_cases t now h with ⟨hsev, ht⟩ | ⟨hsev, st, t₁, ht⟩
    · rcases hitWindow_cases u now h with ⟨-, hu⟩ | ⟨hno, -⟩
      · exact Or.inl ⟨by rw [hitAll, ht]; rfl, by rw [hitAll, hu]; rfl⟩
      · exact absurd (hclash.mp hsev) hno
    · rcases hitWindow_cases u now h with ⟨hsev', -⟩ | ⟨-, su, u₁, hu⟩
      · exact absurd (hclash.mpr hsev') hsev
      · rcases ih (hahead.hitWindow_both ht hu) with
          ⟨ht', hu'⟩ | ⟨sts, t', sus, u', ht', hu', hahead', hverdict⟩
        · exact Or.inl ⟨hitAll_cons_error ht ht', hitAll_cons_error hu hu'⟩
        · refine Or.inr ⟨st :: sts, t', su :: sus, u', hitAll_cons_ok ht ht',
            hitAll_cons_ok hu hu', hahead', fun hroom => ?_⟩
          have hrest : sts.all RateLimitState.allowed = sus.all RateLimitState.allowed :=
            hverdict fun hsus g hg =>
              hroom (by rw [List.all_cons, hsus, Bool.and_false]) g (List.mem_cons_of_mem _ hg)
          have hgrown : windowCount u h.bucket (windowStart now h.durationMs) + h.cost ≤
              windowCount u' h.bucket (windowStart now h.durationMs) := by
            have hself := h.addsTo_self now
            rw [hitAll_count hu', (hitWindow_ok hu).1]
            omega
          have hhead : st.allowed = su.allowed := by
            apply hahead.allowed_both ht hu hgrown
            intro hsu htouch
            exact hroom (by rw [List.all_cons, hsu, Bool.false_and]) h List.mem_cons_self htouch
          rw [List.all_cons, List.all_cons, hhead, hrest]

/-! ### Two deployments -/

variable {env : ProcessEnv}

/-- The ceiling of the sender is not exceeded once the request is counted. -/
def CeilingHasRoom (env : ProcessEnv) (A : Sender) (db : Db) (c : Call) : Prop :=
  ∀ bucket, A.ceiling = some bucket →
    (windowCount (c.run env db).2.rateLimitWindows bucket (windowStart c.now MINUTE_MS) : ℚ) ≤
      ceilingLimit env c.txn

/-- The second deployment has counted further requests of `A`, and differs in nothing else but
the audit log. -/
structure Behind (A : Sender) (db db' : Db) : Prop where
  rest : ∃ windows audit,
    db' = { db with rateLimitWindows := windows, securityAuditEvents := audit }
  windows : Ahead (A.Touches db.apiKeys) db.rateLimitWindows db'.rateLimitWindows

theorem Behind.refl (A : Sender) (db : Db) : Behind A db db :=
  ⟨⟨db.rateLimitWindows, db.securityAuditEvents, rfl⟩, Ahead.refl _ _⟩

/-- A request that is charged and not answered ok changes counters and the audit log alone. -/
theorem refused_writes {db : Db} {c : Call} {A : Sender} (h : sender env db c = some A)
    (hrefused : answeredOk (c.run env db).1 = false) :
    ∃ windows audit,
      (c.run env db).2 = { db with rateLimitWindows := windows, securityAuditEvents := audit } := by
  obtain ⟨now, txn⟩ := c
  rcases sender_eq_some h with ⟨args, a, htxn, -, -⟩ | ⟨args, secret, htxn, -, -⟩
  · obtain rfl : txn = .authorize args := htxn
    rcases commit_cases db .authorized (authorize env now args db) with
      ⟨e, -, hc⟩ | ⟨reply, db', hok, hc⟩
    · rw [run_authorize, hc]
      exact ⟨_, _, rfl⟩
    · rw [run_authorize, hc] at hrefused ⊢
      have hstatus : reply.status ≠ .ok := by simpa [answeredOk] using hrefused
      cases authorize_ok hok with
      | refused => exact ⟨_, _, rfl⟩
      | rateLimited => exact ⟨_, _, rfl⟩
      | quotaExceeded => exact ⟨_, _, rfl⟩
      | site _ _ _ _ _ hreplied => exact absurd hreplied hstatus
      | customer _ _ _ _ _ _ _ hreplied => exact absurd hreplied hstatus
  · obtain rfl : txn = .authorizeDemo args := htxn
    rcases commit_cases db .demo (authorizeDemo env now args db) with
      ⟨e, -, hc⟩ | ⟨reply, db', hok, hc⟩
    · rw [run_authorizeDemo, hc]
      exact ⟨_, _, rfl⟩
    · obtain ⟨secret', states, windows, audit, -, -, -, rfl⟩ := authorizeDemo_ok hok
      rw [run_authorizeDemo, hc]
      exact ⟨_, _, rfl⟩

/-- A refused request of `A` in the second deployment only puts it further ahead. -/
theorem Behind.skip (hhex : HexDigests env) {A : Sender} {db db' : Db} (h : Behind A db db')
    {c : Call} (hs : sender env db' c = some A)
    (hrefused : answeredOk (c.run env db').1 = false) : Behind A db (c.run env db').2 := by
  obtain ⟨windows, audit, hwrites⟩ := refused_writes hs hrefused
  obtain ⟨w, au, rfl⟩ := h.rest
  refine ⟨⟨windows, audit, hwrites⟩, ?_⟩
  rcases sent_cases hs with ⟨e, hrun⟩ | ⟨hs', states, hhs, hhits, -, -⟩
  · rw [hrun]
    exact h.windows
  · exact h.windows.hitAll_right hhits fun g hg => (sent_of_requestHits hs hhs).touches hhex hg

/-! ### One request on both sides -/

theorem Sent.ceiling_limit {db : Db} {c : Call} {B : Sender} {hs : List Hit}
    (h : Sent env db c B hs) {g : Hit} (hg : g ∈ hs) (hb : B.ceiling = some g.bucket) :
    g.durationMs = MINUTE_MS ∧ g.limit = ceilingLimit env c.txn := by
  obtain ⟨own, rfl, hown⟩ := h.ceiling_last hb
  rcases List.mem_append.mp hg with hg | hg
  · exact absurd rfl (hown g hg)
  · rw [List.mem_singleton.mp hg]
    exact ⟨rfl, rfl⟩

/-- The one counter that requests of senders apart can share is the ceiling. -/
theorem shared_is_ceiling {keys : Table ApiKey} {A B : Sender} (hapart : A.apart B = true)
    {b : String} (hA : A.Touches keys b) (hB : B.Touches keys b) :
    A.ceiling = some b ∧ B.ceiling = some b := by
  rcases hA with hA | hA
  · rcases hB with hB | hB
    · exact (not_owns_of_apart hapart hA hB).elim
    · exact absurd hB hA.ne_ceiling
  · rcases hB with hB | hB
    · exact absurd hA hB.ne_ceiling
    · exact ⟨hA, hB⟩

/-- The same request of another sender on both sides. -/
theorem Sent.hits_both (hhex : HexDigests env) {A B : Sender} (hapart : A.apart B = true)
    {db : Db} {c : Call} {hs : List Hit} (h : Sent env db c B hs) {w : Table RateLimitWindow}
    (hahead : Ahead (A.Touches db.apiKeys) db.rateLimitWindows w) :
    (hitAll db.rateLimitWindows c.now hs = .error .notUnique ∧
        hitAll w c.now hs = .error .notUnique) ∨
      ∃ st t' su u', hitAll db.rateLimitWindows c.now hs = .ok (st, t') ∧
        hitAll w c.now hs = .ok (su, u') ∧ Ahead (A.Touches db.apiKeys) t' u' ∧
        ((su.all RateLimitState.allowed = false → B.ceiling = A.ceiling →
            ∀ bucket, B.ceiling = some bucket →
              (windowCount u' bucket (windowStart c.now MINUTE_MS) : ℚ) ≤
                ceilingLimit env c.txn) →
          st.all RateLimitState.allowed = su.all RateLimitState.allowed) := by
  rcases hahead.hitAll_both hs with herror | ⟨st, t', su, u', ht, hu, hahead', hverdict⟩
  · exact Or.inl herror
  · refine Or.inr ⟨st, t', su, u', ht, hu, hahead', fun hroom => hverdict fun hfull g hg hA => ?_⟩
    obtain ⟨hAc, hBc⟩ := shared_is_ceiling hapart hA (h.touches hhex hg)
    obtain ⟨hduration, hlimit⟩ := h.ceiling_limit hg hBc
    rw [hduration, hlimit]
    exact hroom hfull (hBc.trans hAc.symm) g.bucket hBc

/-- How `charge` ends once the counters are charged. -/
theorem charge_of_hits {now : ℕ} {args : AuthorizeArgs} {db : Db} {a : Admission}
    {bs : List (String × ℚ)} {states : List RateLimitState} {windows : Table RateLimitWindow}
    (hbs : buckets env args a = .ok bs)
    (hhits : hitAll db.rateLimitWindows now (bs.map fun b => hit b.1 b.2) =
      .ok (states, windows)) :
    ∃ audit limited exceeded ok, limited.status = .rateLimited ∧ exceeded.status = .quotaExceeded ∧
      ok.status = .ok ∧
      charge env now args db a =
        if states.all RateLimitState.allowed = false then
          .ok (limited,
            { db with rateLimitWindows := windows, securityAuditEvents := audit })
        else if a.isSiteKey = true then
          .ok (ok, { db with rateLimitWindows := windows, securityAuditEvents := audit })
        else match consumeCustomerQuotas env db.quotaWindows now a.key.id a.key.val.userId
            args.endpoint a.plan with
          | .error e => .error e
          | .ok (quota, quotas) =>
              if quota.allowed = false then
                .ok (exceeded,
                  { db with rateLimitWindows := windows, securityAuditEvents := audit })
              else .ok (ok, { db with
                rateLimitWindows := windows, securityAuditEvents := audit,
                quotaWindows := quotas, users := countFree db.users a }) := by
  let limited : AuthorizeReply := { status := .rateLimited }
  let exceeded : AuthorizeReply := { status := .quotaExceeded }
  let ok : AuthorizeReply := { status := .ok }
  simp only [charge, hbs, hhits, bind, Except.bind, combine_allowed]
  cases hall : states.all RateLimitState.allowed with
  | false => exact ⟨_, _, exceeded, ok, rfl, rfl, rfl, rfl⟩
  | true =>
    cases hsite : a.isSiteKey with
    | true => exact ⟨_, limited, exceeded, _, rfl, rfl, rfl, rfl⟩
    | false =>
      cases hquota : consumeCustomerQuotas env db.quotaWindows now a.key.id a.key.val.userId
        args.endpoint a.plan with
      | error e => exact ⟨db.securityAuditEvents, limited, exceeded, ok, rfl, rfl, rfl, rfl⟩
      | ok r =>
        obtain ⟨quota, quotas⟩ := r
        cases hallowed : quota.allowed with
        | false =>
          simp only [hallowed]
          exact ⟨_, limited, _, ok, rfl, rfl, rfl, rfl⟩
        | true =>
          simp only [hallowed]
          exact ⟨_, limited, exceeded, _, rfl, rfl, rfl, rfl⟩

theorem Behind.keep_authorize (hhex : HexDigests env) {A B : Sender} {db db' : Db}
    (h : Behind A db db') {now : ℕ} {args : AuthorizeArgs} {a : Admission}
    (ha : admission db now args = .ok a) (hB : sender env db ⟨now, .authorize args⟩ = some B)
    (hapart : A.apart B = true)
    (hroom : B.ceiling = A.ceiling → CeilingHasRoom env B db' ⟨now, .authorize args⟩) :
    answeredOk (Call.run env db ⟨now, .authorize args⟩).1 =
        answeredOk (Call.run env db' ⟨now, .authorize args⟩).1 ∧
      Behind A (Call.run env db ⟨now, .authorize args⟩).2
        (Call.run env db' ⟨now, .authorize args⟩).2 := by
  have hrun : ∀ d, admission d now args = .ok a → Call.run env d ⟨now, .authorize args⟩ =
      commit d .authorized (charge env now args d a) := by
    intro d hd
    rw [run_authorize, authorize, hd]
  obtain ⟨w, au, rfl⟩ := h.rest
  have ha' : admission { db with rateLimitWindows := w, securityAuditEvents := au } now args =
      .ok a := ha
  rw [hrun _ ha, hrun _ ha']
  cases hbs : buckets env args a with
  | error e =>
    have hthrow : ∀ d, charge env now args d a = .error e := by
      intro d
      simp only [charge, hbs, bind, Except.bind]
    rw [hthrow, hthrow]
    exact ⟨rfl, h⟩
  | ok bs =>
    have hsent : Sent env db ⟨now, .authorize args⟩ B (bs.map fun b => hit b.1 b.2) := by
      refine sent_of_requestHits hB ?_
      simp only [requestHits, ha, hbs]
      rfl
    rcases hsent.hits_both hhex hapart h.windows with
      ⟨ht, hu⟩ | ⟨st, t', su, u', ht, hu, hahead, hverdict⟩
    · simp only [charge, hbs, ht, hu, bind, Except.bind]
      exact ⟨rfl, h⟩
    · obtain ⟨audit, limited, exceeded, ok, hl, he, ho, hc⟩ := charge_of_hits hbs ht
      obtain ⟨audit', limited', exceeded', ok', hl', he', ho', hc'⟩ := charge_of_hits hbs hu
      have hsame : st.all RateLimitState.allowed = su.all RateLimitState.allowed := by
        refine hverdict fun hfull hshare bucket hb => ?_
        have hfits := hroom hshare bucket hb
        rw [hrun _ ha', hc', if_pos hfull] at hfits
        exact hfits
      rw [hc, hc', hsame]
      cases hall : su.all RateLimitState.allowed with
      | false =>
        simp only [if_true, commit, answeredOk, hl, hl']
        exact ⟨trivial, ⟨⟨_, _, rfl⟩, hahead⟩⟩
      | true =>
        cases hsite : a.isSiteKey with
        | true =>
          simp only [Bool.true_eq_false, if_false, if_true, commit, answeredOk, ho, ho']
          exact ⟨trivial, ⟨⟨_, _, rfl⟩, hahead⟩⟩
        | false =>
          cases hquota : consumeCustomerQuotas env db.quotaWindows now a.key.id a.key.val.userId
            args.endpoint a.plan with
          | error e => exact ⟨rfl, h⟩
          | ok r =>
            obtain ⟨quota, quotas⟩ := r
            cases hallowed : quota.allowed with
            | false =>
              simp only [Bool.true_eq_false, Bool.false_eq_true, if_false, hallowed, if_true,
                commit, answeredOk, he, he']
              exact ⟨trivial, ⟨⟨_, _, rfl⟩, hahead⟩⟩
            | true =>
              simp only [Bool.true_eq_false, Bool.false_eq_true, if_false, hallowed, commit,
                answeredOk, ho, ho']
              exact ⟨trivial, ⟨⟨_, _, rfl⟩, hahead⟩⟩

theorem Behind.keep_demo (hhex : HexDigests env) {A B : Sender} {db db' : Db}
    (h : Behind A db db') {now : ℕ} {args : DemoArgs} {secret : String}
    (hsecret : env.gatewaySecret = .ok secret)
    (hB : sender env db ⟨now, .authorizeDemo args⟩ = some B) (hapart : A.apart B = true)
    (hroom : B.ceiling = A.ceiling → CeilingHasRoom env B db' ⟨now, .authorizeDemo args⟩) :
    answeredOk (Call.run env db ⟨now, .authorizeDemo args⟩).1 =
        answeredOk (Call.run env db' ⟨now, .authorizeDemo args⟩).1 ∧
      Behind A (Call.run env db ⟨now, .authorizeDemo args⟩).2
        (Call.run env db' ⟨now, .authorizeDemo args⟩).2 := by
  obtain ⟨w, au, rfl⟩ := h.rest
  have hsent : Sent env db ⟨now, .authorizeDemo args⟩ B
      (demoHits (demoIpHash env secret args.clientIp) args) := by
    refine sent_of_requestHits hB ?_
    simp only [requestHits, hsecret]
    rfl
  rcases hsent.hits_both hhex hapart h.windows with
    ⟨ht, hu⟩ | ⟨st, t', su, u', ht, hu, hahead, hverdict⟩
  · simp only [run_authorizeDemo, authorizeDemo, hsecret, ht, hu, bind, Except.bind]
    exact ⟨rfl, h⟩
  · have hsame : st.all RateLimitState.allowed = su.all RateLimitState.allowed := by
      refine hverdict fun hfull hshare bucket hb => ?_
      have hfits := hroom hshare bucket hb
      simp only [run_authorizeDemo, authorizeDemo, hsecret, hu, bind, Except.bind, combine_allowed,
        hfull] at hfits
      exact hfits
    simp only [run_authorizeDemo, authorizeDemo, hsecret, ht, hu, bind, Except.bind,
      combine_allowed, hsame]
    cases hall : su.all RateLimitState.allowed with
    | true => exact ⟨rfl, ⟨⟨_, _, rfl⟩, hahead⟩⟩
    | false => exact ⟨rfl, ⟨⟨_, _, rfl⟩, hahead⟩⟩

/-- A step of a run in which `A` is refused, the other callers are apart from it, and those under
its ceiling find room there. -/
structure RefusedOrApart (env : ProcessEnv) (A : Sender) (db : Db) (c : Call) : Prop where
  gateway : (∃ args, c.txn = .authorize args) ∨ ∃ args, c.txn = .authorizeDemo args
  refused : sender env db c = some A → answeredOk (c.run env db).1 = false
  others : ∀ B, sender env db c = some B → B ≠ A → A.apart B = true ∧
    (B.ceiling = A.ceiling → CeilingHasRoom env B db c)

/-- A request that reaches no counter is answered from the tables both sides share. -/
theorem Behind.keep_unsent {A : Sender} {db db' : Db} (h : Behind A db db') {c : Call}
    (hgateway : (∃ args, c.txn = .authorize args) ∨ ∃ args, c.txn = .authorizeDemo args)
    (hs : sender env db c = none) :
    answeredOk (c.run env db).1 = answeredOk (c.run env db').1 ∧
      Behind A (c.run env db).2 (c.run env db').2 := by
  obtain ⟨now, txn⟩ := c
  obtain ⟨w, au, rfl⟩ := h.rest
  rcases hgateway with ⟨args, rfl⟩ | ⟨args, rfl⟩
  · cases ha : admission db now args with
    | ok a => simp only [sender, ha, reduceCtorEq] at hs
    | error stop =>
      have ha' : admission { db with rateLimitWindows := w, securityAuditEvents := au } now args =
          .error stop := ha
      simp only [run_authorize, authorize, ha, ha']
      cases stop with
      | throw e => exact ⟨rfl, h⟩
      | refuse r => exact ⟨rfl, ⟨⟨_, _, rfl⟩, h.windows⟩⟩
  · cases hsecret : env.gatewaySecret with
    | ok secret => simp only [sender, hsecret, reduceCtorEq] at hs
    | error e =>
      simp only [run_authorizeDemo, authorizeDemo, hsecret, bind, Except.bind]
      exact ⟨rfl, h⟩

theorem sender_congr {A : Sender} {db db' : Db} (h : Behind A db db') (c : Call) :
    sender env db' c = sender env db c := by
  obtain ⟨w, au, rfl⟩ := h.rest
  rfl

theorem Behind.keep (hhex : HexDigests env) {A : Sender} {db db' : Db} (h : Behind A db db')
    {c : Call} (hc : RefusedOrApart env A db' c) (hkeep : sender env db' c ≠ some A) :
    answeredOk (c.run env db).1 = answeredOk (c.run env db').1 ∧
      Behind A (c.run env db).2 (c.run env db').2 := by
  cases hs : sender env db c with
  | none => exact h.keep_unsent hc.gateway hs
  | some B =>
    have hs' : sender env db' c = some B := (sender_congr h c).trans hs
    have hBA : B ≠ A := by
      rintro rfl
      exact hkeep hs'
    obtain ⟨hapart, hroom⟩ := hc.others B hs' hBA
    obtain ⟨now, txn⟩ := c
    rcases sender_eq_some hs with ⟨args, a, htxn, ha, -⟩ | ⟨args, secret, htxn, hsecret, -⟩
    · obtain rfl : txn = .authorize args := htxn
      exact h.keep_authorize hhex ha hs hapart hroom
    · obtain rfl : txn = .authorizeDemo args := htxn
      exact h.keep_demo hhex hsecret hs hapart hroom

/-- The requests of `A` in a run. -/
def fromSender (env : ProcessEnv) (A : Sender) (db : Db) (c : Call) : Bool :=
  sender env db c = some A

/-- Everybody else is answered as if the refused sender had sent nothing. -/
theorem others_answered_alike (hhex : HexDigests env) {A : Sender} {db : Db} {cs : List Call}
    (hrun : Runs.Guarded (Call.run env) (RefusedOrApart env A) db cs) :
    (Runs.kept (Call.run env) (fromSender env A) db cs).map (fun x => answeredOk x.reply) =
      (Runs.trace (Call.run env) db (Runs.without (Call.run env) (fromSender env A) db cs)).map
        fun x => answeredOk x.reply := by
  refine @Runs.kept_observed _ _ _ _ (Call.run env) (fromSender env A) (Behind A)
    (RefusedOrApart env A) answeredOk ?_ ?_ db db (Behind.refl A db) cs hrun
  · intro d d' c hbehind hc hskip
    have hs : sender env d' c = some A := of_decide_eq_true hskip
    exact hbehind.skip hhex hs (hc.refused hs)
  · intro d d' c hbehind hc hskip
    exact hbehind.keep hhex hc (of_decide_eq_false hskip)

/-- What a caller that is being refused can do to the others. Its requests answered ok stay within
its own limit, but every request it makes goes into the ceiling, and the others are answered as
without it only while the ceiling has room. -/
theorem ceiling_shared_by_refused (hhex : HexDigests env) :
    (∀ (db : Db) (cs : List Call) (A : Sender) (minute : ℕ) (L : ℚ), NoCleanup cs → 0 ≤ L →
      (∀ x ∈ Runs.trace (Call.run env) db cs, sender env x.before x.event = some A →
        answeredOk x.reply = true → windowStart x.event.now MINUTE_MS = minute →
          ∀ l ∈ ownLimit env x.before x.event, l ≤ L) →
      (Runs.total (Call.run env) (okCeilingAdds env A minute) db cs : ℚ) ≤ L) ∧
    (∀ (db : Db) (cs : List Call) (A : Sender) (minute : ℕ),
      Runs.total (Call.run env) (ceilingAdds env A minute) db cs =
        Runs.total (Call.run env) (requested env A minute) db cs) ∧
    (∀ (db : Db) (cs : List Call) (A : Sender),
      Runs.Guarded (Call.run env) (RefusedOrApart env A) db cs →
      (Runs.kept (Call.run env) (fromSender env A) db cs).map (fun x => answeredOk x.reply) =
        (Runs.trace (Call.run env) db (Runs.without (Call.run env) (fromSender env A) db cs)).map
          fun x => answeredOk x.reply) := by
  refine ⟨fun db cs A minute L hno hL hlimit => okCeilingAdds_cap hno hL hlimit,
    fun db cs A minute => ?_, fun db cs A hrun => others_answered_alike hhex hrun⟩
  have hsame : ceilingAdds env A minute = requested env A minute :=
    funext₂ (ceilingAdds_eq_requested A minute)
  rw [hsame]

/-- The environment of the tests, with the digests of two visitor addresses. -/
def twoVisitorsEnv : ProcessEnv :=
  { testEnv with
    hmacSha256Hex := fun _ value =>
      if value = "demo:203.0.113.7" then
        "5dc8af1c7f90742d93259955feaa2cfaa458e5d3dae5c38140d55e106538ec02"
      else "54ef18f3aef9f446aa2c6cd34f2688da0bdd9ca9ea9517afce14dec6651030d6" }

/-- A demo request that may be made once a minute from an address. -/
def onceAMinute (clientIp : String) (globalMinuteLimit : ℚ) : Call where
  now := 0
  txn := .authorizeDemo {
    clientIp
    endpoint := "geocode"
    cost := 1
    minuteLimit := some 1
    hourLimit := some 100
    globalMinuteLimit := some globalMinuteLimit }

def firstVisitor : Sender := .visitor "5dc8af1c7f90742d93259955feaa2cfa"

/-- An account of thirty requests a minute adds thirty-one, a visitor of one a minute adds two,
and the second of these, refused, is what turns the next visitor away. -/
theorem ceiling_exhausted_by_refused :
    ¬ (Runs.total (Call.run testEnv) (ceilingAdds testEnv (.customer 0) 0) freeAccount
        (List.replicate 31 ⟨0, .authorize freeRequest⟩) ≤ FREE_RATE_LIMIT_PER_MINUTE) ∧
    ¬ (Runs.total (Call.run twoVisitorsEnv) (ceilingAdds twoVisitorsEnv firstVisitor 0) {}
        [onceAMinute "203.0.113.7" 2, onceAMinute "203.0.113.7" 2] ≤ 1) ∧
    (Runs.trace (Call.run twoVisitorsEnv) {}
        [onceAMinute "203.0.113.7" 2, onceAMinute "198.51.100.7" 2]).map
        (fun x => answeredOk x.reply) = [true, true] ∧
    (Runs.trace (Call.run twoVisitorsEnv) {}
        [onceAMinute "203.0.113.7" 2, onceAMinute "203.0.113.7" 2,
          onceAMinute "198.51.100.7" 2]).map (fun x => answeredOk x.reply) =
      [true, false, false] := by
  decide +kernel

/-- The deployment once the first visitor has used up its minute. -/
def firstVisitorRefused : Db :=
  (Call.run twoVisitorsEnv {} (onceAMinute "203.0.113.7" 5)).2

theorem ceiling_shared_by_two_visitors :
    (Runs.total (Call.run twoVisitorsEnv) (okCeilingAdds twoVisitorsEnv firstVisitor 0) {}
        [onceAMinute "203.0.113.7" 5, onceAMinute "203.0.113.7" 5] : ℚ) ≤ 1 ∧
    Runs.total (Call.run twoVisitorsEnv) (ceilingAdds twoVisitorsEnv firstVisitor 0) {}
        [onceAMinute "203.0.113.7" 5, onceAMinute "203.0.113.7" 5] =
      Runs.total (Call.run twoVisitorsEnv) (requested twoVisitorsEnv firstVisitor 0) {}
        [onceAMinute "203.0.113.7" 5, onceAMinute "203.0.113.7" 5] ∧
    (Runs.kept (Call.run twoVisitorsEnv) (fromSender twoVisitorsEnv firstVisitor)
        firstVisitorRefused [onceAMinute "203.0.113.7" 5, onceAMinute "198.51.100.7" 5]).map
        (fun x => answeredOk x.reply) =
      (Runs.trace (Call.run twoVisitorsEnv) firstVisitorRefused
        (Runs.without (Call.run twoVisitorsEnv) (fromSender twoVisitorsEnv firstVisitor)
          firstVisitorRefused [onceAMinute "203.0.113.7" 5, onceAMinute "198.51.100.7" 5])).map
        fun x => answeredOk x.reply := by
  have hhex : HexDigests twoVisitorsEnv := by
    intro secret value
    simp only [twoVisitorsEnv]
    split_ifs <;> rfl
  have hno : NoCleanup [onceAMinute "203.0.113.7" 5, onceAMinute "203.0.113.7" 5] := by
    simp [NoCleanup, onceAMinute]
  have hfirst : sender twoVisitorsEnv firstVisitorRefused (onceAMinute "203.0.113.7" 5) =
      some firstVisitor := by
    decide +kernel
  let db := (Call.run twoVisitorsEnv firstVisitorRefused (onceAMinute "203.0.113.7" 5)).2
  have hsecond : sender twoVisitorsEnv db (onceAMinute "198.51.100.7" 5) =
      some (.visitor "54ef18f3aef9f446aa2c6cd34f2688da") := by
    decide +kernel
  have hroom : (windowCount (Call.run twoVisitorsEnv db
      (onceAMinute "198.51.100.7" 5)).2.rateLimitWindows demoGlobalBucket 0 : ℚ) ≤ 5 := by
    decide +kernel
  have hrun : Runs.Guarded (Call.run twoVisitorsEnv) (RefusedOrApart twoVisitorsEnv firstVisitor)
      firstVisitorRefused [onceAMinute "203.0.113.7" 5, onceAMinute "198.51.100.7" 5] := by
    refine ⟨⟨Or.inr ⟨_, rfl⟩, fun _ => by decide +kernel, fun B hB hne => ?_⟩,
      ⟨Or.inr ⟨_, rfl⟩, fun hA => ?_, fun B hB hne => ⟨?_, fun _ bucket hbucket => ?_⟩⟩, trivial⟩
    · exact absurd (Option.some.inj (hB.symm.trans hfirst)) hne
    · exact absurd (hsecond.symm.trans hA) (by decide)
    · obtain rfl := Option.some.inj (hsecond.symm.trans hB)
      decide
    · obtain rfl := Option.some.inj (hsecond.symm.trans hB)
      obtain rfl : demoGlobalBucket = bucket := Option.some.inj hbucket
      exact hroom
  exact ⟨(ceiling_shared_by_refused hhex).1 {} _ firstVisitor 0 1 hno (by norm_num)
      (by decide +kernel),
    (ceiling_shared_by_refused hhex).2.1 {} _ firstVisitor 0,
    (ceiling_shared_by_refused hhex).2.2 _ _ firstVisitor hrun⟩

end GeoPlatform.Convex
