import GeoPlatform.Convex.FreeQuota
import GeoPlatform.Convex.Isolation
import GeoPlatform.Convex.QuotaPeriods

/-! Counter tables that agree where it matters. Two tables may have counted different requests in
some minutes, and different paid requests of one account, and still answer every other request
alike. What the cleanup job takes is too old to be asked for. -/
namespace GeoPlatform.Convex
open Docs

/-! ### What the cleanup job leaves -/

theorem query_expired {α : Type} {t : Table α} {time : α → ℚ} {cutoff : ℚ} {p : α → Bool}
    (h : ∀ a, p a = true → cutoff ≤ time a) :
    (t.delete ((expiredBatch t time cutoff).map Doc.id)).query p = t.query p := by
  apply Table.query_keep
  intro d hd hp
  rw [decide_eq_true_eq]
  intro hid
  obtain ⟨e, he, hde⟩ := List.mem_map.mp hid
  obtain ⟨hmem, hexpired⟩ := mem_expiredBatch he
  have hed : e = d := Table.eq_of_id hmem hd hde
  subst hed
  exact absurd (h _ hp) (not_le.mpr hexpired)

theorem sum_expired {α : Type} {t : Table α} {time : α → ℚ} {cutoff : ℚ} {p : α → Bool}
    (h : ∀ a, p a = true → cutoff ≤ time a) (f : α → ℕ) :
    (t.delete ((expiredBatch t time cutoff).map Doc.id)).sum (fun a => if p a then f a else 0) =
      t.sum fun a => if p a then f a else 0 := by
  rw [Table.sum_query, Table.sum_query, query_expired h]

/-! ### Minute windows -/

/-- The counters of the demo, which no key shares. -/
def IsDemo (b : String) : Prop := b.toList.head? = some 'd'

/-- At `now` the tables have counted alike but for the demo and for some minutes. -/
structure WindowsAlike (now : ℕ) (minutes : List ℕ) (t u : Table RateLimitWindow) : Prop where
  clash : ∀ b s, ¬ IsDemo b → windowCutoff now ≤ (s : ℕ) →
    (1 < (t.query (isWindow b s)).length ↔ 1 < (u.query (isWindow b s)).length)
  same : ∀ b s, ¬ IsDemo b → windowCutoff now ≤ (s : ℕ) → s ∉ minutes →
    windowCount t b s = windowCount u b s

theorem WindowsAlike.refl (now : ℕ) (minutes : List ℕ) (t : Table RateLimitWindow) :
    WindowsAlike now minutes t t :=
  ⟨fun _ _ _ _ => Iff.rfl, fun _ _ _ _ _ => rfl⟩

variable {now : ℕ} {minutes : List ℕ} {t t' u u' : Table RateLimitWindow}

theorem WindowsAlike.symm (h : WindowsAlike now minutes t u) : WindowsAlike now minutes u t :=
  ⟨fun b s hb hs => (h.clash b s hb hs).symm, fun b s hb hs hm => (h.same b s hb hs hm).symm⟩

theorem WindowsAlike.mono (h : WindowsAlike now minutes t u) {now' : ℕ} {minutes' : List ℕ}
    (hnow : now ≤ now') (hminutes : minutes ⊆ minutes') : WindowsAlike now' minutes' t u := by
  have hcutoff : windowCutoff now ≤ windowCutoff now' :=
    sub_le_sub_right (by exact_mod_cast hnow) _
  constructor
  · intro b s hb hs
    exact h.clash b s hb (hcutoff.trans hs)
  · intro b s hb hs hm
    exact h.same b s hb (hcutoff.trans hs) fun hmem => hm (hminutes hmem)

theorem windowCutoff_le_windowStart (now : ℕ) :
    windowCutoff now ≤ (windowStart now MINUTE_MS : ℕ) := by
  have hlt := lt_windowStart_add now (show 0 < MINUTE_MS by decide)
  have hle : now ≤ windowStart now MINUTE_MS + 5 * MINUTE_MS := by omega
  rw [windowCutoff, sub_le_iff_le_add]
  exact_mod_cast hle

/-- Hits that a counter of the relation does not see. -/
theorem WindowsAlike.hitAll_unseen (h : WindowsAlike now minutes t u) {hs : List Hit}
    {states : List RateLimitState} (hok : hitAll t now hs = .ok (states, t'))
    {minutes' : List ℕ} (hminutes : minutes ⊆ minutes')
    (hunseen : ∀ b s, ¬ IsDemo b → s ∉ minutes' → addedBy hs now b s = 0) :
    WindowsAlike now minutes' t' u := by
  constructor
  · intro b s hb hs'
    rw [hitAll_clash hok]
    exact h.clash b s hb hs'
  · intro b s hb hs' hm
    rw [hitAll_count hok, hunseen b s hb hm, Nat.add_zero]
    exact h.same b s hb hs' fun hmem => hm (hminutes hmem)

/-- A demo call on one side. -/
theorem WindowsAlike.hitAll_demo (h : WindowsAlike now minutes t u) {hs : List Hit}
    {states : List RateLimitState} (hok : hitAll t now hs = .ok (states, t'))
    (hdemo : ∀ g ∈ hs, IsDemo g.bucket) : WindowsAlike now minutes t' u := by
  apply h.hitAll_unseen hok (List.Subset.refl _)
  intro b s hb _
  apply addedBy_eq_zero
  rintro g hg rfl
  exact hb (hdemo g hg)

/-- A request on one side, in a minute that is left out from then on. -/
theorem WindowsAlike.hitAll_minute (h : WindowsAlike now minutes t u) {hs : List Hit}
    {states : List RateLimitState} (hok : hitAll t now hs = .ok (states, t'))
    (hminute : ∀ g ∈ hs, g.durationMs = MINUTE_MS) :
    WindowsAlike now (windowStart now MINUTE_MS :: minutes) t' u := by
  apply h.hitAll_unseen hok (List.subset_cons_self _ _)
  intro b s _ hs'
  apply List.sum_eq_zero
  intro n hn
  obtain ⟨g, hg, rfl⟩ := List.mem_map.mp hn
  rw [Hit.addsTo, hminute g hg, if_neg]
  rintro ⟨-, hstart⟩
  exact hs' (hstart ▸ List.mem_cons_self)

/-- The same request on both sides: it throws on both or is counted on both, and in a minute that
is not left out it finds the same room. -/
theorem WindowsAlike.hitAll_both (h : WindowsAlike now minutes t u) {hs : List Hit}
    (hkey : ∀ g ∈ hs, ¬ IsDemo g.bucket ∧ g.durationMs = MINUTE_MS) :
    (hitAll t now hs = .error .notUnique ∧ hitAll u now hs = .error .notUnique) ∨
      ∃ st t' su u', hitAll t now hs = .ok (st, t') ∧ hitAll u now hs = .ok (su, u') ∧
        WindowsAlike now minutes t' u' ∧ (windowStart now MINUTE_MS ∉ minutes → st = su) := by
  induction hs generalizing t u with
  | nil => exact Or.inr ⟨[], t, [], u, rfl, rfl, h, fun _ => rfl⟩
  | cons g hs ih =>
    obtain ⟨⟨hdemo, hduration⟩, hrest⟩ := List.forall_mem_cons.mp hkey
    have hcutoff : windowCutoff now ≤ (windowStart now g.durationMs : ℕ) := by
      rw [hduration]
      exact windowCutoff_le_windowStart now
    have hclash := h.clash g.bucket _ hdemo hcutoff
    rcases hitWindow_cases t now g with ⟨hsev, ht⟩ | ⟨hsev, st, t₁, ht⟩
    · rcases hitWindow_cases u now g with ⟨-, hu⟩ | ⟨hno, -⟩
      · exact Or.inl ⟨by rw [hitAll, ht]; rfl, by rw [hitAll, hu]; rfl⟩
      · exact absurd (hclash.mp hsev) hno
    · rcases hitWindow_cases u now g with ⟨hsev', -⟩ | ⟨-, su, u₁, hu⟩
      · exact absurd (hclash.mpr hsev') hsev
      · have hnext : WindowsAlike now minutes t₁ u₁ := by
          constructor
          · intro b s hb hs'
            rw [hitWindow_clash ht, hitWindow_clash hu]
            exact h.clash b s hb hs'
          · intro b s hb hs' hm
            rw [(hitWindow_ok ht).1, (hitWindow_ok hu).1, h.same b s hb hs' hm]
        have hfirst : windowStart now MINUTE_MS ∉ minutes → st = su := by
          intro hm
          have hcount := h.same g.bucket _ hdemo hcutoff (by rw [hduration]; exact hm)
          rw [(hitWindow_ok ht).2, (hitWindow_ok hu).2, hcount]
        rcases ih hnext hrest with ⟨ht', hu'⟩ | ⟨sts, t', sus, u', ht', hu', halike, hstates⟩
        · exact Or.inl ⟨hitAll_cons_error ht ht', hitAll_cons_error hu hu'⟩
        · refine Or.inr ⟨_, t', _, u', hitAll_cons_ok ht ht', hitAll_cons_ok hu hu', halike, ?_⟩
          intro hm
          rw [hfirst hm, hstates hm]

/-- A cleanup on one side. -/
theorem WindowsAlike.prune (h : WindowsAlike now minutes t u) :
    WindowsAlike now minutes
      (t.delete ((expiredBatch t (fun w => w.windowStart) (windowCutoff now)).map Doc.id)) u := by
  have hlate : ∀ b s, windowCutoff now ≤ (s : ℕ) → ∀ w : RateLimitWindow,
      isWindow b s w = true → windowCutoff now ≤ w.windowStart := by
    intro b s hs w hw
    have hstart : w.windowStart = s := by
      simp only [isWindow, Bool.and_eq_true, decide_eq_true_eq] at hw
      exact hw.2
    rw [hstart]
    exact hs
  constructor
  · intro b s hb hs
    rw [query_expired (hlate b s hs)]
    exact h.clash b s hb hs
  · intro b s hb hs hm
    rw [windowCount, sum_expired (hlate b s hs)]
    exact h.same b s hb hs hm

/-! ### Quota windows -/

def quotaCutoff (now : ℕ) : ℚ := (now : ℚ) - 400 * DAY_MS

/-- How many rows a quota window has. -/
def quotaRows (t : Table QuotaWindow) (k : QuotaKey) : ℕ :=
  (t.query (isQuota k.1 k.2.1 k.2.2)).length

/-- A window of the account's paid traffic. -/
def PaidBucket (keys : Table ApiKey) (userId : ℕ) (b : String) : Prop :=
  ∃ s : QuotaScope, s.account keys = some userId ∧ b = s.bucket true

/-- At `now` the tables have counted alike but for the paid traffic of one account. -/
structure QuotasAlike (keys : Table ApiKey) (userId now : ℕ) (t u : Table QuotaWindow) : Prop where
  clash : ∀ k : QuotaKey, quotaCutoff now ≤ (k.2.2 : ℕ) → (1 < quotaRows t k ↔ 1 < quotaRows u k)
  same : ∀ k : QuotaKey, quotaCutoff now ≤ (k.2.2 : ℕ) → ¬ PaidBucket keys userId k.1 →
    quotaUnits t k.1 k.2.1 k.2.2 = quotaUnits u k.1 k.2.1 k.2.2

theorem QuotasAlike.refl (keys : Table ApiKey) (userId now : ℕ) (t : Table QuotaWindow) :
    QuotasAlike keys userId now t t :=
  ⟨fun _ _ => Iff.rfl, fun _ _ _ => rfl⟩

section Quotas
variable {keys : Table ApiKey} {userId : ℕ} {t t' u u' : Table QuotaWindow}

theorem QuotasAlike.symm (h : QuotasAlike keys userId now t u) : QuotasAlike keys userId now u t :=
  ⟨fun k hk => (h.clash k hk).symm, fun k hk hpaid => (h.same k hk hpaid).symm⟩

theorem QuotasAlike.mono (h : QuotasAlike keys userId now t u) {now' : ℕ} (hnow : now ≤ now')
    {keys' : Table ApiKey} (hkeys : ∀ s : QuotaScope, s.account keys = some userId →
      s.account keys' = some userId) : QuotasAlike keys' userId now' t u := by
  have hcutoff : quotaCutoff now ≤ quotaCutoff now' := sub_le_sub_right (by exact_mod_cast hnow) _
  constructor
  · intro k hk
    exact h.clash k (hcutoff.trans hk)
  · intro k hk hpaid
    apply h.same k (hcutoff.trans hk)
    rintro ⟨s, hs, hb⟩
    exact hpaid ⟨s, hkeys s hs, hb⟩

theorem quotaCutoff_le_start (now : ℕ) (period : Period) :
    quotaCutoff now ≤ ((quotaPeriod now period).start : ℕ) := by
  have hlt := lt_quotaPeriod_add now period
  have hle : now ≤ (quotaPeriod now period).start + 400 * DAY_MS := by omega
  rw [quotaCutoff, sub_le_iff_le_add]
  exact_mod_cast hle

/-- A cleanup on one side. -/
theorem QuotasAlike.prune (h : QuotasAlike keys userId now t u) :
    QuotasAlike keys userId now
      (t.delete ((expiredBatch t (fun q => q.periodStart) (quotaCutoff now)).map Doc.id)) u := by
  have hlate : ∀ k : QuotaKey, quotaCutoff now ≤ (k.2.2 : ℕ) → ∀ q : QuotaWindow,
      isQuota k.1 k.2.1 k.2.2 q = true → quotaCutoff now ≤ q.periodStart := by
    intro k hk q hq
    have hstart : q.periodStart = k.2.2 := by
      simp only [isQuota, Bool.and_eq_true, decide_eq_true_eq] at hq
      exact hq.2
    rw [hstart]
    exact hk
  constructor
  · intro k hk
    rw [quotaRows, query_expired (hlate k hk)]
    exact h.clash k hk
  · intro k hk hpaid
    rw [quotaUnits, sum_expired (hlate k hk)]
    exact h.same k hk hpaid

/-! ### One pass over the quotas -/

/-- What a check reports of a spec whose window would grow to `next`. -/
def QuotaSpec.state (now : ℕ) (spec : QuotaSpec) (next : ℕ) : RateLimitState where
  limit := spec.limit
  remaining := if next ≤ spec.limit then max 0 ((spec.limit : ℚ) - next) else 0
  reset := (quotaPeriod now spec.period).reset / 1000
  allowed := next ≤ spec.limit

/-- A check that found no row is of a window without rows. -/
def Absent (t : Table QuotaWindow) (now : ℕ) (spec : QuotaSpec) (c : QuotaCheck) : Prop :=
  c.existing = none → quotaRows t (spec.quotaKey now) = 0

/-- What the first pass found of a window. -/
structure FoundRow (t : Table QuotaWindow) (now : ℕ) (spec : QuotaSpec) (c : QuotaCheck) :
    Prop where
  state : c.state = spec.state now
    (quotaUnits t spec.bucket spec.period (quotaPeriod now spec.period).start + 1)
  absent : Absent t now spec c

/-- A check throws exactly when its window has several rows. -/
theorem checkQuota_cases (t : Table QuotaWindow) (now : ℕ) (spec : QuotaSpec) :
    (1 < quotaRows t (spec.quotaKey now) ∧ checkQuota t now spec = .error .notUnique) ∨
      (¬ 1 < quotaRows t (spec.quotaKey now) ∧ ∃ c, checkQuota t now spec = .ok c ∧
        FoundRow t now spec c) := by
  have hseveral : 1 < quotaRows t (spec.quotaKey now) ↔
      t.unique (isQuota spec.bucket spec.period (quotaPeriod now spec.period).start) = .several :=
    Table.unique_eq_several.symm
  rw [hseveral]
  cases hu : t.unique (isQuota spec.bucket spec.period (quotaPeriod now spec.period).start) with
  | several => exact Or.inl ⟨rfl, by simp only [checkQuota, hu]⟩
  | one d =>
    refine Or.inr ⟨by simp, ?_⟩
    simp only [checkQuota, hu]
    refine ⟨_, rfl, ?_, fun h => by cases h⟩
    rw [quotaUnits, Table.sum_of_unique_one hu]
    simp [QuotaCheck.state, QuotaSpec.state]
  | none =>
    refine Or.inr ⟨by simp, ?_⟩
    simp only [checkQuota, hu]
    refine ⟨_, rfl, ?_, fun _ => ?_⟩
    · rw [quotaUnits, Table.sum_of_unique_none hu]
      simp [QuotaCheck.state, QuotaSpec.state]
    · rw [quotaRows, QuotaSpec.quotaKey, Table.unique_none hu, List.length_nil]

theorem checkQuotas_cases (t : Table QuotaWindow) (now : ℕ) (specs : List QuotaSpec) :
    ((∃ spec ∈ specs, 1 < quotaRows t (spec.quotaKey now)) ∧
        checkQuotas t now specs = .error .notUnique) ∨
      ((∀ spec ∈ specs, ¬ 1 < quotaRows t (spec.quotaKey now)) ∧
        ∃ cs, checkQuotas t now specs = .ok cs ∧ List.Forall₂ (FoundRow t now) specs cs) := by
  induction specs with
  | nil => exact Or.inr ⟨by simp, [], rfl, .nil⟩
  | cons spec specs ih =>
    rcases checkQuota_cases t now spec with ⟨hsev, herror⟩ | ⟨hno, c, hc, hfound⟩
    · exact Or.inl ⟨⟨spec, List.mem_cons_self, hsev⟩, by rw [checkQuotas, herror]; rfl⟩
    · rcases ih with ⟨⟨spec', hspec', hsev⟩, herror⟩ | ⟨hrest, cs, hcs, hfounds⟩
      · refine Or.inl ⟨⟨spec', List.mem_cons_of_mem _ hspec', hsev⟩, ?_⟩
        rw [checkQuotas, hc, herror]
        rfl
      · refine Or.inr ⟨List.forall_mem_cons.mpr ⟨hno, hrest⟩, c :: cs, ?_, .cons hfound hfounds⟩
        rw [checkQuotas, hc, hcs]
        rfl

theorem states_of_found {specs : List QuotaSpec} {cs : List QuotaCheck}
    (h : List.Forall₂ (FoundRow t now) specs cs) : cs.map QuotaCheck.state =
      specs.map fun spec => spec.state now
        (quotaUnits t spec.bucket spec.period (quotaPeriod now spec.period).start + 1) := by
  induction h with
  | nil => rfl
  | cons hc _ ih => rw [List.map_cons, List.map_cons, hc.state, ih]

/-- Writing a check gives no window a second row. -/
theorem quotaRows_write {spec : QuotaSpec} {c : QuotaCheck} (h : Checked t now spec c)
    (habsent : Absent t now spec c) (k : QuotaKey) :
    (1 < quotaRows (writeQuota t c) k ↔ 1 < quotaRows t k) ∧
      (spec.quotaKey now ≠ k → quotaRows (writeQuota t c) k = quotaRows t k) := by
  obtain ⟨bucket, period, start⟩ := k
  have hkey : spec.quotaKey now = (spec.bucket, spec.period, c.start) := by
    rw [QuotaSpec.quotaKey, h.start_eq]
  rw [Absent, hkey] at habsent
  rw [hkey]
  unfold writeQuota quotaRows
  split
  · rename_i d hd
    have hpatch := @Table.query_patch _ t (isQuota bucket period start)
      (fun q => { q with units := c.next }) (fun q => rfl) d.id
    rw [hpatch, List.length_map]
    exact ⟨Iff.rfl, fun _ => rfl⟩
  · rename_i hnone
    have hempty := habsent hnone
    rw [Table.query_insert, h.spec_eq]
    have hnew : isQuota spec.bucket spec.period c.start
        ⟨spec.bucket, spec.period, c.start, c.next⟩ = true := by
      simp [isQuota]
    by_cases hown : ((spec.bucket, spec.period, c.start) : QuotaKey) = (bucket, period, start)
    · rw [if_pos ((isQuota_iff hnew).mpr hown), ← hown]
      simp only [quotaRows] at hempty
      refine ⟨?_, fun hne => absurd rfl hne⟩
      rw [List.length_append, hempty]
      simp
    · rw [if_neg fun hq => hown ((isQuota_iff hnew).mp hq), List.append_nil]
      exact ⟨Iff.rfl, fun _ => rfl⟩

theorem absent_writeAll {spec : QuotaSpec} {c : QuotaCheck} (h : Checked t now spec c)
    (habsent : Absent t now spec c) {specs : List QuotaSpec} {cs : List QuotaCheck}
    (hcs : List.Forall₂ (Absent t now) specs cs)
    (hne : spec.quotaKey now ∉ specs.map (QuotaSpec.quotaKey now)) :
    List.Forall₂ (Absent (writeQuota t c) now) specs cs := by
  induction hcs with
  | nil => exact .nil
  | cons hc _ ih =>
    rw [List.map_cons, List.mem_cons, not_or] at hne
    refine .cons (fun hnone => ?_) (ih hne.2)
    rw [(quotaRows_write h habsent _).2 hne.1]
    exact hc hnone

theorem quotaRows_writeAll {specs : List QuotaSpec} {cs : List QuotaCheck}
    (h : List.Forall₂ (Checked t now) specs cs) (habsent : List.Forall₂ (Absent t now) specs cs)
    (hnodup : (specs.map (QuotaSpec.quotaKey now)).Nodup) (k : QuotaKey) :
    1 < quotaRows (cs.foldl writeQuota t) k ↔ 1 < quotaRows t k := by
  induction specs generalizing t cs with
  | nil =>
    cases h
    exact Iff.rfl
  | cons spec specs ih =>
    obtain ⟨hnotin, hnodup⟩ := List.nodup_cons.mp hnodup
    cases h with
    | cons hc hcs =>
      cases habsent with
      | cons ha has =>
        rw [List.foldl_cons,
          ih (checked_writeAll hc hcs hnotin) (absent_writeAll hc ha has hnotin) hnodup]
        exact (quotaRows_write hc ha k).1

/-! ### The quotas of one request -/

variable {env : ProcessEnv} {keyId owner : ℕ} {endpoint : Option String} {plan : Option PaidPlan}

/-- What `consumeCustomerQuotas` answers where it does not throw. -/
def quotaAnswer (env : ProcessEnv) (t : Table QuotaWindow) (now keyId owner : ℕ)
    (endpoint : Option String) (plan : Option PaidPlan) : RateLimitState :=
  combine ((quotaSpecs env keyId owner endpoint plan).map fun spec => spec.state now
    (quotaUnits t spec.bucket spec.period (quotaPeriod now spec.period).start + 1))

/-- The quotas throw when a window has several rows; else a request that is allowed is counted in
each of its windows, and one that is refused in none. -/
theorem consumeCustomerQuotas_cases (env : ProcessEnv) (t : Table QuotaWindow) (now keyId owner : ℕ)
    (endpoint : Option String) (plan : Option PaidPlan) :
    ((∃ k ∈ quotaKeys env now keyId owner endpoint plan, 1 < quotaRows t k) ∧
        consumeCustomerQuotas env t now keyId owner endpoint plan = .error .notUnique) ∨
      ((∀ k ∈ quotaKeys env now keyId owner endpoint plan, ¬ 1 < quotaRows t k) ∧ ∃ t',
        consumeCustomerQuotas env t now keyId owner endpoint plan =
            .ok (quotaAnswer env t now keyId owner endpoint plan, t') ∧
          ((quotaAnswer env t now keyId owner endpoint plan).allowed = false → t' = t) ∧
          (∀ k, 1 < quotaRows t' k ↔ 1 < quotaRows t k) ∧
          ∀ k : QuotaKey, quotaUnits t' k.1 k.2.1 k.2.2 = quotaUnits t k.1 k.2.1 k.2.2 +
            if (quotaAnswer env t now keyId owner endpoint plan).allowed = true ∧
              k ∈ quotaKeys env now keyId owner endpoint plan then 1 else 0) := by
  unfold quotaKeys
  rcases checkQuotas_cases t now (quotaSpecs env keyId owner endpoint plan) with
    ⟨⟨spec, hspec, hsev⟩, herror⟩ | ⟨hno, cs, hcs, hfound⟩
  · refine Or.inl ⟨⟨_, List.mem_map_of_mem hspec, hsev⟩, ?_⟩
    rw [consumeCustomerQuotas, herror]
    rfl
  · refine Or.inr ⟨List.forall_mem_map.mpr hno, ?_⟩
    have hstates := states_of_found hfound
    have hchecked := checkQuotas_ok hcs
    have habsent := hfound.imp fun _ _ h => h.absent
    rw [consumeCustomerQuotas, hcs]
    simp only [bind, Except.bind, hstates]
    change ∃ t', (if (quotaAnswer env t now keyId owner endpoint plan).allowed = true then _
      else _) = _ ∧ _
    split_ifs with hallowed
    · refine ⟨_, rfl, fun hrefused => ?_, quotaRows_writeAll hchecked habsent quotaKeys_nodup,
        fun k => ?_⟩
      · rw [hallowed] at hrefused
        cases hrefused
      · rw [quotaUnits_writeAll hchecked quotaKeys_nodup]
        simp only [hallowed, true_and]
    · refine ⟨t, rfl, fun _ => rfl, fun _ => Iff.rfl, fun k => ?_⟩
      rw [if_neg fun h => hallowed h.1, Nat.add_zero]

theorem quotaKeys_recent {k : QuotaKey} (h : k ∈ quotaKeys env now keyId owner endpoint plan) :
    quotaCutoff now ≤ (k.2.2 : ℕ) := by
  obtain ⟨spec, -, rfl⟩ := List.mem_map.mp h
  exact quotaCutoff_le_start now spec.period

/-- The windows of a request are all of the account's paid traffic, or none is. -/
theorem quotaKeys_paid {key : ApiKey} (hkey : keys.get keyId = some key) {k : QuotaKey}
    (h : k ∈ quotaKeys env now keyId key.userId endpoint plan) :
    PaidBucket keys userId k.1 ↔ key.userId = userId ∧ plan.isSome = true := by
  obtain ⟨s, hbucket, hs⟩ := quotaKeys_scope h
  have haccount : s.account keys = some key.userId := by
    rcases hs with rfl | rfl | rfl
    · rw [QuotaScope.account, hkey]
      rfl
    · rfl
    · rfl
  constructor
  · rintro ⟨s', hs', hb⟩
    rw [hbucket] at hb
    obtain ⟨hplan, rfl⟩ := QuotaScope.bucket_injective hb
    rw [haccount] at hs'
    exact ⟨Option.some.inj hs', hplan⟩
  · rintro ⟨rfl, hplan⟩
    rw [hplan] at hbucket
    exact ⟨s, haccount, hbucket⟩

theorem quotaAnswer_congr (h : ∀ k ∈ quotaKeys env now keyId owner endpoint plan,
      quotaUnits t k.1 k.2.1 k.2.2 = quotaUnits u k.1 k.2.1 k.2.2) :
    quotaAnswer env t now keyId owner endpoint plan =
      quotaAnswer env u now keyId owner endpoint plan := by
  unfold quotaAnswer
  congr 1
  apply List.map_congr_left
  intro spec hspec
  have hsame := h _ (List.mem_map_of_mem hspec)
  simp only [QuotaSpec.quotaKey] at hsame
  rw [hsame]

/-- A paid request of the account on one side. -/
theorem QuotasAlike.consume_paid (h : QuotasAlike keys userId now t u)
    (hpaid : ∀ k ∈ quotaKeys env now keyId owner endpoint plan, PaidBucket keys userId k.1)
    {state : RateLimitState}
    (hok : consumeCustomerQuotas env t now keyId owner endpoint plan = .ok (state, t')) :
    QuotasAlike keys userId now t' u := by
  rcases consumeCustomerQuotas_cases env t now keyId owner endpoint plan with
    ⟨-, herror⟩ | ⟨-, t₁, hok', -, hclash, hunits⟩
  · rw [herror] at hok
    cases hok
  · rw [hok'] at hok
    cases hok
    constructor
    · exact fun k hk => (hclash k).trans (h.clash k hk)
    · intro k hk hnot
      rw [hunits, if_neg fun hin => hnot (hpaid k hin.2), Nat.add_zero]
      exact h.same k hk hnot

/-- The same request on both sides: it throws on both or on neither, and where it is not of the
account's paid traffic it is answered alike. -/
theorem QuotasAlike.consume_both (h : QuotasAlike keys userId now t u) {key : ApiKey}
    (hkey : keys.get keyId = some key) (env : ProcessEnv) (endpoint : Option String)
    (plan : Option PaidPlan) :
    (consumeCustomerQuotas env t now keyId key.userId endpoint plan = .error .notUnique ∧
        consumeCustomerQuotas env u now keyId key.userId endpoint plan = .error .notUnique) ∨
      ∃ qt t' qu u',
        consumeCustomerQuotas env t now keyId key.userId endpoint plan = .ok (qt, t') ∧
        consumeCustomerQuotas env u now keyId key.userId endpoint plan = .ok (qu, u') ∧
        (qt.allowed = false → t' = t) ∧ (qu.allowed = false → u' = u) ∧
        QuotasAlike keys userId now t' u' ∧
        (¬ (key.userId = userId ∧ plan.isSome = true) → qt = qu) := by
  have hclash : ∀ k ∈ quotaKeys env now keyId key.userId endpoint plan,
      (1 < quotaRows t k ↔ 1 < quotaRows u k) := fun k hk => h.clash k (quotaKeys_recent hk)
  rcases consumeCustomerQuotas_cases env t now keyId key.userId endpoint plan with
    ⟨⟨k, hk, hsev⟩, ht⟩ | ⟨hno, t', ht, hkept, hrows, hunits⟩
  · rcases consumeCustomerQuotas_cases env u now keyId key.userId endpoint plan with
      ⟨-, hu⟩ | ⟨hno, -⟩
    · exact Or.inl ⟨ht, hu⟩
    · exact absurd ((hclash k hk).mp hsev) (hno k hk)
  · rcases consumeCustomerQuotas_cases env u now keyId key.userId endpoint plan with
      ⟨⟨k, hk, hsev⟩, -⟩ | ⟨-, u', hu, hkept', hrows', hunits'⟩
    · exact absurd ((hclash k hk).mpr hsev) (hno k hk)
    · have hanswer : ¬ (key.userId = userId ∧ plan.isSome = true) →
          quotaAnswer env t now keyId key.userId endpoint plan =
            quotaAnswer env u now keyId key.userId endpoint plan := by
        intro hnot
        apply quotaAnswer_congr
        intro k hk
        exact h.same k (quotaKeys_recent hk) (mt (quotaKeys_paid hkey hk).mp hnot)
      refine Or.inr ⟨_, t', _, u', ht, hu, hkept, hkept', ⟨?_, ?_⟩, hanswer⟩
      · intro k hk
        rw [hrows, hrows']
        exact h.clash k hk
      · intro k hk hnot
        rw [hunits, hunits', h.same k hk hnot]
        by_cases hin : k ∈ quotaKeys env now keyId key.userId endpoint plan
        · rw [hanswer (mt (quotaKeys_paid hkey hin).mpr hnot)]
        · rw [if_neg fun hc => hin hc.2, if_neg fun hc => hin hc.2]

end Quotas

end GeoPlatform.Convex
