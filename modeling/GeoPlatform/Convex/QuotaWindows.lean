import GeoPlatform.Convex.Effects
import GeoPlatform.Library.Separators

/-! What `consumeCustomerQuotas` does to the quota windows, and that their names keep keys,
tenants, endpoints and traffic classes apart. -/
namespace GeoPlatform.Convex
open Docs

/-! ### Names of the windows -/

/-- Whom a quota window counts for. -/
inductive QuotaScope where
  | key (keyId : ℕ)
  | tenant (userId : ℕ)
  | endpoint (userId : ℕ) (name : String)
  deriving DecidableEq

def QuotaScope.body : QuotaScope → String
  | .key keyId => "key:" ++ toString keyId
  | .tenant userId => "tenant:" ++ toString userId
  | .endpoint userId name => "tenant:" ++ toString userId ++ ":endpoint:" ++ name

/-- The bucket of a scope for paid or free traffic. -/
def QuotaScope.bucket (paid : Bool) (s : QuotaScope) : String :=
  (if paid then "" else "free:") ++ s.body

theorem keyQuotaBucket_eq (plan : Option PaidPlan) (keyId : ℕ) :
    keyQuotaBucket plan keyId = (QuotaScope.key keyId).bucket plan.isSome := rfl

theorem tenantQuotaBucket_eq (plan : Option PaidPlan) (userId : ℕ) :
    tenantQuotaBucket plan userId = (QuotaScope.tenant userId).bucket plan.isSome := rfl

theorem endpointQuotaBucket_eq (plan : Option PaidPlan) (userId : ℕ) (name : String) :
    endpointQuotaBucket plan userId name =
      (QuotaScope.endpoint userId name).bucket plan.isSome := rfl

theorem colon_notMem_toString (n : ℕ) : ':' ∉ (toString n).toList := by
  intro h
  have hdigit := isDigit_of_mem_toString h
  revert hdigit
  decide

theorem QuotaScope.body_injective {s s' : QuotaScope} (h : s.body = s'.body) : s = s' := by
  have hl := congrArg String.toList h
  cases s with
  | key k =>
    cases s' with
    | key k' =>
      simp only [body, String.toList_append, List.append_cancel_left_eq] at hl
      rw [toString_toList_inj hl]
    | tenant u' => simp [body] at hl
    | endpoint u' e' => simp [body] at hl
  | tenant u =>
    cases s' with
    | key k' => simp [body] at hl
    | tenant u' =>
      simp only [body, String.toList_append, List.append_cancel_left_eq] at hl
      rw [toString_toList_inj hl]
    | endpoint u' e' =>
      simp only [body, String.toList_append, List.append_assoc, List.append_cancel_left_eq] at hl
      refine absurd ?_ (colon_notMem_toString u)
      rw [hl]
      simp
  | endpoint u e =>
    cases s' with
    | key k' => simp [body] at hl
    | tenant u' =>
      simp only [body, String.toList_append, List.append_assoc, List.append_cancel_left_eq] at hl
      refine absurd ?_ (colon_notMem_toString u')
      rw [← hl]
      simp
    | endpoint u' e' =>
      simp only [body, String.toList_append, List.append_assoc, List.append_cancel_left_eq] at hl
      obtain ⟨hu, he⟩ := Separators.split_first (colon_notMem_toString u) (colon_notMem_toString u')
        hl
      rw [toString_toList_inj hu, String.toList_inj.mp (List.append_cancel_left he)]

theorem QuotaScope.bucket_injective {paid paid' : Bool} {s s' : QuotaScope}
    (h : s.bucket paid = s'.bucket paid') : paid = paid' ∧ s = s' := by
  have hl := congrArg String.toList h
  cases paid <;> cases paid'
  · simp only [bucket, String.toList_append, List.append_cancel_left_eq] at hl
    exact ⟨rfl, body_injective (String.toList_inj.mp hl)⟩
  · cases s <;> cases s' <;> simp [bucket, body] at hl
  · cases s <;> cases s' <;> simp [bucket, body] at hl
  · simp only [bucket, String.toList_append, List.append_cancel_left_eq] at hl
    exact ⟨rfl, body_injective (String.toList_inj.mp hl)⟩

/-! ### Units -/

/-- The units counted in a window; a missing row counts zero. -/
def quotaUnits (t : Table QuotaWindow) (bucket : String) (period : Period) (start : ℕ) : ℕ :=
  t.sum fun q => if isQuota bucket period start q then q.units else 0

/-- A window: its bucket, its period and where the period begins. -/
abbrev QuotaKey := String × Period × ℕ

def QuotaSpec.quotaKey (now : ℕ) (spec : QuotaSpec) : QuotaKey :=
  (spec.bucket, spec.period, (quotaPeriod now spec.period).start)

/-- What the first pass found for a spec, as long as the row it read is still as it was. -/
structure Checked (t : Table QuotaWindow) (now : ℕ) (spec : QuotaSpec) (c : QuotaCheck) : Prop where
  spec_eq : c.spec = spec
  start_eq : c.start = (quotaPeriod now spec.period).start
  next_eq : c.next = quotaUnits t spec.bucket spec.period c.start + 1
  allowed_iff : c.allowed = true ↔ c.next ≤ spec.limit
  row : ∀ d, c.existing = some d → t.get d.id = some d.val ∧
    isQuota spec.bucket spec.period c.start d.val = true ∧ c.next = d.val.units + 1
  no_row : c.existing = none → c.next = 1

theorem checkQuota_ok {t : Table QuotaWindow} {now : ℕ} {spec : QuotaSpec} {c : QuotaCheck}
    (h : checkQuota t now spec = .ok c) : Checked t now spec c := by
  unfold checkQuota at h
  simp only at h
  split at h
  · cases h
  · rename_i d hd
    cases h
    refine ⟨rfl, rfl, ?_, by simp, ?_, by simp⟩
    · rw [quotaUnits, Table.sum_of_unique_one hd]
    · intro e he
      cases he
      exact ⟨Table.get_of_unique hd, (Table.unique_mem hd).2, rfl⟩
  · rename_i hd
    cases h
    have hzero := Table.sum_of_unique_none hd QuotaWindow.units
    exact ⟨rfl, rfl, by rw [quotaUnits, hzero], by simp, by simp, fun _ => rfl⟩

theorem checkQuotas_ok {t : Table QuotaWindow} {now : ℕ} {specs : List QuotaSpec}
    {cs : List QuotaCheck} (h : checkQuotas t now specs = .ok cs) :
    List.Forall₂ (Checked t now) specs cs := by
  induction specs generalizing cs with
  | nil =>
    cases h
    exact .nil
  | cons spec specs ih =>
    obtain ⟨c, hc, h⟩ := except_bind_ok.mp h
    obtain ⟨cs, hcs, h⟩ := except_bind_ok.mp h
    cases h
    exact .cons (checkQuota_ok hc) (ih hcs)

theorem isQuota_iff {bucket bucket' : String} {period period' : Period} {start start' : ℕ}
    {q : QuotaWindow} (h : isQuota bucket period start q = true) :
    isQuota bucket' period' start' q = true ↔
      ((bucket, period, start) : QuotaKey) = (bucket', period', start') := by
  simp only [isQuota, Bool.and_eq_true, decide_eq_true_eq] at h ⊢
  obtain ⟨⟨rfl, rfl⟩, rfl⟩ := h
  simp only [Prod.mk.injEq, and_assoc]

/-- Writing a check adds one unit to its own window. -/
theorem quotaUnits_write {t : Table QuotaWindow} {now : ℕ} {spec : QuotaSpec} {c : QuotaCheck}
    (h : Checked t now spec c) (k : QuotaKey) :
    quotaUnits (writeQuota t c) k.1 k.2.1 k.2.2 =
      quotaUnits t k.1 k.2.1 k.2.2 + if spec.quotaKey now = k then 1 else 0 := by
  obtain ⟨bucket, period, start⟩ := k
  have hkey : spec.quotaKey now = (spec.bucket, spec.period, c.start) := by
    rw [QuotaSpec.quotaKey, h.start_eq]
  show quotaUnits (writeQuota t c) bucket period start = quotaUnits t bucket period start + _
  rw [hkey]
  unfold writeQuota
  split
  · rename_i d hd
    obtain ⟨hget, hquota, hnext⟩ := h.row d hd
    have hsum := Table.sum_patch hget (fun q => { q with units := c.next })
      (fun q => if isQuota bucket period start q then q.units else 0)
    have hsame : isQuota bucket period start { d.val with units := c.next } =
      isQuota bucket period start d.val := rfl
    simp only [hsame, isQuota_iff hquota] at hsum
    unfold quotaUnits
    split_ifs at hsum ⊢ <;> omega
  · rename_i hd
    rw [h.spec_eq, h.no_row hd]
    simp only [quotaUnits, Table.sum_insert]
    have hnew : isQuota spec.bucket spec.period c.start
        ⟨spec.bucket, spec.period, c.start, 1⟩ = true := by
      simp [isQuota]
    simp only [isQuota_iff hnew]

/-- A check stays good when another window is written. -/
theorem Checked.write {t : Table QuotaWindow} {now : ℕ} {spec spec' : QuotaSpec}
    {c c' : QuotaCheck} (h : Checked t now spec c) (h' : Checked t now spec' c')
    (hne : spec.quotaKey now ≠ spec'.quotaKey now) : Checked (writeQuota t c') now spec c := by
  have hkey : spec.quotaKey now = (spec.bucket, spec.period, c.start) := by
    rw [QuotaSpec.quotaKey, h.start_eq]
  have hkey' : spec'.quotaKey now = (spec'.bucket, spec'.period, c'.start) := by
    rw [QuotaSpec.quotaKey, h'.start_eq]
  have hunits := quotaUnits_write h' (spec.bucket, spec.period, c.start)
  rw [if_neg (hkey ▸ hne.symm), Nat.add_zero] at hunits
  refine ⟨h.spec_eq, h.start_eq, by rw [h.next_eq, hunits], h.allowed_iff, ?_, h.no_row⟩
  intro d hd
  obtain ⟨hget, hquota, hnext⟩ := h.row d hd
  refine ⟨?_, hquota, hnext⟩
  unfold writeQuota
  split
  · rename_i d' hd'
    obtain ⟨hget', hquota', -⟩ := h'.row d' hd'
    have hid : d.id ≠ d'.id := by
      intro hid
      rw [hid, hget'] at hget
      rw [Option.some.inj hget, isQuota_iff hquota, ← hkey, ← hkey'] at hquota'
      exact hne hquota'
    rw [Table.get_patch_of_ne _ hid]
    exact hget
  · exact Table.get_insert_of_some hget

theorem checked_writeAll {t : Table QuotaWindow} {now : ℕ} {spec : QuotaSpec} {c : QuotaCheck}
    (h : Checked t now spec c) {specs : List QuotaSpec} {cs : List QuotaCheck}
    (hcs : List.Forall₂ (Checked t now) specs cs)
    (hne : spec.quotaKey now ∉ specs.map (QuotaSpec.quotaKey now)) :
    List.Forall₂ (Checked (writeQuota t c) now) specs cs := by
  induction hcs with
  | nil => exact .nil
  | cons hc _ ih =>
    rw [List.map_cons, List.mem_cons, not_or] at hne
    exact .cons (hc.write h (Ne.symm hne.1)) (ih hne.2)

/-- Writing the checks of distinct windows adds one unit to each. -/
theorem quotaUnits_writeAll {t : Table QuotaWindow} {now : ℕ} {specs : List QuotaSpec}
    {cs : List QuotaCheck} (h : List.Forall₂ (Checked t now) specs cs)
    (hnodup : (specs.map (QuotaSpec.quotaKey now)).Nodup) (k : QuotaKey) :
    quotaUnits (cs.foldl writeQuota t) k.1 k.2.1 k.2.2 =
      quotaUnits t k.1 k.2.1 k.2.2 +
        if k ∈ specs.map (QuotaSpec.quotaKey now) then 1 else 0 := by
  induction specs generalizing t cs with
  | nil =>
    cases h
    simp
  | cons spec specs ih =>
    obtain ⟨hnotin, hnodup⟩ := List.nodup_cons.mp hnodup
    cases h with
    | cons hc hcs =>
      rw [List.foldl_cons, ih (checked_writeAll hc hcs hnotin) hnodup, quotaUnits_write hc]
      simp only [List.map_cons, List.mem_cons]
      by_cases hk : spec.quotaKey now = k
      · subst hk
        simp [hnotin]
      · simp [hk, Ne.symm hk]

/-! ### The five windows of a request -/

/-- The windows a customer request is counted in. -/
def quotaKeys (env : ProcessEnv) (now keyId userId : ℕ) (endpoint : Option String)
    (plan : Option PaidPlan) : List QuotaKey :=
  (quotaSpecs env keyId userId endpoint plan).map (QuotaSpec.quotaKey now)

variable {env : ProcessEnv} {now keyId userId : ℕ} {endpoint : Option String}
  {plan : Option PaidPlan}

theorem quotaKeys_nodup : (quotaKeys env now keyId userId endpoint plan).Nodup := by
  have hkt : keyQuotaBucket plan keyId ≠ tenantQuotaBucket plan userId := by
    rw [keyQuotaBucket_eq, tenantQuotaBucket_eq]
    exact fun h => nomatch (QuotaScope.bucket_injective h).2
  have hke : keyQuotaBucket plan keyId ≠
      endpointQuotaBucket plan userId (endpointName endpoint) := by
    rw [keyQuotaBucket_eq, endpointQuotaBucket_eq]
    exact fun h => nomatch (QuotaScope.bucket_injective h).2
  have hte : tenantQuotaBucket plan userId ≠
      endpointQuotaBucket plan userId (endpointName endpoint) := by
    rw [tenantQuotaBucket_eq, endpointQuotaBucket_eq]
    exact fun h => nomatch (QuotaScope.bucket_injective h).2
  simp [quotaKeys, quotaSpecs, QuotaSpec.quotaKey, hkt, hke, hte]

/-- An accepted request adds one unit to each of its five windows, and each stays within its
limit. -/
theorem consumeCustomerQuotas_ok {t t' : Table QuotaWindow} {state : RateLimitState}
    (h : consumeCustomerQuotas env t now keyId userId endpoint plan = .ok (state, t'))
    (hallowed : state.allowed = true) :
    (∀ k : QuotaKey, quotaUnits t' k.1 k.2.1 k.2.2 = quotaUnits t k.1 k.2.1 k.2.2 +
      if k ∈ quotaKeys env now keyId userId endpoint plan then 1 else 0) ∧
    ∀ spec ∈ quotaSpecs env keyId userId endpoint plan,
      quotaUnits t' spec.bucket spec.period (quotaPeriod now spec.period).start ≤ spec.limit := by
  obtain ⟨checked, hchecked, h⟩ := except_bind_ok.mp h
  have hall := checkQuotas_ok hchecked
  simp only at h
  split_ifs at h with hcombined
  · cases h
    have hunits := quotaUnits_writeAll hall quotaKeys_nodup
    refine ⟨hunits, fun spec hspec => ?_⟩
    have hwindow := hunits (spec.quotaKey now)
    rw [if_pos (List.mem_map_of_mem hspec)] at hwindow
    obtain ⟨c, hc, hcheck⟩ : ∃ c ∈ checked, Checked t now spec c := by
      obtain ⟨i, hi, rfl⟩ := List.mem_iff_getElem.mp hspec
      have hlen := hall.length_eq
      exact ⟨checked[i], List.getElem_mem _, List.forall₂_iff_get.mp hall |>.2 i hi (by omega)⟩
    rw [combine_allowed, List.all_map, List.all_eq_true] at hcombined
    have hroom := hcheck.allowed_iff.mp (hcombined c hc)
    rw [hcheck.next_eq, hcheck.start_eq] at hroom
    simp only [QuotaSpec.quotaKey] at hwindow
    omega
  · cases h
    exact absurd hallowed hcombined

/-- A request is refused only by a window that has no room for one more unit. -/
theorem consumeCustomerQuotas_refused {t t' : Table QuotaWindow} {state : RateLimitState}
    (h : consumeCustomerQuotas env t now keyId userId endpoint plan = .ok (state, t'))
    (hrefused : state.allowed = false) :
    ∃ spec ∈ quotaSpecs env keyId userId endpoint plan, spec.limit <
      quotaUnits t spec.bucket spec.period (quotaPeriod now spec.period).start + 1 := by
  obtain ⟨checked, hchecked, h⟩ := except_bind_ok.mp h
  have hall := checkQuotas_ok hchecked
  simp only at h
  split_ifs at h with hcombined
  · cases h
    rw [hcombined] at hrefused
    cases hrefused
  · rw [combine_allowed, List.all_map, List.all_eq_true] at hcombined
    push Not at hcombined
    obtain ⟨c, hc, hfull⟩ := hcombined
    obtain ⟨i, hi, rfl⟩ := List.mem_iff_getElem.mp hc
    have hlen := hall.length_eq
    have hspec : i < (quotaSpecs env keyId userId endpoint plan).length := by omega
    have hcheck := (List.forall₂_iff_get.mp hall).2 i hspec hi
    refine ⟨_, List.getElem_mem hspec, ?_⟩
    have hroom := hcheck.allowed_iff
    rw [hcheck.next_eq, hcheck.start_eq] at hroom
    by_contra hle
    exact hfull (hroom.mpr (by simpa using hle))

/-- The windows of a request are those of its key, its tenant and its endpoint. -/
theorem quotaKeys_scope {k : QuotaKey} (h : k ∈ quotaKeys env now keyId userId endpoint plan) :
    ∃ s : QuotaScope, k.1 = s.bucket plan.isSome ∧
      (s = .key keyId ∨ s = .tenant userId ∨ s = .endpoint userId (endpointName endpoint)) := by
  simp only [quotaKeys, quotaSpecs, QuotaSpec.quotaKey, List.map_cons, List.map_nil,
    List.mem_cons, List.not_mem_nil, or_false] at h
  rcases h with rfl | rfl | rfl | rfl | rfl
  · exact ⟨.key keyId, keyQuotaBucket_eq plan keyId, Or.inl rfl⟩
  · exact ⟨.key keyId, keyQuotaBucket_eq plan keyId, Or.inl rfl⟩
  · exact ⟨.tenant userId, tenantQuotaBucket_eq plan userId, Or.inr (Or.inl rfl)⟩
  · exact ⟨.tenant userId, tenantQuotaBucket_eq plan userId, Or.inr (Or.inl rfl)⟩
  · exact ⟨.endpoint userId (endpointName endpoint), endpointQuotaBucket_eq plan userId _,
      Or.inr (Or.inr rfl)⟩

end GeoPlatform.Convex
