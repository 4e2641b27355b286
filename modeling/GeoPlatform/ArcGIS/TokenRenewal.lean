import GeoPlatform.ArcGIS.Tokens
import GeoPlatform.Library.Mutex
import GeoPlatform.Library.Run

/-! How tokens are renewed. The lock belongs to the one request inside `_generate`, a cached
token is one the service issued, and a rejected token is dropped only while it is the cached
one. -/
namespace GeoPlatform.ArcGIS
open Mutex Runs

/-- A reply that neither hands out a token nor starts a call of the token service. -/
def ProviderReply.quiet : ProviderReply → Prop
  | .queued | .raised _ | .done | .disabled => True
  | .cached _ | .started | .issued _ _ => False

/-- Everything one step can do. -/
inductive ProviderMove (svc : TokenService) (s : Provider) :
    ProviderEvent → ProviderReply → Provider → Prop where
  | disabled (e : ProviderEvent) : ProviderMove svc s e .disabled s
  | hands {e : ProviderEvent} {i : ℕ} {t : String} (hi : ∀ start, s.tasks i ≠ .generating start)
      (hc : s.cache.current s.now = some t) :
      ProviderMove svc s e (.cached t) (s.setTask i (.holding t))
  | moves {e : ProviderEvent} {i : ℕ} {t : Task} {r : ProviderReply}
      (hi : ∀ start, s.tasks i ≠ .generating start) (hg : ∀ start, t ≠ .generating start)
      (hh : ∀ x, t ≠ .holding x) (hr : ∀ x, t = .rejecting x → s.tasks i = .holding x)
      (hq : r.quiet) : ProviderMove svc s e r (s.setTask i t)
  | starts {i : ℕ} (hl : s.lock = none) (hc : s.cache.current s.now = none)
      (hr : s.cache.remembered s.now = none) : ProviderMove svc s (.acquire i) .started
        { s.setTask i (.generating s.now) with lock := some i }
  | breaks {i : ℕ} {start : ℚ} (hi : s.tasks i = .generating start) :
      ProviderMove svc s (.generated i none) .done { s.setTask i .idle with lock := none }
  | fails {i : ℕ} {start : ℚ} {reply : TokenReply} {e : RaisedError}
      (hi : s.tasks i = .generating start) (he : svc.generate s.now reply = .error e) :
      ProviderMove svc s (.generated i (some reply)) (.raised e)
        { s.setTask i .idle with lock := none, cache := s.cache.failed s.now e }
  | issues {i : ℕ} {start : ℚ} {reply : TokenReply} {t : String} {x : ℚ}
      (hi : s.tasks i = .generating start) (ht : svc.generate s.now reply = .ok (t, x)) :
      ProviderMove svc s (.generated i (some reply)) (.issued t (renewTime start x))
        { s.setTask i (.holding t) with lock := none, cache := s.cache.issued start t x }
  | drops {i : ℕ} {t : String} (hi : s.tasks i = .rejecting t) (hl : s.lock = none) :
      ProviderMove svc s (.invalidate i) .done
        { s.setTask i .idle with cache := s.cache.invalidate (some t) }
  | ticks (t : ℚ) : ProviderMove svc s (.clock t) .done { s with now := t }

theorem providerStep_move (svc : TokenService) (s : Provider) (e : ProviderEvent) :
    ProviderMove svc s e (providerStep svc s e).1 (next (providerStep svc) s e) := by
  cases e with
  | call i =>
    by_cases hi : s.tasks i = .idle
    · simp only [next, providerStep, if_pos hi, Provider.call]
      cases hc : s.cache.current s.now with
      | some t => exact .hands (by simp [hi]) hc
      | none => exact .moves (by simp [hi]) nofun nofun nofun trivial
    · simpa only [next, providerStep, if_neg hi] using .disabled _
  | acquire i =>
    by_cases hi : s.tasks i = .waiting ∧ s.lock = none
    · simp only [next, providerStep, if_pos hi, Provider.acquire]
      cases hc : s.cache.current s.now with
      | some t => exact .hands (by simp [hi.1]) hc
      | none =>
        cases hr : s.cache.remembered s.now with
        | some e => exact .moves (by simp [hi.1]) nofun nofun nofun trivial
        | none => exact .starts hi.2 hc hr
    · simpa only [next, providerStep, if_neg hi] using .disabled _
  | generated i reply =>
    cases hi : s.tasks i with
    | generating start =>
      simp only [next, providerStep, hi, Provider.generated]
      cases reply with
      | none => exact .breaks hi
      | some reply =>
        rw [Option.map_some]
        cases hg : svc.generate s.now reply with
        | error e => exact .fails hi hg
        | ok p => exact .issues hi hg
    | _ => simpa only [next, providerStep, hi] using .disabled _
  | reject i =>
    cases hi : s.tasks i with
    | holding t =>
      simp only [next, providerStep, hi]
      exact .moves (by simp [hi]) nofun nofun (fun x hx => by simpa [hi] using hx) trivial
    | _ => simpa only [next, providerStep, hi] using .disabled _
  | invalidate i =>
    cases hi : s.tasks i with
    | rejecting t =>
      cases hl : s.lock with
      | none =>
        have hstep : providerStep svc s (.invalidate i) =
            (.done, { s.setTask i .idle with cache := s.cache.invalidate (some t) }) := by
          simp only [providerStep, hi, hl]
        rw [next, hstep]
        exact .drops hi hl
      | some j => simpa only [next, providerStep, hi, hl] using .disabled _
    | _ => simpa only [next, providerStep, hi] using .disabled _
  | leave i =>
    cases hi : s.tasks i with
    | generating start => simpa only [next, providerStep, hi] using .disabled _
    | _ =>
      simp only [next, providerStep, hi]
      exact .moves (by simp [hi]) nofun nofun nofun trivial
  | clock t => exact .ticks t

variable {svc : TokenService} {s s' : Provider} {e : ProviderEvent} {r : ProviderReply}

/-! ### One call of the token service at a time -/

/-- The lock is held exactly by the request inside `_generate`. -/
def LockHeld (s : Provider) : Prop :=
  ∀ i, (∃ start, s.tasks i = .generating start) ↔ s.lock = some i

/-- Inside `_generate`. -/
def Task.Generating (t : Task) : Prop := ∃ start, t = .generating start

theorem LockHeld.held (h : LockHeld s) : Held Task.Generating s.tasks s.lock := h

theorem LockHeld.not_generating (h : LockHeld s) (hl : s.lock = none) (i : ℕ) (start : ℚ) :
    s.tasks i ≠ .generating start := by
  intro hs
  have hheld := h.held
  rw [hl] at hheld
  exact hheld.free i ⟨start, hs⟩

theorem LockHeld.setTask (h : LockHeld s) {i : ℕ} {t : Task}
    (hi : ∀ start, s.tasks i ≠ .generating start) (ht : ∀ start, t ≠ .generating start) :
    LockHeld (s.setTask i t) :=
  h.held.outside (fun ⟨start, hs⟩ => hi start hs) fun ⟨start, hs⟩ => ht start hs

/-- Everybody but the holder is outside `_generate`, so when it leaves the lock is free. -/
theorem LockHeld.release (h : LockHeld s) {i : ℕ} {start : ℚ} {t : Task}
    (hi : s.tasks i = .generating start) (ht : ∀ start, t ≠ .generating start)
    (cache : TokenCache) : LockHeld { s.setTask i t with lock := none, cache := cache } :=
  h.held.leave ⟨start, hi⟩ fun ⟨start', hs⟩ => ht start' hs

theorem LockHeld.start (h : LockHeld s) (hl : s.lock = none) (i : ℕ) (start : ℚ) :
    LockHeld { s.setTask i (.generating start) with lock := some i } := by
  have hheld := h.held
  rw [hl] at hheld
  exact hheld.enter ⟨start, rfl⟩

theorem ProviderMove.lockHeld (hm : ProviderMove svc s e r s') (h : LockHeld s) :
    LockHeld s' := by
  cases hm with
  | disabled => exact h
  | hands hi hc => exact h.setTask hi nofun
  | moves hi hg => exact h.setTask hi hg
  | starts hl => exact h.start hl _ _
  | breaks hi => exact h.release (t := .idle) hi nofun s.cache
  | fails hi => exact h.release (t := .idle) hi nofun _
  | issues hi => exact h.release (t := .holding _) hi nofun _
  | drops hi => exact h.setTask (by simp [hi]) nofun
  | ticks t => exact h

theorem lockHeld_run (svc : TokenService) (es : List ProviderEvent) :
    LockHeld (final (providerStep svc) {} es) :=
  final_induction (providerStep svc) (fun _ => by simp)
    (fun s e h => (providerStep_move svc s e).lockHeld h) es

/-! ### The tokens issued -/

def ProviderReply.issue : ProviderReply → Option (String × ℚ)
  | .issued t renewAt => some (t, renewAt)
  | _ => none

theorem issue_of_quiet (h : r.quiet) : r.issue = none := by
  cases r <;> first | rfl | cases h

/-- The tokens that a run gets from the token service, with their renewal times. -/
def issues (svc : TokenService) (s : Provider) (es : List ProviderEvent) : List (String × ℚ) :=
  (trace (providerStep svc) s es).filterMap (·.reply.issue)

theorem issues_cons (svc : TokenService) (s : Provider) (e : ProviderEvent)
    (es : List ProviderEvent) : issues svc s (e :: es) =
      (providerStep svc s e).1.issue.toList ++ issues svc (next (providerStep svc) s e) es := by
  rw [issues, trace_cons, List.filterMap_cons]
  cases (providerStep svc s e).1.issue <;> rfl

theorem issues_append (svc : TokenService) (s : Provider) (es fs : List ProviderEvent) :
    issues svc s (es ++ fs) =
      issues svc s es ++ issues svc (final (providerStep svc) s es) fs := by
  simp only [issues, trace_append, List.filterMap_append]

theorem current_eq_some {c : TokenCache} {now : ℚ} {t : String} :
    c.current now = some t ↔ c.token = some t ∧ t ≠ "" ∧ now < c.renewAt := by
  simp [TokenCache.current, Option.filter_eq_some_iff]

theorem generate_ok {now : ℚ} {reply : TokenReply} {t : String} {x : ℚ}
    (h : svc.generate now reply = .ok (t, x)) : t ≠ "" := by
  unfold TokenService.generate at h
  cases hp : tokenPost reply with
  | error e => simp [hp] at h
  | ok p =>
    rcases hr : svc.read now p with ⟨o, expiresAt⟩
    cases o with
    | none => simp [hp, hr] at h
    | some token =>
      by_cases ht : token = ""
      · simp [hp, hr, ht] at h
      · simp only [hp, hr, if_neg ht, Except.ok.injEq, Prod.mk.injEq] at h
        exact h.1 ▸ ht

/-- The cached token and every token in use came from the service. -/
structure Known (l : List (String × ℚ)) (s : Provider) : Prop where
  cached : ∀ t, s.cache.token = some t → (t, s.cache.renewAt) ∈ l
  used : ∀ i t, s.tasks i = .holding t ∨ s.tasks i = .rejecting t → ∃ r, (t, r) ∈ l

theorem Known.mono {l l' : List (String × ℚ)} (h : Known l s) (hl : l ⊆ l') : Known l' s :=
  ⟨fun t ht => hl (h.cached t ht), fun i t ht => (h.used i t ht).imp fun _ hm => hl hm⟩

/-- One request moves, and the cache keeps to the tokens issued. -/
theorem Known.move {l : List (String × ℚ)} (h : Known l s) {i : ℕ} {t : Task}
    (htasks : s'.tasks = Function.update s.tasks i t)
    (hc : ∀ x, s'.cache.token = some x → (x, s'.cache.renewAt) ∈ l)
    (ht : ∀ x, t = .holding x ∨ t = .rejecting x → ∃ r, (x, r) ∈ l) : Known l s' := by
  refine ⟨hc, fun j x hx => ?_⟩
  rw [htasks] at hx
  by_cases hj : j = i
  · subst hj
    exact ht x (by simpa using hx)
  · exact h.used j x (by simpa [hj] using hx)

theorem failed_token (c : TokenCache) (now : ℚ) (e : RaisedError) :
    (c.failed now e).token = c.token ∧ (c.failed now e).renewAt = c.renewAt := by
  obtain ⟨kind, message, code, details⟩ := e
  cases kind <;> exact ⟨rfl, rfl⟩

/-- A rejected token is dropped when it is the cached one; another one stays. -/
theorem invalidate_cases (c : TokenCache) (rejected : Option String) :
    ((c.invalidate rejected).token = none ∧ (rejected = none ∨ rejected = c.token)) ∨
      c.invalidate rejected = c := by
  unfold TokenCache.invalidate
  split_ifs with h
  · exact Or.inl ⟨rfl, h⟩
  · exact Or.inr rfl

theorem ProviderMove.known (hm : ProviderMove svc s e r s') {l : List (String × ℚ)}
    (h : Known l s) : Known (l ++ r.issue.toList) s' := by
  have hsame {s'' : Provider} (hk : Known l s'') (hr : r.issue = none) :
      Known (l ++ r.issue.toList) s'' := by
    rw [hr]
    exact hk.mono (by simp)
  cases hm with
  | disabled => exact hsame h rfl
  | hands hi hc =>
    refine hsame (h.move rfl h.cached ?_) rfl
    rintro x (hx | hx)
    · cases hx
      exact ⟨_, h.cached _ (current_eq_some.mp hc).1⟩
    · cases hx
  | moves hi hg hh hr hq =>
    refine hsame (h.move rfl h.cached ?_) ?_
    · rintro x (hx | hx)
      · exact absurd hx (hh x)
      · exact h.used _ x (Or.inl (hr x hx))
    · exact issue_of_quiet hq
  | starts => exact hsame (h.move rfl h.cached (by simp)) rfl
  | breaks => exact hsame (h.move rfl h.cached (by simp)) rfl
  | fails hi he =>
    obtain ⟨htoken, hrenew⟩ := failed_token s.cache s.now ‹_›
    refine hsame (h.move rfl (fun x hx => ?_) (by simp)) rfl
    show (x, (s.cache.failed s.now _).renewAt) ∈ l
    rw [hrenew]
    exact h.cached x (htoken ▸ hx)
  | issues hi ht =>
    refine (h.mono (List.subset_append_left l _)).move rfl ?_ ?_
    · intro x hx
      cases hx
      simp [TokenCache.issued, ProviderReply.issue]
    · rintro x (hx | hx)
      · cases hx
        exact ⟨_, List.mem_append_right l (List.mem_singleton.mpr rfl)⟩
      · cases hx
  | drops hi hl =>
    refine hsame (h.move rfl (fun x hx => ?_) (by simp)) rfl
    rename_i i t
    rcases invalidate_cases s.cache (some t) with ⟨hc, -⟩ | hc
    · exact absurd (hc.symm.trans hx) nofun
    · have hx' : (s.cache.invalidate (some t)).token = some x := hx
      show (x, (s.cache.invalidate (some t)).renewAt) ∈ l
      rw [hc] at hx' ⊢
      exact h.cached x hx'
  | ticks t => exact hsame ⟨h.cached, h.used⟩ rfl

theorem known_run (svc : TokenService) (es : List ProviderEvent) :
    Known (issues svc {} es) (final (providerStep svc) {} es) := by
  refine history_induction (providerStep svc)
    (P := fun es s => Known (issues svc {} es) s) ⟨by simp, by simp⟩ (fun pre e h => ?_) es
  have hm := (providerStep_move svc (final (providerStep svc) {} pre) e).known h
  rw [issues_append, issues_cons]
  exact hm.mono (by simp [issues])

/-! ### Rejections of one token -/

/-- A step that finds no expired token in the cache and lets no other token than `T` be
invalidated. -/
def RejectsOnly (T : String) (s : Provider) (e : ProviderEvent) : Prop :=
  (∀ t, s.cache.token = some t → s.now < s.cache.renewAt) ∧
    ∀ i t, e = .invalidate i → s.tasks i = .rejecting t → t = T

def Task.rejectsOnly (T : String) : Task → Bool
  | .rejecting t => t = T
  | _ => true

theorem Task.rejectsOnly_iff (T : String) (x : Task) :
    x.rejectsOnly T = true ↔ ∀ t, x = .rejecting t → t = T := by
  cases x <;> simp [Task.rejectsOnly]

def rejectsOnly (T : String) (s : Provider) (e : ProviderEvent) : Bool :=
  (s.cache.token.isNone || s.now < s.cache.renewAt) &&
    match e with
    | .invalidate i => (s.tasks i).rejectsOnly T
    | _ => true

theorem rejectsOnly_iff (T : String) (s : Provider) (e : ProviderEvent) :
    rejectsOnly T s e = true ↔ RejectsOnly T s e := by
  have hfresh : (s.cache.token.isNone || decide (s.now < s.cache.renewAt)) = true ↔
      ∀ t, s.cache.token = some t → s.now < s.cache.renewAt := by
    cases s.cache.token <;> simp
  unfold rejectsOnly RejectsOnly
  rw [Bool.and_eq_true, hfresh]
  apply and_congr_right'
  cases e with
  | invalidate i =>
    rw [Task.rejectsOnly_iff]
    constructor
    · rintro h j t heq hj
      cases heq
      exact h t hj
    · exact fun h t => h i t rfl
  | _ => exact ⟨fun _ i t h => (nomatch h), fun _ => rfl⟩

instance (T : String) (s : Provider) (e : ProviderEvent) : Decidable (RejectsOnly T s e) :=
  decidable_of_iff _ (rejectsOnly_iff T s e)

/-- The cache holds another token than `T` and nobody is inside `_generate`. -/
def Renewed (T : String) (s : Provider) : Prop :=
  LockHeld s ∧ s.lock = none ∧ ∃ t, s.cache.token = some t ∧ t ≠ "" ∧ t ≠ T

/-- Once renewed, rejections of the old token neither drop the new one nor call the service. -/
theorem ProviderMove.renewed (hm : ProviderMove svc s e r s') {T : String}
    (hc : RejectsOnly T s e) (h : Renewed T s) : Renewed T s' ∧ r.issue = none := by
  obtain ⟨hlock, hfree, t, ht, hne, hT⟩ := h
  have hcurrent : s.cache.current s.now = some t := current_eq_some.mpr ⟨ht, hne, hc.1 t ht⟩
  have hl := hm.lockHeld hlock
  cases hm with
  | disabled => exact ⟨⟨hlock, hfree, t, ht, hne, hT⟩, rfl⟩
  | hands => exact ⟨⟨hl, hfree, t, ht, hne, hT⟩, rfl⟩
  | moves hi hg hh hr hq =>
    exact ⟨⟨hl, hfree, t, ht, hne, hT⟩, issue_of_quiet hq⟩
  | starts hl hn =>
    rw [hcurrent] at hn
    cases hn
  | breaks hi => exact absurd hi (hlock.not_generating hfree _ _)
  | fails hi => exact absurd hi (hlock.not_generating hfree _ _)
  | issues hi => exact absurd hi (hlock.not_generating hfree _ _)
  | drops hi hl' =>
    rename_i i t'
    have htT : t' = T := hc.2 i t' rfl hi
    have hkeep : s.cache.invalidate (some t') = s.cache := by
      refine if_neg ?_
      rintro (hx | hx)
      · cases hx
      · rw [ht, htT] at hx
        exact hT (Option.some.inj hx).symm
    refine ⟨⟨hl, hfree, t, ?_, hne, hT⟩, rfl⟩
    show (s.cache.invalidate (some t')).token = some t
    rw [hkeep, ht]
  | ticks => exact ⟨⟨hl, hfree, t, ht, hne, hT⟩, rfl⟩

theorem issues_of_renewed {T : String} {es : List ProviderEvent} (h : Renewed T s)
    (hc : Guarded (providerStep svc) (RejectsOnly T) s es) : issues svc s es = [] := by
  induction es generalizing s with
  | nil => rfl
  | cons e es ih =>
    obtain ⟨hnext, hr⟩ := (providerStep_move svc s e).renewed hc.1 h
    rw [issues_cons, hr, ih hnext hc.2]
    rfl

/-- While no token expires, rejections of one token lead to one successful issue at most. -/
theorem issues_of_rejectsOnly {T : String} {es : List ProviderEvent} (h : LockHeld s)
    (hc : Guarded (providerStep svc) (RejectsOnly T) s es)
    (hT : T ∉ (issues svc s es).map Prod.fst) : (issues svc s es).length ≤ 1 := by
  induction es generalizing s with
  | nil => exact Nat.zero_le _
  | cons e es ih =>
    have hm := providerStep_move svc s e
    have hnext := hm.lockHeld h
    rw [issues_cons] at hT ⊢
    cases hr : (providerStep svc s e).1.issue with
    | none =>
      rw [hr] at hT
      exact ih hnext hc.2 hT
    | some x =>
      obtain ⟨t, renewAt⟩ := x
      rw [hr] at hT
      simp only [Option.toList_some, List.singleton_append, List.map_cons, List.mem_cons,
        not_or] at hT
      have hren : Renewed T (next (providerStep svc) s e) := by
        generalize (providerStep svc s e).1 = r at hm hr
        generalize next (providerStep svc) s e = s' at hm hnext
        cases hm with
        | issues hi ht =>
          cases hr
          exact ⟨hnext, rfl, t, rfl, generate_ok ht, fun heq => hT.1 heq.symm⟩
        | moves hi hg hh hrej hq =>
          rw [issue_of_quiet hq] at hr
          cases hr
        | _ => cases hr
      rw [issues_of_renewed hren hc.2]
      simp

/-! ### Failures of the token service -/

/-- A failure remembered at the time `f`. -/
def Remembers (f : ℚ) (s : Provider) : Prop :=
  LockHeld s ∧ s.lock = none ∧ s.cache.lastFailure.isSome ∧
    s.cache.failedUntil = f + FAILURE_BACKOFF_SECONDS

theorem remembered_of {f : ℚ} (h : Remembers f s) (hn : s.now < f + FAILURE_BACKOFF_SECONDS) :
    s.cache.remembered s.now ≠ none := by
  obtain ⟨-, -, hsome, huntil⟩ := h
  obtain ⟨e, he⟩ := Option.isSome_iff_exists.mp hsome
  simp [TokenCache.remembered, he, huntil, hn]

theorem ProviderMove.remembers (hm : ProviderMove svc s e r s') {f : ℚ}
    (hn : s.now < f + FAILURE_BACKOFF_SECONDS) (h : Remembers f s) :
    Remembers f s' ∧ r ≠ .started := by
  have hrem := remembered_of h hn
  obtain ⟨hlock, hfree, hsome, huntil⟩ := h
  have hl := hm.lockHeld hlock
  cases hm with
  | disabled => exact ⟨⟨hlock, hfree, hsome, huntil⟩, nofun⟩
  | hands => exact ⟨⟨hl, hfree, hsome, huntil⟩, nofun⟩
  | moves hi hg hh hr hq =>
    refine ⟨⟨hl, hfree, hsome, huntil⟩, fun hs => ?_⟩
    rw [hs] at hq
    cases hq
  | starts hl hn hr => exact absurd hr hrem
  | breaks hi => exact absurd hi (hlock.not_generating hfree _ _)
  | fails hi => exact absurd hi (hlock.not_generating hfree _ _)
  | issues hi => exact absurd hi (hlock.not_generating hfree _ _)
  | drops hi hl' =>
    rename_i i t
    have hkeep : (s.cache.invalidate (some t)).lastFailure = s.cache.lastFailure ∧
        (s.cache.invalidate (some t)).failedUntil = s.cache.failedUntil := by
      unfold TokenCache.invalidate
      split_ifs <;> exact ⟨rfl, rfl⟩
    exact ⟨⟨hl, hfree, hkeep.1 ▸ hsome, hkeep.2.trans huntil⟩, nofun⟩
  | ticks => exact ⟨⟨hl, hfree, hsome, huntil⟩, nofun⟩

theorem not_started_of_remembers {f : ℚ} {es : List ProviderEvent} (h : Remembers f s)
    (hn : ∀ x ∈ trace (providerStep svc) s es, x.before.now < f + FAILURE_BACKOFF_SECONDS) :
    ∀ x ∈ trace (providerStep svc) s es, x.reply ≠ .started := by
  induction es generalizing s with
  | nil => simp
  | cons e es ih =>
    rw [trace_cons, List.forall_mem_cons] at hn ⊢
    obtain ⟨hnext, hr⟩ := (providerStep_move svc s e).remembers hn.1 h
    exact ⟨hr, ih hnext hn.2⟩

/-- `_generate` fails with one of the two remembered classes. -/
theorem generate_error {now : ℚ} {reply : TokenReply} {x : RaisedError}
    (h : svc.generate now reply = .error x) : x.kind = .auth ∨ x.kind = .unavailable := by
  unfold TokenService.generate at h
  cases reply with
  | httpError name => cases h; exact Or.inr rfl
  | notJson => cases h; exact Or.inl rfl
  | notObject => cases h; exact Or.inl rfl
  | object p =>
    rcases hr : svc.read now p with ⟨_ | t, expiresAt⟩
    · simp only [tokenPost, hr] at h
      cases h
      exact Or.inl rfl
    · simp only [tokenPost, hr] at h
      split_ifs at h
      cases h
      exact Or.inl rfl

/-! ### Renewal -/

/-- Some request of the run had `T` on its headers when a service rejected it. -/
def RejectedIn (svc : TokenService) (T : String) (es : List ProviderEvent) : Prop :=
  ∃ x ∈ trace (providerStep svc) {} es, ∃ i,
    x.event = .reject i ∧ x.before.tasks i = .holding T

/-- The token service never issues a string twice. -/
def DistinctIssues (svc : TokenService) (es : List ProviderEvent) : Prop :=
  ((issues svc {} es).map Prod.fst).Nodup

theorem issued_of_rejectedIn {T : String} {es : List ProviderEvent}
    (h : RejectedIn svc T es) : T ∈ (issues svc {} es).map Prod.fst := by
  obtain ⟨x, hx, i, -, hi⟩ := h
  obtain ⟨pre, post, rfl, hb, -⟩ := mem_trace (providerStep svc) hx
  rw [hb] at hi
  obtain ⟨r, hr⟩ := (known_run svc pre).used i T (Or.inl hi)
  rw [issues_append, List.map_append]
  exact List.mem_append_left _ (List.mem_map.mpr ⟨_, hr, rfl⟩)

theorem not_issued_again {T : String} {es more : List ProviderEvent}
    (hd : DistinctIssues svc (es ++ more)) (hT : T ∈ (issues svc {} es).map Prod.fst) :
    T ∉ (issues svc (final (providerStep svc) {} es) more).map Prod.fst := by
  rw [DistinctIssues, issues_append, List.map_append] at hd
  exact fun hm => (List.nodup_append.mp hd).2.2 T hT T hm rfl

/-- `invalidate` of another token than the cached one changes nothing. -/
theorem invalidate_other {T T' : String} (ht : s.cache.token = some T') (hne : T' ≠ T) {j : ℕ}
    (hj : s.tasks j = .rejecting T) :
    (next (providerStep svc) s (.invalidate j)).cache = s.cache := by
  cases hl : s.lock with
  | some k => simp only [next, providerStep, hj, hl]
  | none =>
    simp only [next, providerStep, hj, hl]
    rcases invalidate_cases s.cache (some T) with ⟨-, hx | hx⟩ | hx
    · cases hx
    · rw [ht] at hx
      exact absurd (Option.some.inj hx).symm hne
    · exact hx

theorem cached_before_renewal {es : List ProviderEvent} (hd : DistinctIssues svc es)
    {e : ProviderEvent} {t : String}
    (ht : (providerStep svc (final (providerStep svc) {} es) e).1 = .cached t) {r : ℚ}
    (hr : (t, r) ∈ issues svc {} es) : (final (providerStep svc) {} es).now < r := by
  have hm := providerStep_move svc (final (providerStep svc) {} es) e
  have hk := known_run svc es
  rw [ht] at hm
  generalize next (providerStep svc) (final (providerStep svc) {} es) e = s' at hm
  cases hm with
  | hands hi hc =>
    obtain ⟨htok, -, hlt⟩ := current_eq_some.mp hc
    have heq := List.inj_on_of_nodup_map hd hr (hk.cached t htok) rfl
    exact (Prod.mk.inj heq).2 ▸ hlt
  | moves hi hg hh hrej hq => cases hq

theorem remembers_after_failure (hl : LockHeld s) {i : ℕ} {start : ℚ} {reply : TokenReply}
    {x : RaisedError} (hi : s.tasks i = .generating start)
    (hx : svc.generate s.now reply = .error x) :
    Remembers s.now (next (providerStep svc) s (.generated i (some reply))) := by
  refine ⟨(providerStep_move svc s _).lockHeld hl, ?_⟩
  simp only [next, providerStep, hi, Provider.generated, Option.map_some, hx]
  unfold TokenCache.failed
  rcases generate_error hx with hk | hk <;> simp [hk]

/-- In every run of concurrent requests, at most one `_generate` is in progress. A token issued
after `T` was rejected is kept by every `invalidate(T)`, so that while no token expires the
rejections of `T` lead to at most one issue. A cached token is handed out only before its
renewal time. After a failure of the token service no call starts until `FAILURE_BACKOFF_SECONDS`
have passed. -/
theorem token_renewal (svc : TokenService) (es : List ProviderEvent) :
    let s := final (providerStep svc) {} es
    (∀ i j start start', s.tasks i = .generating start → s.tasks j = .generating start' →
      i = j) ∧
    (∀ T more, RejectedIn svc T es → DistinctIssues svc (es ++ more) →
      ∀ T' ∈ (issues svc s more).map Prod.fst,
        let s' := final (providerStep svc) s more
        s'.cache.token = some T' → ∀ j, s'.tasks j = .rejecting T →
          (next (providerStep svc) s' (.invalidate j)).cache = s'.cache) ∧
    (∀ T more, T ∈ (issues svc {} es).map Prod.fst → DistinctIssues svc (es ++ more) →
      Guarded (providerStep svc) (RejectsOnly T) s more → (issues svc s more).length ≤ 1) ∧
    (DistinctIssues svc es → ∀ e t r, (providerStep svc s e).1 = .cached t →
      (t, r) ∈ issues svc {} es → s.now < r) ∧
    (∀ i start reply x more, s.tasks i = .generating start →
      svc.generate s.now reply = .error x →
      let s' := next (providerStep svc) s (.generated i (some reply))
      (∀ y ∈ trace (providerStep svc) s' more,
        y.before.now < s.now + FAILURE_BACKOFF_SECONDS) →
      ∀ y ∈ trace (providerStep svc) s' more, y.reply ≠ .started) := by
  have hlock := lockHeld_run svc es
  refine ⟨?_, ?_, ?_, ?_, ?_⟩
  · intro i j start start' hi hj
    have h1 := (hlock i).mp ⟨start, hi⟩
    rw [(hlock j).mp ⟨start', hj⟩] at h1
    exact (Option.some.inj h1).symm
  · intro T more hT hd T' hT' s' htok j hj
    apply invalidate_other htok _ hj
    rintro rfl
    exact not_issued_again hd (issued_of_rejectedIn hT) hT'
  · intro T more hT hd hc
    exact issues_of_rejectsOnly hlock hc (not_issued_again hd hT)
  · intro hd e t r ht hr
    exact cached_before_renewal hd ht hr
  · intro i start reply x more hi hx s' hn
    exact not_started_of_remembers (remembers_after_failure hlock hi hx) hn

/-- Two requests share a token, and both have it rejected. -/
def sharedToken : List ProviderEvent :=
  [.call 0, .acquire 0, .generated 0 (some (.object { accessToken := some "a" })), .call 1,
    .reject 0, .reject 1]

/-- The first of them renews it. -/
def renewal : List ProviderEvent :=
  [.invalidate 0, .call 0, .acquire 0,
    .generated 0 (some (.object { accessToken := some "b" }))]

/-- The second request keeps the renewed token, a third one got the old token before its renewal
time, and after a failure no other call starts. -/
theorem token_renewal_shared :
    let svc : TokenService := ⟨.clientCredentials, 60⟩
    let s := final (providerStep svc) {} sharedToken
    let s' := final (providerStep svc) s renewal
    let f := final (providerStep svc) {} [.call 0, .acquire 0]
    let f' := next (providerStep svc) f (.generated 0 (some (.httpError "ConnectTimeout")))
    s'.cache.token = some "b" ∧ (next (providerStep svc) s' (.invalidate 1)).cache = s'.cache ∧
      (issues svc s (renewal ++ [.invalidate 1, .call 1])).length ≤ 1 ∧ s.now < 3300 ∧
      ∀ y ∈ trace (providerStep svc) f' [.call 1, .acquire 1], y.reply ≠ .started := by
  intro svc s s' f f'
  obtain ⟨-, hkept, honce, hcached, -⟩ := token_renewal svc sharedToken
  obtain ⟨-, -, -, -, hfailed⟩ := token_renewal svc [.call 0, .acquire 0]
  have hrejected : RejectedIn svc "a" sharedToken := by
    refine ⟨_, List.mem_of_getElem? (i := 4) rfl, 0, rfl, ?_⟩
    decide +kernel
  have htoken : s'.cache.token = some "b" := by decide +kernel
  refine ⟨htoken, ?_, ?_, ?_, ?_⟩
  · exact hkept "a" renewal hrejected (by unfold DistinctIssues; decide +kernel) "b"
      (by decide +kernel) htoken 1 (by decide +kernel)
  · refine honce "a" (renewal ++ [.invalidate 1, .call 1]) (by decide +kernel) ?_ ?_
    · unfold DistinctIssues
      decide +kernel
    · rw [guarded_iff_trace]
      decide +kernel
  · exact hcached (by unfold DistinctIssues; decide +kernel) (.call 2) "a" 3300
      (by decide +kernel) (by decide +kernel)
  · exact hfailed 0 0 (.httpError "ConnectTimeout") _ [.call 1, .acquire 1] (by decide +kernel) rfl
      (by decide +kernel)

end GeoPlatform.ArcGIS
