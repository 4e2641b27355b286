import GeoPlatform.ArcGIS.GraphTasks
import GeoPlatform.Library.Mutex
import GeoPlatform.Library.Run

/-! A failed refresh never takes routing down. Only a completed rebuild touches the graph, the lock
admits one rebuild at a time, and a caller rebuilds only while there is no graph. -/
namespace GeoPlatform.ArcGIS
open GeoPlatform.Geo Runs Mutex
variable {K Req Answer : Type} [Field K] [LinearOrder K]
variable {cfg : RoadTasks K Req Answer} {s s' : RoutingState K Req}

def Phase.Rebuilding : Phase K Req → Prop
  | .rebuilding _ _ => True
  | _ => False

/-! ### The lock -/

/-- The lock belongs to the task inside `_rebuild`, and a caller is there only without a graph. -/
structure TasksGuarded (s : RoutingState K Req) : Prop where
  held : Held Phase.Rebuilding s.tasks s.lock
  first : ∀ i, (s.tasks (.caller i)).Rebuilding → s.graph = none

theorem startRefresh_cases (s : RoutingState K Req) : s.startRefresh cfg = s ∨
    s.tasks .refresh = .idle ∧ s.startRefresh cfg = s.setTask .refresh (.waiting none) := by
  unfold RoutingState.startRefresh
  split
  · rename_i hidle
    split
    · exact Or.inr ⟨hidle, rfl⟩
    · exact Or.inl rfl
  · exact Or.inl rfl

theorem not_rebuilding_goOn (request : Option Req) (g : RoadGraph K) :
    ¬ (request.elim .idle (Phase.routing g)).Rebuilding := by
  cases request <;> exact id

/-- A task outside `_rebuild` that stays there. -/
theorem TasksGuarded.outside (h : TasksGuarded s) {w : Worker} {t : Phase K Req}
    (hw : ¬ (s.tasks w).Rebuilding) (ht : ¬ t.Rebuilding) : TasksGuarded (s.setTask w t) := by
  refine ⟨h.held.outside hw ht, fun i hi => ?_⟩
  apply h.first i
  by_cases hj : w = .caller i
  · subst hj
    rw [s.setTask_self] at hi
    exact absurd hi ht
  · rwa [s.setTask_of_ne (Ne.symm hj)] at hi

theorem TasksGuarded.startRefresh (h : TasksGuarded s) : TasksGuarded (s.startRefresh cfg) := by
  rcases @startRefresh_cases _ _ _ _ _ cfg s with hs | ⟨hidle, hs⟩
  · rwa [hs]
  · rw [hs]
    exact h.outside (by rw [hidle]; exact id) id

/-- The task inside `_rebuild` leaves it. -/
theorem TasksGuarded.leave (h : TasksGuarded s) {w : Worker} {t : Phase K Req}
    (hw : (s.tasks w).Rebuilding) (ht : ¬ t.Rebuilding) (g : Option (RoadGraph K)) (at' : ℚ) :
    TasksGuarded { s.setTask w t with lock := none, graph := g, builtAt := at' } := by
  have hfree := h.held.leave hw ht
  exact ⟨hfree, fun i hi => absurd hi (hfree.free (.caller i))⟩

theorem startRefresh_graph (s : RoutingState K Req) : (s.startRefresh cfg).graph = s.graph ∧
    (s.startRefresh cfg).builtAt = s.builtAt := by
  rcases @startRefresh_cases _ _ _ _ _ cfg s with hs | ⟨-, hs⟩ <;> rw [hs] <;> exact ⟨rfl, rfl⟩

/-! ### Steps -/

variable [FloorRing K]

/-- Everything one step can do. -/
inductive RoutingMove (cfg : RoadTasks K Req Answer) (s : RoutingState K Req) :
    RoutingEvent K Req → RoutingReply K Answer → RoutingState K Req → Prop where
  | disabled (e : RoutingEvent K Req) : RoutingMove cfg s e .disabled s
  | calls {i : ℕ} {request : Option Req} {g : RoadGraph K} (hi : s.tasks (.caller i) = .idle)
      (hg : s.graph = some g) : RoutingMove cfg s (.call i request) (.reads g)
        ((s.startRefresh cfg).goOn (.caller i) request g)
  | queues {i : ℕ} {request : Option Req} (hi : s.tasks (.caller i) = .idle)
      (hg : s.graph = none) : RoutingMove cfg s (.call i request) .queued
        (s.setTask (.caller i) (.waiting request))
  | enters {i : ℕ} {request : Option Req} {g : RoadGraph K}
      (hi : s.tasks (.caller i) = .waiting request) (hl : s.lock = none)
      (hg : s.graph = some g) : RoutingMove cfg s (.acquire (.caller i)) (.reads g)
        (s.goOn (.caller i) request g)
  | starts {w : Worker} {request : Option Req} (hw : s.tasks w = .waiting request)
      (hl : s.lock = none) (hg : ∀ i, w = .caller i → s.graph = none) :
      RoutingMove cfg s (.acquire w) .started
        { s.setTask w (.rebuilding request .counting) with lock := some w }
  | proceeds {e : RoutingEvent K Req} {w : Worker} {request : Option Req} {stage stage' : Stage K}
      (hw : s.tasks w = .rebuilding request stage) :
      RoutingMove cfg s e .done (s.setTask w (.rebuilding request stage'))
  | fails {e : RoutingEvent K Req} {w : Worker} {request : Option Req} {stage : Stage K}
      (hw : s.tasks w = .rebuilding request stage) :
      RoutingMove cfg s e .raised { s.setTask w .idle with lock := none }
  | builds {w : Worker} {request : Option Req} {segments : List (RoadSegment K)} {g : RoadGraph K}
      (hw : s.tasks w = .rebuilding request (.building segments))
      (hg : g = RoadGraph.build cfg.haversine segments cfg.profiles) :
      RoutingMove cfg s (.built w true) (.built g)
        { s.goOn w request g with graph := some g, builtAt := s.now, lock := none }
  | answers {i : ℕ} {g : RoadGraph K} {request : Req}
      (hi : s.tasks (.caller i) = .routing g request) :
      RoutingMove cfg s (.routed i) (.answered (cfg.routeSync g request))
        (s.setTask (.caller i) .idle)
  | leaves {w : Worker} (hw : ¬ (s.tasks w).Rebuilding) :
      RoutingMove cfg s (.cancel w) .raised (s.setTask w .idle)
  | ticks (t : ℚ) : RoutingMove cfg s (.clock t) .done { s with now := t }

theorem routingStep_move (cfg : RoadTasks K Req Answer) (s : RoutingState K Req)
    (e : RoutingEvent K Req) :
    RoutingMove cfg s e (routingStep cfg s e).1 (next (routingStep cfg) s e) := by
  cases e with
  | call i request =>
    cases hi : s.tasks (.caller i) with
    | idle =>
      simp only [next, routingStep, hi, RoutingState.call]
      cases hg : s.graph with
      | some g => exact .calls hi hg
      | none => exact .queues hi hg
    | _ => simpa only [next, routingStep, hi] using .disabled _
  | acquire w =>
    cases hw : s.tasks w with
    | waiting request =>
      cases hl : s.lock with
      | none =>
        simp only [next, routingStep, hw, hl, RoutingState.acquire]
        cases w with
        | caller i =>
          cases hg : s.graph with
          | some g => exact .enters hw hl hg
          | none => exact .starts hw hl fun _ _ => hg
        | refresh => exact .starts hw hl nofun
      | some j => simpa only [next, routingStep, hw, hl] using .disabled _
    | _ => simpa only [next, routingStep, hw] using .disabled _
  | counted w count =>
    cases hw : s.tasks w with
    | rebuilding request stage =>
      cases stage with
      | counting =>
        simp only [next, routingStep, hw]
        cases count with
        | none => exact .fails hw
        | some count =>
          simp only [RoutingState.counted]
          split
          · exact .fails hw
          · exact .proceeds hw
      | _ => simpa only [next, routingStep, hw] using .disabled _
    | _ => simpa only [next, routingStep, hw] using .disabled _
  | queried w features =>
    cases hw : s.tasks w with
    | rebuilding request stage =>
      cases stage with
      | querying =>
        simp only [next, routingStep, hw]
        cases features with
        | none => exact .fails hw
        | some features =>
          simp only [RoutingState.queried]
          cases features.mapM (segmentsOf cfg.text cfg.fields) with
          | error e => exact .fails hw
          | ok segments => exact .proceeds hw
      | _ => simpa only [next, routingStep, hw] using .disabled _
    | _ => simpa only [next, routingStep, hw] using .disabled _
  | built w ok =>
    cases hw : s.tasks w with
    | rebuilding request stage =>
      cases stage with
      | building segments =>
        simp only [next, routingStep, hw]
        cases ok with
        | false => exact .fails hw
        | true => exact .builds hw rfl
      | _ => simpa only [next, routingStep, hw] using .disabled _
    | _ => simpa only [next, routingStep, hw] using .disabled _
  | routed i =>
    cases hi : s.tasks (.caller i) with
    | routing g request =>
      simp only [next, routingStep, hi]
      exact .answers hi
    | _ => simpa only [next, routingStep, hi] using .disabled _
  | cancel w =>
    cases hw : s.tasks w with
    | idle => simpa only [next, routingStep, hw] using .disabled _
    | rebuilding request stage =>
      simp only [next, routingStep, hw]
      exact .fails hw
    | _ =>
      simp only [next, routingStep, hw]
      exact .leaves (by rw [hw]; exact id)
  | clock t => exact .ticks t

variable {e : RoutingEvent K Req} {r : RoutingReply K Answer}

theorem RoutingMove.guarded (hm : RoutingMove cfg s e r s') (h : TasksGuarded s) :
    TasksGuarded s' := by
  cases hm with
  | disabled => exact h
  | @calls i request g hi hg =>
    have hstarted := @TasksGuarded.startRefresh _ _ _ _ _ cfg s h
    apply hstarted.outside ?_ (not_rebuilding_goOn request g)
    rcases @startRefresh_cases _ _ _ _ _ cfg s with hs | ⟨-, hs⟩ <;> rw [hs]
    · rw [hi]
      exact id
    · rw [s.setTask_of_ne (by simp), hi]
      exact id
  | queues hi => exact h.outside (by rw [hi]; exact id) id
  | @enters i request g hi => exact h.outside (by rw [hi]; exact id) (not_rebuilding_goOn request g)
  | @starts w request hw hl hg =>
    have hheld := h.held
    rw [hl] at hheld
    refine ⟨hheld.enter trivial, fun i hi => ?_⟩
    by_cases hj : w = .caller i
    · exact hg i hj
    · rw [show (s.setTask w _).tasks (.caller i) = _ from s.setTask_of_ne (Ne.symm hj) _] at hi
      exact absurd hi (hheld.free _)
  | @proceeds e w request stage stage' hw =>
    have hin : (s.tasks w).Rebuilding := by
      rw [hw]
      trivial
    refine ⟨h.held.stay hin trivial, fun i hi => ?_⟩
    by_cases hj : w = .caller i
    · subst hj
      exact h.first i hin
    · apply h.first i
      rwa [s.setTask_of_ne (Ne.symm hj)] at hi
  | fails hw => exact h.leave (by rw [hw]; trivial) id s.graph s.builtAt
  | @builds w request segments g hw hg =>
    exact h.leave (by rw [hw]; trivial) (not_rebuilding_goOn request g) (some g) s.now
  | answers hi => exact h.outside (by rw [hi]; exact id) id
  | leaves hw => exact h.outside hw id
  | ticks => exact ⟨h.held, h.first⟩

theorem guarded_run (cfg : RoadTasks K Req Answer) (es : List (RoutingEvent K Req)) :
    TasksGuarded (final (routingStep cfg) {} es) := by
  apply final_induction (routingStep cfg)
  · exact ⟨Held.of_outside fun _ => id, fun _ _ => rfl⟩
  · exact fun s e h => (routingStep_move cfg s e).guarded h

/-! ### The graph -/

/-- The graph that a step completed. -/
def RoutingReply.completed : RoutingReply K Answer → Option (RoadGraph K)
  | .built g => some g
  | _ => none

/-- The graph of the last rebuild of a run that was completed. -/
def lastBuilt (cfg : RoadTasks K Req Answer) (es : List (RoutingEvent K Req)) :
    Option (RoadGraph K) :=
  ((trace (routingStep cfg) {} es).filterMap fun x => x.reply.completed).getLast?

/-- Only a completed rebuild touches the graph and its time. -/
theorem RoutingMove.graph (hm : RoutingMove cfg s e r s') :
    (∀ g, r = .built g → s'.graph = some g ∧ s'.builtAt = s.now) ∧
      (r.completed = none → s'.graph = s.graph ∧ s'.builtAt = s.builtAt) := by
  cases hm with
  | calls hi hg => exact ⟨nofun, fun _ => startRefresh_graph s⟩
  | builds hw hg => exact ⟨fun _ h => by cases h; exact ⟨rfl, rfl⟩, nofun⟩
  | _ => exact ⟨nofun, fun _ => ⟨rfl, rfl⟩⟩

theorem lastBuilt_concat (es : List (RoutingEvent K Req)) (e : RoutingEvent K Req) :
    lastBuilt cfg (es ++ [e]) =
      ((routingStep cfg (final (routingStep cfg) {} es) e).1.completed).or (lastBuilt cfg es) := by
  unfold lastBuilt
  rw [trace_append, List.filterMap_append, List.getLast?_append, trace_cons, trace_nil]
  cases h : (routingStep cfg (final (routingStep cfg) {} es) e).1.completed <;>
    simp [h]

theorem graph_run (cfg : RoadTasks K Req Answer) (es : List (RoutingEvent K Req)) :
    (final (routingStep cfg) {} es).graph = lastBuilt cfg es := by
  apply history_induction (P := fun es s => s.graph = lastBuilt cfg es) (routingStep cfg) rfl
  intro pre e ih
  rw [lastBuilt_concat]
  obtain ⟨hbuilt, hkept⟩ := (routingStep_move cfg (final (routingStep cfg) {} pre) e).graph
  cases hr : (routingStep cfg (final (routingStep cfg) {} pre) e).1 with
  | built g =>
    rw [(hbuilt g hr).1]
    rfl
  | _ =>
    rw [hr] at hkept
    rw [(hkept rfl).1, ih]
    rfl

/-! ### The requests -/

omit [FloorRing K] in
theorem setTask_routing {w : Worker} {t : Phase K Req} {i : ℕ} {g : RoadGraph K} {request : Req}
    (h : (s.setTask w t).tasks (.caller i) = .routing g request) :
    (w = .caller i ∧ t = .routing g request) ∨ s.tasks (.caller i) = .routing g request := by
  by_cases hw : w = .caller i
  · subst hw
    rw [s.setTask_self] at h
    exact Or.inl ⟨rfl, h⟩
  · rw [s.setTask_of_ne (Ne.symm hw)] at h
    exact Or.inr h

omit [FloorRing K] in
theorem routing_of_setTask {w : Worker} {t : Phase K Req} {i : ℕ} {g : RoadGraph K}
    {request : Req} (ht : ∀ g' request', t ≠ .routing g' request')
    (h : (s.setTask w t).tasks (.caller i) = .routing g request) :
    s.tasks (.caller i) = .routing g request :=
  (setTask_routing h).resolve_left fun hnew => ht g request hnew.2

omit [FloorRing K] in
/-- Who goes on with a graph and a request routes over that graph. -/
theorem goOn_routing {w : Worker} {request' : Option Req} {i : ℕ} {g g' : RoadGraph K}
    {request : Req} (h : (s.goOn w request' g').tasks (.caller i) = .routing g request) :
    (w = .caller i ∧ g' = g) ∨ s.tasks (.caller i) = .routing g request := by
  rcases setTask_routing h with ⟨hw, ht⟩ | h
  · cases request' with
    | none => cases ht
    | some request' =>
      cases ht
      exact Or.inl ⟨hw, rfl⟩
  · exact Or.inr h

omit [FloorRing K] in
theorem routing_of_startRefresh {i : ℕ} {g : RoadGraph K} {request : Req}
    (h : (s.startRefresh cfg).tasks (.caller i) = .routing g request) :
    s.tasks (.caller i) = .routing g request := by
  rcases @startRefresh_cases _ _ _ _ _ cfg s with hs | ⟨-, hs⟩
  · rwa [hs] at h
  · rw [hs, s.setTask_of_ne (by simp)] at h
    exact h

/-- A request that takes its graph takes the one that there is after the step. -/
theorem RoutingMove.routing (hm : RoutingMove cfg s e r s') {i : ℕ} {g : RoadGraph K}
    {request : Req} (h : s'.tasks (.caller i) = .routing g request) :
    s.tasks (.caller i) = .routing g request ∨
      ((∀ g' request', s.tasks (.caller i) ≠ .routing g' request') ∧ s'.graph = some g) := by
  cases hm with
  | disabled => exact Or.inl h
  | @calls j request' g' hj hg =>
    rcases goOn_routing h with ⟨hw, rfl⟩ | h
    · cases hw
      exact Or.inr ⟨by simp [hj], (startRefresh_graph s).1.trans hg⟩
    · exact Or.inl (routing_of_startRefresh h)
  | queues hj => exact Or.inl (routing_of_setTask (by simp) h)
  | @enters j request' g' hj hl hg =>
    rcases goOn_routing h with ⟨hw, rfl⟩ | h
    · cases hw
      exact Or.inr ⟨by simp [hj], hg⟩
    · exact Or.inl h
  | starts hw hl hg => exact Or.inl (routing_of_setTask (by simp) h)
  | proceeds hw => exact Or.inl (routing_of_setTask (by simp) h)
  | fails hw => exact Or.inl (routing_of_setTask (by simp) h)
  | @builds w request' segments g' hw hg =>
    rcases goOn_routing h with ⟨hi, rfl⟩ | h
    · subst hi
      exact Or.inr ⟨by simp [hw], rfl⟩
    · exact Or.inl h
  | answers hj => exact Or.inl (routing_of_setTask (by simp) h)
  | leaves hw => exact Or.inl (routing_of_setTask (by simp) h)
  | ticks => exact Or.inl h

/-- Who routes goes on until it is answered or cancelled. -/
theorem RoutingMove.routes_on (hm : RoutingMove cfg s e r s') {i : ℕ} {g : RoadGraph K}
    {request : Req} (hi : s.tasks (.caller i) = .routing g request) (hrouted : e ≠ .routed i)
    (hcancel : e ≠ .cancel (.caller i)) : s'.tasks (.caller i) = .routing g request := by
  have hset {w : Worker} (hw : s.tasks w ≠ .routing g request) (t : Phase K Req) :
      (s.setTask w t).tasks (.caller i) = .routing g request := by
    have hne : Worker.caller i ≠ w := by
      rintro rfl
      exact hw hi
    rw [s.setTask_of_ne hne]
    exact hi
  cases hm with
  | disabled => exact hi
  | @calls j request' g' hj hg =>
    have hne : Worker.caller i ≠ .caller j := by
      intro heq
      rw [heq, hj] at hi
      cases hi
    rw [RoutingState.goOn, RoutingState.setTask_of_ne _ hne]
    rcases @startRefresh_cases _ _ _ _ _ cfg s with hs | ⟨hidle, hs⟩
    · rwa [hs]
    · rw [hs]
      exact hset (by simp [hidle]) _
  | queues hj => exact hset (by simp [hj]) _
  | enters hj => exact hset (by simp [hj]) _
  | starts hw => exact hset (by simp [hw]) _
  | proceeds hw => exact hset (by simp [hw]) _
  | fails hw => exact hset (by simp [hw]) _
  | builds hw => exact hset (by simp [hw]) _
  | @answers j g' request' hj =>
    have hne : Worker.caller i ≠ .caller j := fun heq => hrouted (by cases heq; rfl)
    rw [s.setTask_of_ne hne]
    exact hi
  | @leaves w hw =>
    have hne : Worker.caller i ≠ w := fun heq => hcancel (by rw [heq])
    rw [s.setTask_of_ne hne]
    exact hi
  | ticks => exact hi

theorem routes_on_run {i : ℕ} {g : RoadGraph K} {request : Req}
    (hi : s.tasks (.caller i) = .routing g request) (more : List (RoutingEvent K Req))
    (hmore : ∀ x ∈ more, x ≠ .routed i ∧ x ≠ .cancel (.caller i)) :
    (final (routingStep cfg) s more).tasks (.caller i) = .routing g request := by
  apply final_induction_mem (P := fun s => s.tasks (.caller i) = .routing g request)
    (routingStep cfg) hi
  intro s e he h
  exact (routingStep_move cfg s e).routes_on h (hmore e he).1 (hmore e he).2

/-- The caller is given the graph for its request, at once or with the lock. -/
def GivenGraph (cfg : RoadTasks K Req Answer) (s : RoutingState K Req) (e : RoutingEvent K Req)
    (i : ℕ) (g : RoadGraph K) (request : Req) : Prop :=
  (routingStep cfg s e).1 = .reads g ∧ (e = .call i (some request) ∨
    e = .acquire (.caller i) ∧ s.tasks (.caller i) = .waiting (some request))

theorem GivenGraph.routing {i : ℕ} {g : RoadGraph K} {request : Req}
    (h : GivenGraph cfg s e i g request) :
    (next (routingStep cfg) s e).tasks (.caller i) = .routing g request := by
  obtain ⟨hreads, hcase⟩ := h
  have hm := routingStep_move cfg s e
  rw [hreads] at hm
  generalize next (routingStep cfg) s e = s' at hm
  cases hm with
  | calls hj hg =>
    rcases hcase with heq | ⟨heq, -⟩
    · cases heq
      exact RoutingState.setTask_self ..
    · cases heq
  | enters hj hl hg =>
    rcases hcase with heq | ⟨heq, hwaiting⟩
    · cases heq
    · cases heq
      cases hj.symm.trans hwaiting
      exact RoutingState.setTask_self ..

/-- With `e` after `pre` the request of caller `i` takes the graph it routes over. -/
structure Takes (cfg : RoadTasks K Req Answer) (pre : List (RoutingEvent K Req))
    (e : RoutingEvent K Req) (i : ℕ) (g : RoadGraph K) (request : Req) : Prop where
  before : ∀ g' request',
    (final (routingStep cfg) {} pre).tasks (.caller i) ≠ .routing g' request'
  after : (final (routingStep cfg) {} (pre ++ [e])).tasks (.caller i) = .routing g request

/-- Who routes took the graph of the last completed rebuild when it read the graph. -/
theorem routing_run (cfg : RoadTasks K Req Answer) (es : List (RoutingEvent K Req)) :
    ∀ i g request, (final (routingStep cfg) {} es).tasks (.caller i) = .routing g request →
      ∃ pre e post, es = pre ++ e :: post ∧ Takes cfg pre e i g request ∧
        lastBuilt cfg (pre ++ [e]) = some g := by
  apply history_induction (P := fun es s => ∀ i g request,
    s.tasks (.caller i) = .routing g request → ∃ pre e post, es = pre ++ e :: post ∧
      Takes cfg pre e i g request ∧ lastBuilt cfg (pre ++ [e]) = some g) (routingStep cfg)
  · intro i g request h
    cases h
  · intro es e ih i g request h
    rcases (routingStep_move cfg (final (routingStep cfg) {} es) e).routing h with
      hbefore | ⟨hnot, hgraph⟩
    · obtain ⟨pre, e', post, rfl, htakes, hlast⟩ := ih i g request hbefore
      exact ⟨pre, e', post ++ [e], by simp, htakes, hlast⟩
    · have hnext : next (routingStep cfg) (final (routingStep cfg) {} es) e =
          final (routingStep cfg) {} (es ++ [e]) := by
        rw [final_append]
        rfl
      rw [hnext] at h hgraph
      rw [graph_run] at hgraph
      exact ⟨es, e, [], rfl, ⟨hnot, h⟩, hgraph⟩

/-- What holds after a run. -/
structure StaysUp (cfg : RoadTasks K Req Answer) (es : List (RoutingEvent K Req)) : Prop where
  /-- At most one rebuild runs. -/
  one : ∀ w w', ((final (routingStep cfg) {} es).tasks w).Rebuilding →
    ((final (routingStep cfg) {} es).tasks w').Rebuilding → w = w'
  /-- A step that completes no rebuild changes neither the graph nor its time. -/
  unchanged : ∀ e, (routingStep cfg (final (routingStep cfg) {} es) e).1.completed = none →
    (final (routingStep cfg) {} (es ++ [e])).graph = (final (routingStep cfg) {} es).graph ∧
      (final (routingStep cfg) {} (es ++ [e])).builtAt = (final (routingStep cfg) {} es).builtAt
  /-- Once a rebuild has been completed a caller is given the graph of the last one, at once or
  with the lock, and none has to rebuild. -/
  served : ∀ g, lastBuilt cfg es = some g →
    (∀ i request, (final (routingStep cfg) {} es).tasks (.caller i) = .idle →
      (routingStep cfg (final (routingStep cfg) {} es) (.call i request)).1 = .reads g) ∧
    (∀ i request, (final (routingStep cfg) {} es).tasks (.caller i) = .waiting request →
      (final (routingStep cfg) {} es).lock = none →
      (routingStep cfg (final (routingStep cfg) {} es) (.acquire (.caller i))).1 = .reads g) ∧
    ∀ i, ¬ ((final (routingStep cfg) {} es).tasks (.caller i)).Rebuilding
  /-- Who is given a graph is answered with it, whatever the others do meanwhile. -/
  routed : ∀ i e g request more, GivenGraph cfg (final (routingStep cfg) {} es) e i g request →
    (∀ x ∈ more, x ≠ .routed i ∧ x ≠ .cancel (.caller i)) →
    (routingStep cfg (final (routingStep cfg) {} (es ++ e :: more)) (.routed i)).1 =
      .answered (cfg.routeSync g request)
  /-- An answer is that of the graph of the last rebuild completed when the request read it. -/
  answered : ∀ i a,
    (routingStep cfg (final (routingStep cfg) {} es) (.routed i)).1 = .answered a →
    ∃ pre e post g request, es = pre ++ e :: post ∧ Takes cfg pre e i g request ∧
      lastBuilt cfg (pre ++ [e]) = some g ∧ a = cfg.routeSync g request

/-- A failed refresh never takes routing down. -/
theorem graph_stays_up (cfg : RoadTasks K Req Answer) (es : List (RoutingEvent K Req)) :
    StaysUp cfg es := by
  have hguarded := guarded_run cfg es
  have hgraph := graph_run cfg es
  constructor
  · exact fun w w' hw hw' => hguarded.held.unique hw hw'
  · intro e he
    rw [final_append]
    exact (routingStep_move cfg (final (routingStep cfg) {} es) e).graph.2 he
  · intro g hg
    rw [hg] at hgraph
    refine ⟨fun i request hi => ?_, fun i request hi hl => ?_, fun i hi => ?_⟩
    · simp only [routingStep, hi, RoutingState.call, hgraph]
    · simp only [routingStep, hi, hl, RoutingState.acquire, hgraph]
    · rw [hguarded.first i hi] at hgraph
      cases hgraph
  · intro i e g request more hgiven hmore
    have hi := @routes_on_run _ _ _ _ _ cfg _ _ _ _ _ hgiven.routing more hmore
    rw [final_append, final_cons]
    simp only [routingStep, hi]
  · intro i a ha
    cases hi : (final (routingStep cfg) {} es).tasks (.caller i) with
    | routing g request =>
      simp only [routingStep, hi, RoutingReply.answered.injEq] at ha
      obtain ⟨pre, e, post, hes, htakes, hlast⟩ := routing_run cfg es i g request hi
      exact ⟨pre, e, post, g, request, hes, htakes, hlast, ha.symm⟩
    | _ =>
      simp only [routingStep, hi] at ha
      cases ha

/-! ### A failed refresh -/

def Phase.isIdle : Phase K Req → Bool
  | .idle => true
  | _ => false

omit [FloorRing K] in
theorem Phase.eq_idle {t : Phase K Req} (h : t.isIdle = true) : t = .idle := by
  cases t with
  | idle => rfl
  | _ => cases h

/-- A street of one link. A request is a number, and its answer counts the links too. -/
def oneStreet : RoadTasks ℚ ℕ ℕ where
  haversine _ _ := 1
  text := ⟨fun _ => "", id, fun _ => none⟩
  fields := ⟨none, none, none, none, [], []⟩
  profiles := []
  settings := {}
  graphTtlS := 60
  routeSync g request := g.links.length + request

def street : EsriFeature ℚ where
  geometry := some [("paths", .list [.list [.list [.int 0, .int 0], .list [.int 1, .int 0]]])]

/-- The warm-up loads the graph. -/
def warmUp : List (RoutingEvent ℚ ℕ) :=
  [.call 0 none, .acquire (.caller 0), .counted (.caller 0) (some 1),
    .queried (.caller 0) (some [street]), .built (.caller 0) true, .clock 100]

/-- The refresh that a request has started fails. -/
def failedRefresh : List (RoutingEvent ℚ ℕ) := [.acquire .refresh, .counted .refresh none]

/-- The request that started the refresh is answered after the failure, and the next one is given
the same graph. -/
theorem graph_stays_up_failedRefresh :
    let s := final (routingStep oneStreet) {} (warmUp ++ .call 1 (some 7) :: failedRefresh)
    (routingStep oneStreet s (.routed 1)).1 = .answered 8 ∧
      ∃ g, g.links.length = 1 ∧ (routingStep oneStreet s (.call 2 (some 5))).1 = .reads g := by
  intro s
  have hup := graph_stays_up oneStreet
  have hloaded : ((lastBuilt oneStreet warmUp).map fun g => g.links.length) = some 1 := by
    decide +kernel
  have hkept : ((lastBuilt oneStreet (warmUp ++ .call 1 (some 7) :: failedRefresh)).map
      fun g => g.links.length) = some 1 := by decide +kernel
  constructor
  · obtain ⟨g, hg, hlength⟩ := Option.map_eq_some_iff.mp hloaded
    have hgiven : GivenGraph oneStreet (final (routingStep oneStreet) {} warmUp)
        (.call 1 (some 7)) 1 g 7 :=
      ⟨((hup warmUp).served g hg).1 1 (some 7) (Phase.eq_idle (by decide +kernel)), Or.inl rfl⟩
    have hanswer := (hup warmUp).routed 1 (.call 1 (some 7)) g 7 failedRefresh hgiven
      (by simp [failedRefresh])
    have hsum : oneStreet.routeSync g 7 = 8 := congrArg (· + 7) hlength
    rw [hanswer, hsum]
  · obtain ⟨g, hg, hlength⟩ := Option.map_eq_some_iff.mp hkept
    exact ⟨g, hlength, ((hup _).served g hg).1 2 (some 5) (Phase.eq_idle (by decide +kernel))⟩

/-! ### The stages of one rebuild -/

/-- The stages of an undisturbed rebuild load the graph that `_rebuild` installs. -/
theorem stages_loadGraph (up : Upstream K) {w : Worker} {request : Option Req}
    (hw : s.tasks w = .rebuilding request .counting) :
    (final (routingStep cfg) s [.counted w (count up {}).toOption,
      .queried w (queryAll up cfg.settings.arcgisMaxRecords (roadsQuery cfg.fields)
        (some cfg.settings.routingMaxFeatures)).toOption, .built w true]).graph =
      ((loadGraph cfg.haversine cfg.text cfg.fields cfg.profiles cfg.settings up).toOption.map
        LoadedGraph.graph).or s.graph := by
  unfold loadGraph
  cases hcount : count up {} with
  | error e =>
    simp [Except.toOption, next, routingStep, hw, RoutingState.counted, RoutingState.fail,
      RoutingState.setTask]
  | ok n =>
    by_cases hmax : cfg.settings.routingMaxFeatures < n
    · simp [Except.toOption, next, routingStep, hw, hmax, RoutingState.counted,
        RoutingState.fail, RoutingState.setTask]
    · cases hquery : queryAll up cfg.settings.arcgisMaxRecords (roadsQuery cfg.fields)
          (some cfg.settings.routingMaxFeatures) with
      | error e =>
        simp [Except.toOption, next, routingStep, hw, hmax, RoutingState.counted,
          RoutingState.queried, RoutingState.fail, RoutingState.setTask]
      | ok features =>
        cases hsegments : features.mapM (segmentsOf cfg.text cfg.fields) with
        | error e =>
          simp [Except.toOption, next, routingStep, hw, hmax, hsegments, RoutingState.counted,
            RoutingState.queried, RoutingState.fail, RoutingState.setTask]
        | ok segments =>
          simp [Except.toOption, next, routingStep, hw, hmax, hsegments, RoutingState.counted,
            RoutingState.queried, RoutingState.built, RoutingState.goOn, RoutingState.setTask]

end GeoPlatform.ArcGIS
