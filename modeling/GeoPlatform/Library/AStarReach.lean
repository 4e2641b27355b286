import GeoPlatform.Library.AStarRuns

/-! A search that ends with nothing found has been everywhere. This needs nothing of the
estimate, the costs or the metric: an entry is dropped only when its node has a better one. -/
namespace AStar
variable {ν ι K : Type*} [LinearOrder ν] [Add K] [LinearOrder K]
variable {P : Problem ν ι K} {starts : List (ν × K × ι)} {direct : Option K}
variable {s s' : Search ν ι K} {e : Entry ν K} {n : ν} {g c : K} {p : Option ν × ι}

/-! ### Invariant -/

/-- Every way out of the node has been looked at. -/
structure Done (P : Problem ν ι K) (s : Search ν ι K) (n : ν) : Prop where
  scored : ∀ a ∈ P.arcs n, (s.gScore a.target).isSome
  settled : (P.exit n).isSome → s.best.isSome

/-- A node with a score either still has an entry for that score, or is done. -/
def Queued (s : Search ν ι K) (n : ν) (g : K) : Prop :=
  ∃ e ∈ s.heap, e.node = n ∧ e.g = g

def Frontier (P : Problem ν ι K) (s : Search ν ι K) : Prop :=
  ∀ n g, s.gScore n = some g → Done P s n ∨ Queued s n g

/-- Nodes keep some score, and a total that has been found stays found. -/
structure Grows (s s' : Search ν ι K) : Prop where
  scored : ∀ n, (s.gScore n).isSome → (s'.gScore n).isSome
  found : s.best.isSome → s'.best.isSome

omit [LinearOrder ν] [Add K] [LinearOrder K] in
theorem Grows.refl (s : Search ν ι K) : Grows s s := ⟨fun _ h => h, fun h => h⟩

omit [LinearOrder ν] [Add K] [LinearOrder K] in
theorem Grows.trans {s'' : Search ν ι K} (h : Grows s s') (h' : Grows s' s'') : Grows s s'' :=
  ⟨fun n hn => h'.scored n (h.scored n hn), fun hb => h'.found (h.found hb)⟩

omit [LinearOrder ν] [Add K] [LinearOrder K] in
theorem Done.grows (h : Done P s n) (hs : Grows s s') : Done P s' n :=
  ⟨fun a ha => hs.scored _ (h.scored a ha), fun hx => hs.found (h.settled hx)⟩

/-! ### Improving -/

theorem improve_grows (P : Problem ν ι K) (s : Search ν ι K) (n : ν) (g : K)
    (p : Option ν × ι) : Grows s (s.improve P n g p) := by
  unfold Search.improve
  split_ifs
  · refine ⟨fun m hm => ?_, fun hb => hb⟩
    by_cases hmn : m = n
    · simp [hmn]
    · simpa [hmn] using hm
  · exact Grows.refl s

theorem improve_scored (P : Problem ν ι K) (s : Search ν ι K) (n : ν) (g : K)
    (p : Option ν × ι) : ((s.improve P n g p).gScore n).isSome := by
  unfold Search.improve
  split_ifs with hb
  · simp
  · simp only [Below, not_forall] at hb
    obtain ⟨y, hy, -⟩ := hb
    exact Option.isSome_of_mem hy

theorem improve_frontier (n : ν) (g : K) (p : Option ν × ι) (except : ν → Prop)
    (h : ∀ m y, s.gScore m = some y → Done P s m ∨ Queued s m y ∨ except m) :
    ∀ m y, (s.improve P n g p).gScore m = some y →
      Done P (s.improve P n g p) m ∨ Queued (s.improve P n g p) m y ∨ except m := by
  have hgrows := improve_grows P s n g p
  intro m y hy
  unfold Search.improve at hy hgrows ⊢
  split_ifs at hy hgrows ⊢ with hb
  · by_cases hmn : m = n
    · subst hmn
      simp only [Function.update_self, Option.some.injEq] at hy
      subst hy
      exact Or.inr (Or.inl ⟨_, (List.mem_orderedInsert _).mpr (Or.inl rfl), rfl, rfl⟩)
    · rcases h m y ((Function.update_of_ne hmn ..).symm.trans hy) with hm | ⟨e, he, hnode, hg⟩ | hm
      · exact Or.inl (hm.grows hgrows)
      · exact Or.inr (Or.inl ⟨e, (List.mem_orderedInsert _).mpr (Or.inr he), hnode, hg⟩)
      · exact Or.inr (Or.inr hm)
  · exact h m y hy

theorem begin_frontier (P : Problem ν ι K) (direct : Option K) (starts : List (ν × K × ι)) :
    Frontier P (Search.begin P direct starts) ∧
      ∀ x ∈ starts, ((Search.begin P direct starts).gScore x.1).isSome := by
  unfold Search.begin
  induction starts using List.reverseRecOn with
  | nil =>
    constructor
    · intro n g hg
      cases hg
    · intro x hx
      cases hx
  | append_singleton starts x ih =>
    rw [List.foldl_append, List.foldl_cons, List.foldl_nil]
    constructor
    · intro n g hg
      have hstep := improve_frontier x.1 x.2.1 (none, x.2.2) (fun _ => False)
        (fun m y hy => (ih.1 m y hy).imp_right Or.inl) n g hg
      simpa only [or_false] using hstep
    · intro y hy
      rcases List.mem_append.mp hy with hy | hy
      · exact (improve_grows ..).scored _ (ih.2 y hy)
      · rw [List.mem_singleton.mp hy]
        exact improve_scored ..

/-! ### One expansion -/

omit [LinearOrder ν] in
theorem settle_grows (P : Problem ν ι K) (e : Entry ν K) (s : Search ν ι K) :
    Grows s (s.settle P e) ∧ ((P.exit e.node).isSome → (s.settle P e).best.isSome) := by
  unfold Search.settle
  split
  · split_ifs with hb
    · exact ⟨⟨fun _ hn => hn, fun _ => rfl⟩, fun _ => rfl⟩
    · refine ⟨Grows.refl s, fun _ => ?_⟩
      cases hbest : s.best with
      | none => simp [hbest, Below] at hb
      | some b => rfl
  · case _ hx => exact ⟨Grows.refl s, fun h => by simp [hx] at h⟩

theorem expand_frontier (e : Entry ν K) (except : ν → Prop)
    (h : ∀ m y, s.gScore m = some y → Done P s m ∨ Queued s m y ∨ except m) :
    (∀ m y, (s.expand P e).gScore m = some y →
      Done P (s.expand P e) m ∨ Queued (s.expand P e) m y ∨ except m) ∧
    Grows s (s.expand P e) ∧ ∀ a ∈ P.arcs e.node, ((s.expand P e).gScore a.target).isSome := by
  unfold Search.expand
  generalize P.arcs e.node = arcs
  induction arcs using List.reverseRecOn with
  | nil => exact ⟨h, Grows.refl s, fun a ha => by cases ha⟩
  | append_singleton arcs a ih =>
    rw [List.foldl_append, List.foldl_cons, List.foldl_nil]
    obtain ⟨hfrontier, hgrows, hscored⟩ := ih
    refine ⟨improve_frontier _ _ _ _ hfrontier, hgrows.trans (improve_grows ..), fun b hb => ?_⟩
    rcases List.mem_append.mp hb with hb | hb
    · exact (improve_grows ..).scored _ (hscored b hb)
    · rw [List.mem_singleton.mp hb]
      exact improve_scored ..

omit [LinearOrder ν] [Add K] in
/-- Dropping stale entries and the popped one leaves only the popped node to look at. -/
theorem Frontier.pop (h : Frontier P s) {rest : List (Entry ν K)}
    (hf : freshest s.gScore s.heap = some (e, rest)) :
    ∀ m y, s.gScore m = some y →
      Done P { s with heap := rest } m ∨ Queued { s with heap := rest } m y ∨ m = e.node := by
  obtain ⟨-, stale, hheap, hstale⟩ := freshest_some hf
  intro m y hy
  rcases h m y hy with hm | ⟨x, hx, rfl, rfl⟩
  · exact Or.inl ⟨hm.scored, hm.settled⟩
  · rw [hheap] at hx
    rcases List.mem_append.mp hx with hx | hx
    · -- a stale entry does not carry the score of its node
      obtain ⟨z, hz, hlt⟩ := hstale x hx
      obtain rfl : x.g = z := Option.some.inj (hy.symm.trans hz)
      exact absurd hlt (lt_irrefl _)
    · rcases List.mem_cons.mp hx with rfl | hx
      · exact Or.inr (Or.inr rfl)
      · exact Or.inr (Or.inl ⟨x, hx, rfl, rfl⟩)

theorem Frontier.step (h : Frontier P s) {rest : List (Entry ν K)}
    (hf : freshest s.gScore s.heap = some (e, rest)) :
    Frontier P ((({ s with heap := rest } : Search ν ι K).settle P e).expand P e) ∧
      Grows s ((({ s with heap := rest } : Search ν ι K).settle P e).expand P e) := by
  obtain ⟨hsettled, hexit⟩ := settle_grows P e { s with heap := rest }
  obtain ⟨hscore, -, hheap⟩ := settle_scores P e { s with heap := rest }
  have hpopped := h.pop hf
  set t : Search ν ι K := { s with heap := rest }
  have hopen : ∀ m y, (t.settle P e).gScore m = some y →
      Done P (t.settle P e) m ∨ Queued (t.settle P e) m y ∨ m = e.node := by
    intro m y hy
    rw [hscore] at hy
    rcases hpopped m y hy with hm | ⟨x, hx, hxs⟩ | hm
    · exact Or.inl (hm.grows hsettled)
    · exact Or.inr (Or.inl ⟨x, hheap ▸ hx, hxs⟩)
    · exact Or.inr (Or.inr hm)
  obtain ⟨hfrontier, hgrows, harcs⟩ := expand_frontier e (· = e.node) hopen
  refine ⟨fun m y hy => ?_, Grows.trans ⟨hsettled.scored, hsettled.found⟩ hgrows⟩
  rcases hfrontier m y hy with hm | hm | rfl
  · exact Or.inl hm
  · exact Or.inr hm
  · exact Or.inl ⟨harcs, fun hx => hgrows.found (hexit hx)⟩

/-! ### Runs -/

theorem run_frontier (k : ℕ) (h : Frontier P s) (hrun : run P k s = some s') :
    Grows s s' ∧ (s'.best = none → ∀ n g, s'.gScore n = some g → Done P s' n) := by
  induction k, s using run.induct P with
  | case1 _ s hf =>
    unfold run at hrun
    simp only [hf, Option.some.injEq] at hrun
    subst hrun
    refine ⟨Grows.refl s, fun _ n g hg => (h n g hg).resolve_right ?_⟩
    -- only stale entries are left, and none of them carries the score of its node
    rintro ⟨x, hx, rfl, rfl⟩
    obtain ⟨y, hy, hlt⟩ := freshest_none hf x hx
    obtain rfl : x.g = y := Option.some.inj (hg.symm.trans hy)
    exact lt_irrefl _ hlt
  | case2 _ s e rest hf hb =>
    unfold run at hrun
    simp only [hf, if_pos hb, Option.some.injEq] at hrun
    subst hrun
    refine ⟨Grows.refl s, fun hbest => absurd ?_ hb⟩
    simp [hbest, Below]
  | case3 s e rest hf hb =>
    unfold run at hrun
    simp [hf, hb] at hrun
  | case4 s e rest hf hb k ih =>
    rw [run] at hrun
    simp only [hf, if_neg hb] at hrun
    obtain ⟨hfrontier, hgrows⟩ := h.step hf
    obtain ⟨hgrows', hdone⟩ := ih hfrontier hrun
    exact ⟨hgrows.trans hgrows', hdone⟩

theorem expand_grows (P : Problem ν ι K) (e : Entry ν K) (s : Search ν ι K) :
    Grows s (s.expand P e) :=
  (expand_frontier e (fun _ => True) fun _ _ _ => Or.inr (Or.inr trivial)).2.1

/-- A total known before a run is not lost. -/
theorem run_found {k : ℕ} (hrun : run P k s = some s') (h : s.best.isSome) :
    s'.best.isSome := by
  induction k, s using run.induct P with
  | case1 _ s hf =>
    unfold run at hrun
    simp only [hf, Option.some.injEq] at hrun
    exact hrun ▸ h
  | case2 _ s e rest hf hb =>
    unfold run at hrun
    simp only [hf, if_pos hb, Option.some.injEq] at hrun
    exact hrun ▸ h
  | case3 s e rest hf hb =>
    unfold run at hrun
    simp [hf, hb] at hrun
  | case4 s e rest hf hb k ih =>
    rw [run] at hrun
    simp only [hf, if_neg hb] at hrun
    have hsettled := (settle_grows P e { s with heap := rest }).1.found h
    exact ih hrun ((expand_grows P e _).found hsettled)

/-- A search that finishes without a total has no walk to a node with an exit. -/
theorem run_exhausted {k : ℕ} (hrun : run P k (Search.begin P direct starts) = some s)
    (hbest : s.best = none) (hw : Walk P starts n c) : P.exit n = none := by
  obtain ⟨hfrontier, hstarts⟩ := begin_frontier P direct starts
  obtain ⟨hgrows, hdone⟩ := run_frontier k hfrontier hrun
  have hscored : (s.gScore n).isSome := by
    induction hw with
    | start h => exact hgrows.scored _ (hstarts _ h)
    | along _ ha ih =>
      obtain ⟨g, hg⟩ := Option.isSome_iff_exists.mp ih
      exact (hdone hbest _ g hg).scored _ ha
  obtain ⟨g, hg⟩ := Option.isSome_iff_exists.mp hscored
  have hsettled := (hdone hbest n g hg).settled
  rw [hbest] at hsettled
  cases hx : P.exit n with
  | none => rfl
  | some x => simp [hx] at hsettled

end AStar
