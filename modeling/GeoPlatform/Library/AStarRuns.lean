import GeoPlatform.Library.AStar

/-! Runs of the search under a consistent estimate. No node is expanded twice, an expanded
node keeps its score, and the search stops with the cheapest total of all walks. -/
namespace AStar

/-! ### Walks, and how a search records them -/

section Walks
variable {ν ι K : Type*} [Add K] {P : Problem ν ι K} {starts : List (ν × K × ι)}
variable {C : Finset ν} {s s' : Search ν ι K} {n : ν} {g : K} {p : Option ν × ι}

inductive Walk (P : Problem ν ι K) (starts : List (ν × K × ι)) : ν → K → Prop
  | start {n : ν} {c : K} {l : ι} (h : (n, c, l) ∈ starts) : Walk P starts n c
  | along {m : ν} {c : K} {a : Arc ν ι K} (h : Walk P starts m c) (ha : a ∈ P.arcs m) :
      Walk P starts a.target (c + a.cost)

/-- `p` explains the score `g` of `n`: a start, or an arc out of an expanded node. -/
def Link (P : Problem ν ι K) (starts : List (ν × K × ι)) (C : Finset ν) (s : Search ν ι K)
    (n : ν) (g : K) : Option ν × ι → Prop
  | (none, l) => (n, g, l) ∈ starts
  | (some m, l) => m ∈ C ∧ ∃ y, s.gScore m = some y ∧
      ∃ a ∈ P.arcs m, a.target = n ∧ a.label = l ∧ y + a.cost = g

theorem Link.progress (hs : ∀ n ∈ C, s'.gScore n = s.gScore n)
    (h : Link P starts C s n g p) : Link P starts C s' n g p := by
  match p, h with
  | (none, _), h => exact h
  | (some m, _), ⟨hm, y, hy, ha⟩ => exact ⟨hm, y, (hs m hm).trans hy, ha⟩

theorem Link.mono {C' : Finset ν} (hC : C ⊆ C') (h : Link P starts C s n g p) :
    Link P starts C' s n g p := by
  match p, h with
  | (none, _), h => exact h
  | (some m, _), ⟨hm, h⟩ => exact ⟨hC hm, h⟩

end Walks

section Order
variable {ν ι K : Type*} [LinearOrder K] {C : Finset ν} {s s' s'' : Search ν ι K} {e : Entry ν K}

/-- What relaxing arcs leaves alone: the popped nodes, and scores only go down. -/
structure Progress (C : Finset ν) (s s' : Search ν ι K) : Prop where
  best : s'.best = s.best
  closed : ∀ n ∈ C, s'.gScore n = s.gScore n
  lower : ∀ n y, s.gScore n = some y → ∃ y' ≤ y, s'.gScore n = some y'

theorem Progress.refl (C : Finset ν) (s : Search ν ι K) : Progress C s s :=
  ⟨rfl, fun _ _ => rfl, fun _ y h => ⟨y, le_rfl, h⟩⟩

theorem Progress.trans (h : Progress C s s') (h' : Progress C s' s'') : Progress C s s'' := by
  refine ⟨h'.best.trans h.best, fun n hn => (h'.closed n hn).trans (h.closed n hn), ?_⟩
  intro n y hy
  obtain ⟨y', hle, hy'⟩ := h.lower n y hy
  obtain ⟨y'', hle', hy''⟩ := h'.lower n y' hy'
  exact ⟨y'', hle'.trans hle, hy''⟩

theorem freshest_some {gScore : ν → Option K} {heap rest : List (Entry ν K)}
    (h : freshest gScore heap = some (e, rest)) :
    (¬ ∃ y ∈ gScore e.node, y < e.g) ∧ ∃ stale, heap = stale ++ e :: rest ∧
      ∀ x ∈ stale, ∃ y ∈ gScore x.node, y < x.g := by
  induction heap with
  | nil => cases h
  | cons x heap ih =>
    rw [freshest] at h
    split_ifs at h with hx
    · obtain ⟨he, stale, hheap, hstale⟩ := ih h
      refine ⟨he, x :: stale, by rw [hheap, List.cons_append], fun x' hx' => ?_⟩
      rcases List.mem_cons.mp hx' with rfl | hx'
      · exact hx
      · exact hstale x' hx'
    · cases h
      exact ⟨hx, [], rfl, fun x' hx' => absurd hx' List.not_mem_nil⟩

theorem freshest_none {gScore : ν → Option K} {heap : List (Entry ν K)}
    (h : freshest gScore heap = none) : ∀ x ∈ heap, ∃ y ∈ gScore x.node, y < x.g := by
  induction heap with
  | nil => exact fun x hx => absurd hx List.not_mem_nil
  | cons x heap ih =>
    rw [freshest] at h
    split_ifs at h with hx
    intro x' hx'
    rcases List.mem_cons.mp hx' with rfl | hx'
    · exact hx
    · exact ih h x' hx'

theorem settle_scores [Add K] (P : Problem ν ι K) (e : Entry ν K) (s : Search ν ι K) :
    (s.settle P e).gScore = s.gScore ∧ (s.settle P e).previous = s.previous ∧
      (s.settle P e).heap = s.heap := by
  unfold Search.settle
  split
  · split_ifs <;> exact ⟨rfl, rfl, rfl⟩
  · exact ⟨rfl, rfl, rfl⟩

end Order

variable {ν ι K : Type*} [LinearOrder ν] [AddCommMonoid K] [LinearOrder K]
variable {P : Problem ν ι K} {starts : List (ν × K × ι)} {direct : Option K}
variable {C : Finset ν} {s s' s'' : Search ν ι K} {e : Entry ν K} {n : ν} {g : K}
variable {p : Option ν × ι}

/-! ### Invariant -/

/-- Along an arc the estimate drops by no more than the arc costs, and it can be taken off both
sides of an inequality, even where costs have a least one. -/
structure ArcConsistent (P : Problem ν ι K) : Prop where
  arc : ∀ n, ∀ a ∈ P.arcs n, P.h n ≤ a.cost + P.h a.target
  cancel : ∀ n, AddLECancellable (P.h n)

structure Consistent (P : Problem ν ι K) : Prop extends ArcConsistent P where
  exit : ∀ n, ∀ x ∈ P.exit n, P.h n ≤ x

/-- The nodes in `C` have been popped. -/
structure Inv (P : Problem ν ι K) (starts : List (ν × K × ι)) (C : Finset ν)
    (s : Search ν ι K) : Prop where
  sorted : s.heap.Pairwise (· ≤ ·)
  nodup : s.heap.Nodup
  entry_f : ∀ e ∈ s.heap, e.f = e.g + P.h e.node
  entry_g : ∀ e ∈ s.heap, ∃ y, s.gScore e.node = some y ∧ y ≤ e.g ∧ (e.node ∈ C → y < e.g)
  walk : ∀ n y, s.gScore n = some y → Walk P starts n y
  linked : ∀ n y, s.gScore n = some y → ∃ p, s.previous n = some p ∧ Link P starts C s n y p
  pending : ∀ n y, s.gScore n = some y → n ∈ C ∨ entry (y + P.h n) y n ∈ s.heap
  closed : ∀ n ∈ C, ∃ y, s.gScore n = some y ∧ ∀ e ∈ s.heap, y + P.h n ≤ e.f

/-- What an improvement needs: it is real, and comes no earlier than the popped nodes. -/
structure Ready (P : Problem ν ι K) (starts : List (ν × K × ι)) (C : Finset ν)
    (s : Search ν ι K) (n : ν) (g : K) (p : Option ν × ι) : Prop where
  walk : Walk P starts n g
  link : Link P starts C s n g p
  floor : ∀ m ∈ C, ∀ y, s.gScore m = some y → y + P.h m ≤ g + P.h n
  cancel : n ∈ C → AddLECancellable (P.h n)

omit [LinearOrder ν] in
theorem Ready.progress (h : Ready P starts C s n g p) (hs : Progress C s s') :
    Ready P starts C s' n g p := by
  refine ⟨h.walk, h.link.progress hs.closed, fun m hm y hy => ?_, h.cancel⟩
  exact h.floor m hm y ((hs.closed m hm).symm.trans hy)

/-! ### Popping -/

/-- The entry that is popped carries its node's score, and no node is popped twice. -/
theorem Inv.popped (h : Inv P starts C s) (he : e ∈ s.heap)
    (hfresh : ¬ ∃ y ∈ s.gScore e.node, y < e.g) : s.gScore e.node = some e.g ∧ e.node ∉ C := by
  obtain ⟨y, hy, hle, hlt⟩ := h.entry_g e he
  have hge : e.g ≤ y := not_lt.mp fun hlt => hfresh ⟨y, hy, hlt⟩
  refine ⟨hy.trans (congrArg some (le_antisymm hle hge)), fun hc => ?_⟩
  exact absurd (hlt hc) (not_lt.mpr hge)

theorem entry_eq (h : Inv P starts C s) {e e' : Entry ν K} (he : e ∈ s.heap)
    (he' : e' ∈ s.heap) (hnode : e.node = e'.node) (hg : e.g = e'.g) : e = e' := by
  have hf : e.f = e'.f := by
    rw [h.entry_f e he, h.entry_f e' he', hnode, hg]
  exact Prod.ext hf (Prod.ext hg hnode)

theorem Inv.pop {rest : List (Entry ν K)} (h : Inv P starts C s)
    (hf : freshest s.gScore s.heap = some (e, rest)) :
    Inv P starts (insert e.node C) { s with heap := rest } := by
  obtain ⟨hfresh, stale, hheap, hstale⟩ := freshest_some hf
  have hmem : e ∈ s.heap := by
    simp [hheap]
  have hrest : ∀ x ∈ rest, x ∈ s.heap := by
    intro x hx
    simp [hheap, hx]
  obtain ⟨hscore, -⟩ := h.popped hmem hfresh
  have hsorted : (e :: rest).Pairwise (· ≤ ·) :=
    (List.pairwise_append.mp (hheap ▸ h.sorted)).2.1
  have hnodup : (e :: rest).Nodup := (List.nodup_append.mp (hheap ▸ h.nodup)).2.1
  constructor
  case sorted => exact (List.pairwise_cons.mp hsorted).2
  case nodup => exact (List.nodup_cons.mp hnodup).2
  case entry_f => exact fun x hx => h.entry_f x (hrest x hx)
  case entry_g =>
    intro x hx
    obtain ⟨y, hy, hle, hlt⟩ := h.entry_g x (hrest x hx)
    refine ⟨y, hy, hle, fun hc => ?_⟩
    rcases Finset.mem_insert.mp hc with hnode | hc
    · -- another entry of the popped node: equal only if it is the popped entry itself
      refine lt_of_le_of_ne hle fun heq => (List.nodup_cons.mp hnodup).1 ?_
      have hg : e.g = x.g := by
        rw [← heq]
        exact Option.some.inj (hscore.symm.trans (hnode ▸ hy))
      rwa [entry_eq h hmem (hrest x hx) hnode.symm hg]
    · exact hlt hc
  case walk => exact h.walk
  case linked =>
    intro n y hy
    obtain ⟨p, hp, hl⟩ := h.linked n y hy
    exact ⟨p, hp, (hl.mono (Finset.subset_insert ..)).progress fun _ _ => rfl⟩
  case pending =>
    intro n y hy
    rcases h.pending n y hy with hn | hn
    · exact Or.inl (Finset.mem_insert_of_mem hn)
    · rw [hheap] at hn
      rcases List.mem_append.mp hn with hn | hn
      · obtain ⟨y', hy', hlt⟩ := hstale _ hn
        have hyy : some y = some y' := hy.symm.trans hy'
        cases hyy
        exact absurd hlt (lt_irrefl y)
      · rcases List.mem_cons.mp hn with heq | hn
        · refine Or.inl (Finset.mem_insert.mpr (Or.inl ?_))
          rw [← heq]
          rfl
        · exact Or.inr hn
  case closed =>
    intro n hn
    rcases Finset.mem_insert.mp hn with rfl | hn
    · refine ⟨e.g, hscore, fun x hx => ?_⟩
      rw [← h.entry_f e hmem]
      exact Prod.Lex.monotone_fst _ _ ((List.pairwise_cons.mp hsorted).1 x hx)
    · obtain ⟨y, hy, hfloor⟩ := h.closed n hn
      exact ⟨y, hy, fun x hx => hfloor x (hrest x hx)⟩

/-- No popped node is estimated above the entry popped next. -/
theorem Inv.floor (h : Inv P starts C s) (he : e ∈ s.heap) (hscore : s.gScore e.node = some e.g)
    {m : ν} (hm : m ∈ insert e.node C) {y : K} (hy : s.gScore m = some y) :
    y + P.h m ≤ e.g + P.h e.node := by
  rcases Finset.mem_insert.mp hm with rfl | hm
  · cases hscore.symm.trans hy
    exact le_rfl
  · obtain ⟨y', hy', hle⟩ := h.closed m hm
    cases hy'.symm.trans hy
    rw [← h.entry_f e he]
    exact hle e he

/-! ### Settling -/

omit [LinearOrder ν] in
theorem settle_best (P : Problem ν ι K) (e : Entry ν K) (s : Search ν ι K) :
    (∀ b ∈ s.best, ∃ b' ∈ (s.settle P e).best, b'.1 ≤ b.1) ∧
    (∀ x ∈ P.exit e.node, ∃ b ∈ (s.settle P e).best, b.1 ≤ e.g + x) ∧
    ((s.settle P e).best = s.best ∨ ∃ x ∈ P.exit e.node,
      (s.settle P e).best = some (e.g + x, some e.node)) := by
  unfold Search.settle
  cases hx : P.exit e.node with
  | none => exact ⟨fun b hb => ⟨b, hb, le_rfl⟩, by simp, Or.inl rfl⟩
  | some x =>
    simp only [Option.mem_some_iff, forall_eq', exists_eq_left']
    split_ifs with hb
    · refine ⟨fun b hbest => ⟨_, rfl, ?_⟩, ⟨_, rfl, le_rfl⟩, Or.inr rfl⟩
      exact (hb b.1 (Option.mem_map_of_mem Prod.fst hbest)).le
    · simp only [Below, Option.mem_map, not_forall, not_lt] at hb
      obtain ⟨t, ⟨b, hbest, rfl⟩, hle⟩ := hb
      exact ⟨fun b hb => ⟨b, hb, le_rfl⟩, ⟨b, hbest, hle⟩, Or.inl rfl⟩

theorem Inv.settle (h : Inv P starts C s) : Inv P starts C (s.settle P e) := by
  obtain ⟨hscore, hprevious, hheap⟩ := settle_scores P e s
  constructor
  case sorted => exact hheap ▸ h.sorted
  case nodup => exact hheap ▸ h.nodup
  case entry_f => exact hheap ▸ h.entry_f
  case entry_g => exact hscore ▸ hheap ▸ h.entry_g
  case walk => exact hscore ▸ h.walk
  case linked =>
    intro n y hy
    obtain ⟨p, hp, hl⟩ := h.linked n y (by rwa [hscore] at hy)
    exact ⟨p, by rwa [hprevious], hl.progress fun _ _ => by rw [hscore]⟩
  case pending => exact hscore ▸ hheap ▸ h.pending
  case closed => exact hscore ▸ hheap ▸ h.closed

variable [IsOrderedAddMonoid K]

/-! ### Improving -/

/-- A popped node is never improved: its `f` is no larger than that of the improvement. -/
theorem Inv.not_mem_of_below (h : Inv P starts C s) (hr : Ready P starts C s n g p)
    (hb : Below g (s.gScore n)) : n ∉ C := by
  intro hn
  obtain ⟨y, hy, -⟩ := h.closed n hn
  have hle : y ≤ g := (hr.cancel hn).add_le_add_iff_right.mp (hr.floor n hn y hy)
  exact absurd (hb y hy) (not_lt.mpr hle)

theorem improve_progress (h : Inv P starts C s) (hr : Ready P starts C s n g p) :
    Progress C s (s.improve P n g p) ∧ ∃ y ≤ g, (s.improve P n g p).gScore n = some y := by
  unfold Search.improve
  split_ifs with hb
  · have hn := h.not_mem_of_below hr hb
    refine ⟨⟨rfl, fun m hm => ?_, fun m y hy => ?_⟩, g, le_rfl, Function.update_self ..⟩
    · exact Function.update_of_ne (ne_of_mem_of_not_mem hm hn) ..
    · by_cases hmn : m = n
      · subst hmn
        exact ⟨g, (hb y hy).le, Function.update_self ..⟩
      · exact ⟨y, le_rfl, (Function.update_of_ne hmn ..).trans hy⟩
  · refine ⟨Progress.refl C s, ?_⟩
    simp only [Below, not_forall, not_lt] at hb
    obtain ⟨y, hy, hle⟩ := hb
    exact ⟨y, hle, hy⟩

theorem Inv.improve (h : Inv P starts C s) (hr : Ready P starts C s n g p) :
    Inv P starts C (s.improve P n g p) := by
  have hprogress := (improve_progress h hr).1
  unfold Search.improve at hprogress ⊢
  split_ifs at hprogress ⊢ with hb
  swap
  · exact h
  have hn := h.not_mem_of_below hr hb
  have hnew : entry (g + P.h n) g n ∉ s.heap := by
    intro hmem
    obtain ⟨y, hy, hle, -⟩ := h.entry_g _ hmem
    exact absurd hle (not_le.mpr (hb y hy))
  constructor
  case sorted => exact h.sorted.orderedInsert _ _
  case nodup =>
    exact (List.perm_orderedInsert _ _ _).nodup_iff.mpr (List.nodup_cons.mpr ⟨hnew, h.nodup⟩)
  case entry_f =>
    intro e he
    rcases (List.mem_orderedInsert _).mp he with rfl | he
    · rfl
    · exact h.entry_f e he
  case entry_g =>
    intro e he
    rcases (List.mem_orderedInsert _).mp he with rfl | he
    · exact ⟨g, Function.update_self .., le_rfl, fun hc => absurd hc hn⟩
    · obtain ⟨y, hy, hle, hlt⟩ := h.entry_g e he
      by_cases hen : e.node = n
      · rw [hen] at hy ⊢
        exact ⟨g, Function.update_self .., (hb y hy).le.trans hle, fun hc => absurd hc hn⟩
      · exact ⟨y, (Function.update_of_ne hen ..).trans hy, hle, hlt⟩
  case walk =>
    intro m y hy
    by_cases hmn : m = n
    · subst hmn
      simp only [Function.update_self, Option.some.injEq] at hy
      exact hy ▸ hr.walk
    · exact h.walk m y ((Function.update_of_ne hmn ..).symm.trans hy)
  case linked =>
    intro m y hy
    by_cases hmn : m = n
    · subst hmn
      simp only [Function.update_self, Option.some.injEq] at hy ⊢
      exact ⟨p, rfl, hy ▸ hr.link.progress hprogress.closed⟩
    · obtain ⟨q, hq, hl⟩ := h.linked m y ((Function.update_of_ne hmn ..).symm.trans hy)
      exact ⟨q, (Function.update_of_ne hmn ..).trans hq, hl.progress hprogress.closed⟩
  case pending =>
    intro m y hy
    by_cases hmn : m = n
    · subst hmn
      simp only [Function.update_self, Option.some.injEq] at hy
      subst hy
      exact Or.inr ((List.mem_orderedInsert _).mpr (Or.inl rfl))
    · rcases h.pending m y ((Function.update_of_ne hmn ..).symm.trans hy) with hm | hm
      · exact Or.inl hm
      · exact Or.inr ((List.mem_orderedInsert _).mpr (Or.inr hm))
  case closed =>
    intro m hm
    obtain ⟨y, hy, hfloor⟩ := h.closed m hm
    refine ⟨y, (hprogress.closed m hm).trans hy, fun e he => ?_⟩
    rcases (List.mem_orderedInsert _).mp he with rfl | he
    · exact hr.floor m hm y hy
    · exact hfloor e he

/-- A whole list of improvements, each ready before the first. -/
theorem Inv.improve_all {β : Type*} (node : β → ν) (cost : β → K) (prev : β → Option ν × ι)
    (xs : List β) (h : Inv P starts C s)
    (hx : ∀ x ∈ xs, Ready P starts C s (node x) (cost x) (prev x)) :
    Inv P starts C (xs.foldl (fun s x => s.improve P (node x) (cost x) (prev x)) s) ∧
    Progress C s (xs.foldl (fun s x => s.improve P (node x) (cost x) (prev x)) s) ∧
    ∀ x ∈ xs, ∃ y ≤ cost x,
      (xs.foldl (fun s x => s.improve P (node x) (cost x) (prev x)) s).gScore (node x) =
        some y := by
  induction xs generalizing s with
  | nil => exact ⟨h, Progress.refl C s, fun x hx => absurd hx List.not_mem_nil⟩
  | cons x xs ih =>
    have hready := hx x (List.mem_cons_self ..)
    obtain ⟨hfirst, y, hy, hscore⟩ := improve_progress h hready
    obtain ⟨hinv, hrest, hall⟩ := ih (h.improve hready)
      fun x' hx' => (hx x' (List.mem_cons_of_mem _ hx')).progress hfirst
    refine ⟨hinv, hfirst.trans hrest, fun x' hx' => ?_⟩
    rcases List.mem_cons.mp hx' with rfl | hx'
    · obtain ⟨y', hle, hy'⟩ := hrest.lower _ y hscore
      exact ⟨y', hle.trans hy, hy'⟩
    · exact hall x' hx'

/-! ### Expanding one node -/

/-- The popped nodes have been expanded, and no better total has been passed over. -/
structure Explored (P : Problem ν ι K) (starts : List (ν × K × ι)) (direct : Option K)
    (C : Finset ν) (s : Search ν ι K) : Prop extends Inv P starts C s where
  started : ∀ x ∈ starts, ∃ y ≤ x.2.1, s.gScore x.1 = some y
  relaxed : ∀ n ∈ C, ∀ y, s.gScore n = some y →
    ∀ a ∈ P.arcs n, ∃ y' ≤ y + a.cost, s.gScore a.target = some y'
  counted : ∀ n ∈ C, ∀ y, s.gScore n = some y → ∀ x ∈ P.exit n, ∃ b ∈ s.best, b.1 ≤ y + x
  best_le : ∀ t ∈ direct, ∃ b ∈ s.best, b.1 ≤ t
  best_direct : ∀ t, s.best = some (t, none) → direct = some t
  best_at : ∀ t n, s.best = some (t, some n) →
    n ∈ C ∧ ∃ y x, s.gScore n = some y ∧ P.exit n = some x ∧ t = y + x

omit [IsOrderedAddMonoid K] in
theorem begin_append (P : Problem ν ι K) (direct : Option K) (starts : List (ν × K × ι))
    (x : ν × K × ι) : Search.begin P direct (starts ++ [x]) =
      (Search.begin P direct starts).improve P x.1 x.2.1 (none, x.2.2) := by
  simp [Search.begin]

omit [IsOrderedAddMonoid K] in
theorem begin_best (P : Problem ν ι K) (direct : Option K) (starts : List (ν × K × ι)) :
    (Search.begin P direct starts).best = direct.map fun t => (t, none) := by
  induction starts using List.reverseRecOn with
  | nil => rfl
  | append_singleton starts x ih =>
    rw [begin_append, ← ih]
    unfold Search.improve
    split_ifs <;> rfl

omit [IsOrderedAddMonoid K] in
theorem mem_improve_heap (h : e ∈ (s.improve P n g p).heap) :
    e = entry (g + P.h n) g n ∨ e ∈ s.heap := by
  unfold Search.improve at h
  split_ifs at h
  · exact (List.mem_orderedInsert _).mp h
  · exact Or.inr h

omit [IsOrderedAddMonoid K] in
/-- Every first entry is for a start. -/
theorem begin_heap (P : Problem ν ι K) (direct : Option K) (starts : List (ν × K × ι)) :
    ∀ e ∈ (Search.begin P direct starts).heap, ∃ x ∈ starts, e.f = x.2.1 + P.h x.1 := by
  induction starts using List.reverseRecOn with
  | nil => simp [Search.begin]
  | append_singleton starts x ih =>
    intro e he
    rw [begin_append] at he
    rcases mem_improve_heap he with rfl | he
    · exact ⟨x, by simp, rfl⟩
    · obtain ⟨y, hy, hf⟩ := ih e he
      exact ⟨y, List.mem_append_left _ hy, hf⟩

theorem explored_begin (P : Problem ν ι K) (starts : List (ν × K × ι)) (direct : Option K) :
    Explored P starts direct ∅ (Search.begin P direct starts) := by
  have hempty : Inv P starts ∅ (⟨fun _ => none, fun _ => none, [],
      direct.map fun t => (t, none)⟩ : Search ν ι K) := by
    constructor <;> simp
  obtain ⟨hinv, hprogress, hall⟩ := hempty.improve_all (fun x : ν × K × ι => x.1)
    (fun x => x.2.1) (fun x => (none, x.2.2)) starts
    fun x hx => ⟨.start hx, hx, fun m hm => absurd hm (Finset.notMem_empty m),
      fun hm => absurd hm (Finset.notMem_empty _)⟩
  have hbest := begin_best P direct starts
  refine ⟨hinv, hall, by simp, by simp, fun t ht => ?_, fun t ht => ?_, fun t n ht => ?_⟩
  · rw [hbest, Option.mem_def.mp ht]
    exact ⟨_, rfl, le_rfl⟩
  · rw [hbest] at ht
    simpa using ht
  · rw [hbest] at ht
    simp at ht

/-- The arcs of the popped node are ready to be relaxed, in any state with the same scores. -/
theorem Inv.ready_arc (h : Inv P starts C s) (hP : ArcConsistent P) (he : e ∈ s.heap)
    (hscore : s.gScore e.node = some e.g) (hs' : s'.gScore = s.gScore) {a : Arc ν ι K}
    (ha : a ∈ P.arcs e.node) :
    Ready P starts (insert e.node C) s' a.target (e.g + a.cost) (some e.node, a.label) where
  walk := .along (h.walk _ _ hscore) ha
  link := ⟨Finset.mem_insert_self .., e.g, by rw [hs', hscore], a, ha, rfl, rfl, rfl⟩
  floor m hm y hy := by
    rw [hs'] at hy
    calc y + P.h m ≤ e.g + P.h e.node := h.floor he hscore hm hy
      _ ≤ e.g + (a.cost + P.h a.target) := add_le_add le_rfl (hP.arc e.node a ha)
      _ = e.g + a.cost + P.h a.target := (add_assoc ..).symm
  cancel _ := hP.cancel _

theorem Explored.step (hP : ArcConsistent P) {rest : List (Entry ν K)}
    (h : Explored P starts direct C s) (hf : freshest s.gScore s.heap = some (e, rest)) :
    Explored P starts direct (insert e.node C)
      (({ s with heap := rest }.settle P e).expand P e) := by
  obtain ⟨hfresh, stale, hheap, -⟩ := freshest_some hf
  have hmem : e ∈ s.heap := by
    simp [hheap]
  obtain ⟨hscore, -⟩ := h.popped hmem hfresh
  -- `s₁` is the state whose arcs are relaxed: the entry is gone and its total is counted
  generalize hs₁ : ({ s with heap := rest } : Search ν ι K).settle P e = s₁
  have hinv : Inv P starts (insert e.node C) s₁ := hs₁ ▸ (h.pop hf).settle
  have hscores : s₁.gScore = s.gScore := hs₁ ▸ (settle_scores P e _).1
  obtain ⟨hbest_le, hbest_exit, hbest_cases⟩ := settle_best P e { s with heap := rest }
  rw [hs₁] at hbest_le hbest_exit hbest_cases
  have hready : ∀ a ∈ P.arcs e.node, Ready P starts (insert e.node C) s₁ a.target
      (e.g + a.cost) (some e.node, a.label) :=
    fun a ha => h.ready_arc hP hmem hscore hscores ha
  obtain ⟨hinv', hprogress, hall⟩ := hinv.improve_all (fun a : Arc ν ι K => a.target)
    (fun a => e.g + a.cost) (fun a => (some e.node, a.label)) (P.arcs e.node) hready
  change Inv P starts _ (s₁.expand P e) at hinv'
  change Progress _ s₁ (s₁.expand P e) at hprogress
  have hsame : ∀ n ∈ insert e.node C, (s₁.expand P e).gScore n = s.gScore n := by
    intro n hn
    rw [hprogress.closed n hn, hscores]
  have hlower : ∀ n y z, y ≤ z → s.gScore n = some y →
      ∃ y' ≤ z, (s₁.expand P e).gScore n = some y' := by
    intro n y z hyz hy
    obtain ⟨y', hle, hy'⟩ := hprogress.lower n y (by rw [hscores, hy])
    exact ⟨y', hle.trans hyz, hy'⟩
  refine { hinv' with
    started := ?started, relaxed := ?relaxed, counted := ?counted, best_le := ?best_le
    best_direct := ?best_direct, best_at := ?best_at }
  case started =>
    intro x hx
    obtain ⟨y, hle, hy⟩ := h.started x hx
    exact hlower x.1 y _ hle hy
  case relaxed =>
    intro n hn y hy a ha
    rw [hsame n hn] at hy
    rcases Finset.mem_insert.mp hn with rfl | hn
    · cases hscore.symm.trans hy
      exact hall a ha
    · obtain ⟨y', hle, hy'⟩ := h.relaxed n hn y hy a ha
      exact hlower a.target y' _ hle hy'
  case counted =>
    intro n hn y hy x hx
    rw [hsame n hn] at hy
    rw [hprogress.best]
    rcases Finset.mem_insert.mp hn with rfl | hn
    · cases hscore.symm.trans hy
      exact hbest_exit x hx
    · obtain ⟨b, hb, hle⟩ := h.counted n hn y hy x hx
      obtain ⟨b', hb', hle'⟩ := hbest_le b hb
      exact ⟨b', hb', hle'.trans hle⟩
  case best_le =>
    intro t ht
    obtain ⟨b, hb, hle⟩ := h.best_le t ht
    obtain ⟨b', hb', hle'⟩ := hbest_le b hb
    exact ⟨b', hprogress.best ▸ hb', hle'.trans hle⟩
  case best_direct =>
    intro t ht
    rw [hprogress.best] at ht
    rcases hbest_cases with hb | ⟨x, -, hb⟩
    · exact h.best_direct t (hb.symm.trans ht)
    · cases hb.symm.trans ht
  case best_at =>
    intro t n ht
    rw [hprogress.best] at ht
    rcases hbest_cases with hb | ⟨x, hx, hb⟩
    · obtain ⟨hn, y, x, hy, hx⟩ := h.best_at t n (hb.symm.trans ht)
      exact ⟨Finset.mem_insert_of_mem hn, y, x,
        (hsame n (Finset.mem_insert_of_mem hn)).trans hy, hx⟩
    · cases hb.symm.trans ht
      exact ⟨Finset.mem_insert_self .., e.g, x,
        (hsame _ (Finset.mem_insert_self ..)).trans hscore, hx, rfl⟩

/-! ### Whole runs -/

/-- No entry that is still fresh can beat the best total. -/
def Stopped (s : Search ν ι K) : Prop :=
  ∀ e ∈ s.heap, (¬ ∃ y ∈ s.gScore e.node, y < e.g) → ∃ b ∈ s.best, b.1 ≤ e.f

omit [IsOrderedAddMonoid K] in
theorem stopped_of_freshest (h : Inv P starts C s) {rest : List (Entry ν K)}
    (hf : freshest s.gScore s.heap = some (e, rest))
    (hb : ¬ Below e.f (s.best.map Prod.fst)) : Stopped s := by
  obtain ⟨-, stale, hheap, hstale⟩ := freshest_some hf
  simp only [Below, Option.mem_map, not_forall, not_lt] at hb
  obtain ⟨t, ⟨b, hbest, rfl⟩, hle⟩ := hb
  intro e' he' hfresh
  refine ⟨b, hbest, hle.trans ?_⟩
  rw [hheap] at he'
  rcases List.mem_append.mp he' with he' | he'
  · exact absurd (hstale e' he') hfresh
  · rcases List.mem_cons.mp he' with rfl | he'
    · exact le_rfl
    · have hsorted := (List.pairwise_append.mp (hheap ▸ h.sorted)).2.1
      exact Prod.Lex.monotone_fst _ _ ((List.pairwise_cons.mp hsorted).1 e' he')

omit [IsOrderedAddMonoid K] in
/-- A run either stops where it is or goes on from the state after one expansion. -/
theorem run_cases (h : Inv P starts C s) :
    (Stopped s ∧ ∀ k, run P k s = some s) ∨
      ∃ e rest, freshest s.gScore s.heap = some (e, rest) ∧ run P 0 s = none ∧
        ∀ k, run P (k + 1) s = run P k (({ s with heap := rest }.settle P e).expand P e) := by
  cases hf : freshest s.gScore s.heap with
  | none =>
    refine Or.inl ⟨fun e he hfresh => absurd (freshest_none hf e he) hfresh, fun k => ?_⟩
    unfold run
    rw [hf]
  | some x =>
    obtain ⟨e, rest⟩ := x
    by_cases hb : Below e.f (s.best.map Prod.fst)
    · refine Or.inr ⟨e, rest, rfl, ?_, fun k => ?_⟩
      · unfold run
        simp [hf, hb]
      · rw [run]
        simp [hf, hb]
    · refine Or.inl ⟨stopped_of_freshest h hf hb, fun k => ?_⟩
      unfold run
      simp [hf, hb]

theorem run_explored (hP : ArcConsistent P) (k : ℕ) (h : Explored P starts direct C s)
    (hr : run P k s = some s') : ∃ C', Explored P starts direct C' s' ∧ Stopped s' := by
  induction k generalizing s C with
  | zero =>
    rcases run_cases h.toInv with ⟨hstop, hrun⟩ | ⟨e, rest, -, hrun, -⟩
    · cases (hrun 0).symm.trans hr
      exact ⟨C, h, hstop⟩
    · cases hrun.symm.trans hr
  | succ k ih =>
    rcases run_cases h.toInv with ⟨hstop, hrun⟩ | ⟨e, rest, hf, -, hrun⟩
    · cases (hrun (k + 1)).symm.trans hr
      exact ⟨C, h, hstop⟩
    · exact ih (h.step hP hf) ((hrun k).symm.trans hr)

omit [IsOrderedAddMonoid K] in
theorem Explored.insert_card {N : Finset ν} (hN : ∀ n c, Walk P starts n c → n ∈ N)
    (h : Explored P starts direct C s) (hC : C ⊆ N) {rest : List (Entry ν K)}
    (hf : freshest s.gScore s.heap = some (e, rest)) :
    insert e.node C ⊆ N ∧ (insert e.node C).card = C.card + 1 := by
  obtain ⟨hfresh, stale, hheap, -⟩ := freshest_some hf
  obtain ⟨hscore, hnot⟩ := h.popped (by simp [hheap]) hfresh
  exact ⟨Finset.insert_subset (hN _ _ (h.walk _ _ hscore)) hC,
    Finset.card_insert_of_notMem hnot⟩

/-- Every expansion pops a node that has not been popped, so a search that runs out of
expansions has popped fewer nodes than there are. -/
theorem run_none (hP : ArcConsistent P) {N : Finset ν} (hN : ∀ n c, Walk P starts n c → n ∈ N)
    (k : ℕ) (h : Explored P starts direct C s) (hC : C ⊆ N) (hr : run P k s = none) :
    k + C.card < N.card := by
  induction k generalizing s C with
  | zero =>
    rcases run_cases h.toInv with ⟨-, hrun⟩ | ⟨e, rest, hf, -, -⟩
    · cases (hrun 0).symm.trans hr
    · obtain ⟨hsub, hcard⟩ := h.insert_card hN hC hf
      have hle := Finset.card_le_card hsub
      omega
  | succ k ih =>
    rcases run_cases h.toInv with ⟨-, hrun⟩ | ⟨e, rest, hf, -, hrun⟩
    · cases (hrun (k + 1)).symm.trans hr
    · obtain ⟨hsub, hcard⟩ := h.insert_card hN hC hf
      have hlt := ih (h.step hP hf) hsub ((hrun k).symm.trans hr)
      omega

omit [LinearOrder ν] [AddCommMonoid K] [IsOrderedAddMonoid K] in
theorem freshest_mem {gScore : ν → Option K} {heap rest : List (Entry ν K)}
    (hf : freshest gScore heap = some (e, rest)) :
    e ∈ heap ∧ ¬ ∃ y ∈ gScore e.node, y < e.g := by
  obtain ⟨hfresh, stale, rfl, -⟩ := freshest_some hf
  exact ⟨List.mem_append_right _ (List.mem_cons_self ..), hfresh⟩

omit [IsOrderedAddMonoid K] in
/-- Nothing is expanded where no entry can beat the best total. -/
theorem run_of_best_le (P : Problem ν ι K) {b : K × Option ν} (hb : s.best = some b)
    (hle : ∀ e ∈ s.heap, b.1 ≤ e.f) (k : ℕ) : run P k s = some s := by
  unfold run
  cases hf : freshest s.gScore s.heap with
  | none => rfl
  | some x =>
    have hbelow : ¬ Below x.1.f (s.best.map Prod.fst) := by
      intro h
      have hlt := h b.1 (by rw [hb]; rfl)
      exact absurd (hle x.1 (freshest_mem hf).1) (not_le.mpr hlt)
    simp [hbelow]

omit [IsOrderedAddMonoid K] in
theorem run_zero (P : Problem ν ι K) (s : Search ν ι K) :
    run P 0 s = none ∨ run P 0 s = some s := by
  unfold run
  cases freshest s.gScore s.heap with
  | none => exact Or.inr rfl
  | some x =>
    by_cases hb : Below x.1.f (s.best.map Prod.fst)
    · left
      simp [hb]
    · right
      simp [hb]

/-! ### The expanded nodes -/

omit [IsOrderedAddMonoid K] in
theorem expansions_cases (P : Problem ν ι K) (s : Search ν ι K) :
    (∀ k, expansions P k s = []) ∨
      ∃ e rest, freshest s.gScore s.heap = some (e, rest) ∧ expansions P 0 s = [] ∧
        ∀ k, expansions P (k + 1) s =
          e.node :: expansions P k (({ s with heap := rest }.settle P e).expand P e) := by
  cases hf : freshest s.gScore s.heap with
  | none =>
    left
    intro k
    unfold expansions
    rw [hf]
  | some x =>
    obtain ⟨e, rest⟩ := x
    by_cases hb : Below e.f (s.best.map Prod.fst)
    · refine Or.inr ⟨e, rest, rfl, ?_, fun k => ?_⟩
      · unfold expansions
        simp [hf, hb]
      · rw [expansions]
        simp [hf, hb]
    · left
      intro k
      unfold expansions
      simp [hf, hb]

/-- No node is expanded twice, and every expanded node is reached by a walk. -/
theorem expansions_spec (hP : ArcConsistent P) (k : ℕ) (h : Explored P starts direct C s) :
    (expansions P k s).Nodup ∧
      ∀ n ∈ expansions P k s, n ∉ C ∧ ∃ c, Walk P starts n c := by
  induction k generalizing s C with
  | zero =>
    have hnil : expansions P 0 s = [] := by
      rcases expansions_cases P s with hnil | ⟨-, -, -, hnil, -⟩
      · exact hnil 0
      · exact hnil
    simp [hnil]
  | succ k ih =>
    rcases expansions_cases P s with hnil | ⟨e, rest, hf, -, hcons⟩
    · simp [hnil (k + 1)]
    · obtain ⟨hmem, hfresh⟩ := freshest_mem hf
      obtain ⟨hscore, hnot⟩ := h.popped hmem hfresh
      obtain ⟨hnodup, hlater⟩ := ih (h.step hP hf)
      rw [hcons]
      constructor
      · -- what is expanded later is not among the nodes popped so far
        exact List.nodup_cons.mpr
          ⟨fun he => (hlater _ he).1 (Finset.mem_insert_self ..), hnodup⟩
      · intro n hn
        rcases List.mem_cons.mp hn with rfl | hn
        · exact ⟨hnot, e.g, h.walk _ _ hscore⟩
        · obtain ⟨hn, hwalk⟩ := hlater n hn
          exact ⟨fun hc => hn (Finset.mem_insert_of_mem hc), hwalk⟩

/-- Along a walk either everything is popped with a score no larger than the walk's cost, or
some fresh entry is no larger than the walk's cost and the estimate from its end. -/
theorem Explored.walk_bound (hP : ArcConsistent P) (h : Explored P starts direct C s) {c : K}
    (hw : Walk P starts n c) :
    (n ∈ C ∧ ∃ y ≤ c, s.gScore n = some y) ∨
      ∃ e ∈ s.heap, (¬ ∃ y ∈ s.gScore e.node, y < e.g) ∧ e.f ≤ c + P.h n := by
  have hscored : ∀ n c y, y ≤ c → s.gScore n = some y →
      (n ∈ C ∧ ∃ y ≤ c, s.gScore n = some y) ∨
        ∃ e ∈ s.heap, (¬ ∃ y ∈ s.gScore e.node, y < e.g) ∧ e.f ≤ c + P.h n := by
    intro n c y hle hy
    rcases h.pending n y hy with hn | he
    · exact Or.inl ⟨hn, y, hle, hy⟩
    · refine Or.inr ⟨_, he, ?_, add_le_add_left hle (P.h n)⟩
      rintro ⟨y', hy', hlt⟩
      cases hy.symm.trans hy'
      exact absurd hlt (lt_irrefl y)
  induction hw with
  | start hstart =>
    obtain ⟨y, hle, hy⟩ := h.started _ hstart
    exact hscored _ _ y hle hy
  | @along m c a _ ha ih =>
    rcases ih with ⟨hm, y, hle, hy⟩ | ⟨e, he, hfresh, hf⟩
    · obtain ⟨y', hle', hy'⟩ := h.relaxed m hm y hy a ha
      exact hscored _ _ y' (hle'.trans (add_le_add hle le_rfl)) hy'
    · refine Or.inr ⟨e, he, hfresh, ?_⟩
      calc e.f ≤ c + P.h m := hf
        _ ≤ c + (a.cost + P.h a.target) := add_le_add le_rfl (hP.arc m a ha)
        _ = c + a.cost + P.h a.target := (add_assoc ..).symm

/-- The search stops with a best total no larger than any walk that can finish. -/
theorem Explored.best_optimal (hP : Consistent P) (h : Explored P starts direct C s)
    (hs : Stopped s) {c x : K} (hw : Walk P starts n c) (hx : P.exit n = some x) :
    ∃ b ∈ s.best, b.1 ≤ c + x := by
  rcases h.walk_bound hP.toArcConsistent hw with ⟨hn, y, hle, hy⟩ | ⟨e, he, hfresh, hf⟩
  · obtain ⟨b, hb, hbx⟩ := h.counted n hn y hy x hx
    exact ⟨b, hb, hbx.trans (add_le_add hle le_rfl)⟩
  · obtain ⟨b, hb, hbf⟩ := hs e he hfresh
    exact ⟨b, hb, hbf.trans (hf.trans (add_le_add le_rfl (hP.exit n x hx)))⟩

/-! ### Walking back -/

/-- The number of popped nodes with a smaller score. -/
def depth (C : Finset ν) (s : Search ν ι K) (n : ν) : ℕ :=
  (C.filter fun m => ∃ y ∈ s.gScore m, ∃ z ∈ s.gScore n, y < z).card

omit [LinearOrder ν] [AddCommMonoid K] [IsOrderedAddMonoid K] in
theorem depth_le_card (C : Finset ν) (s : Search ν ι K) (n : ν) : depth C s n ≤ C.card :=
  Finset.card_filter_le _ _

omit [IsOrderedAddMonoid K] in
/-- With positive arcs every recorded node before has a smaller depth. -/
theorem Explored.depth_previous [IsOrderedCancelAddMonoid K]
    (hpos : ∀ m, ∀ a ∈ P.arcs m, 0 < a.cost)
    (h : Explored P starts direct C s) {y : K} (hy : s.gScore n = some y) {m : ν} {l : ι}
    (hprevious : s.previous n = some (some m, l)) :
    (∃ z, s.gScore m = some z) ∧ depth C s m < depth C s n := by
  obtain ⟨p, hp, hlink⟩ := h.linked n y hy
  cases hp.symm.trans hprevious
  obtain ⟨hm, z, hz, a, ha, -, -, hcost⟩ := hlink
  have hlt : z < y := hcost ▸ lt_add_of_pos_right z (hpos m a ha)
  refine ⟨⟨z, hz⟩, Finset.card_lt_card ?_⟩
  rw [Finset.ssubset_iff_of_subset]
  · refine ⟨m, Finset.mem_filter.mpr ⟨hm, z, hz, y, hy, hlt⟩, fun hmem => ?_⟩
    obtain ⟨-, z₁, hz₁, z₂, hz₂, hlt'⟩ := Finset.mem_filter.mp hmem
    cases hz.symm.trans hz₁
    cases hz.symm.trans hz₂
    exact absurd hlt' (lt_irrefl z)
  · intro k hk
    obtain ⟨hkC, w, hw, z', hz', hwz⟩ := Finset.mem_filter.mp hk
    cases hz.symm.trans hz'
    exact Finset.mem_filter.mpr ⟨hkC, w, hw, y, hy, hwz.trans hlt⟩

end AStar
