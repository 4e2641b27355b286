import GeoPlatform.Library.AStarReach

/-! The same search in a larger order. Where costs are sent there with their order and their
sums, every entry, score and total is sent along. -/
namespace AStar
variable {ν ι K L : Type*}

/-! ### Definitions -/

def Arc.map (φ : K → L) (a : Arc ν ι K) : Arc ν ι L := ⟨a.target, φ a.cost, a.label⟩

def Problem.map (φ : K → L) (P : Problem ν ι K) : Problem ν ι L where
  arcs n := (P.arcs n).map (Arc.map φ)
  exit n := (P.exit n).map φ
  h n := φ (P.h n)

def Entry.map (φ : K → L) (e : Entry ν K) : Entry ν L := entry (φ e.f) (φ e.g) e.node

def Search.map (φ : K → L) (s : Search ν ι K) : Search ν ι L where
  gScore n := (s.gScore n).map φ
  previous := s.previous
  heap := s.heap.map (Entry.map φ)
  best := s.best.map fun b => (φ b.1, b.2)

variable [LinearOrder ν] [Add K] [LinearOrder K] [Add L] [LinearOrder L] {φ : K → L}
variable {P : Problem ν ι K} {s : Search ν ι K}

/-! ### Comparisons -/

omit [Add K] [Add L] in
theorem below_map (hφ : StrictMono φ) {x : K} {o : Option K} :
    Below (φ x) (o.map φ) ↔ Below x o := by
  simp [Below, hφ.lt_iff_lt]

omit [Add K] [Add L] in
theorem Entry.map_le (hφ : StrictMono φ) (e e' : Entry ν K) :
    e.map φ ≤ e'.map φ ↔ e ≤ e' := by
  simp only [Entry.map, entry, Prod.Lex.le_iff, ofLex_toLex, hφ.lt_iff_lt, hφ.injective.eq_iff]
  rfl

/-! ### One step -/

theorem improve_map (hφ : StrictMono φ) (hadd : ∀ x y, φ (x + y) = φ x + φ y) (n : ν) (g : K)
    (p : Option ν × ι) :
    (s.map φ).improve (P.map φ) n (φ g) p = (s.improve P n g p).map φ := by
  have hbelow : Below (φ g) ((s.map φ).gScore n) ↔ Below g (s.gScore n) := below_map hφ
  unfold Search.improve
  by_cases hb : Below g (s.gScore n)
  · rw [if_pos hb, if_pos (hbelow.mpr hb)]
    have hscore : Function.update (s.map φ).gScore n (some (φ g)) =
        fun m => (Function.update s.gScore n (some g) m).map φ := by
      funext m
      by_cases hmn : m = n
      · subst hmn
        simp
      · simp [Function.update_of_ne hmn, Search.map]
    have hentry : entry (φ g + (P.map φ).h n) (φ g) n = (entry (g + P.h n) g n).map φ := by
      rw [Problem.map, ← hadd]
      rfl
    have hheap : (s.map φ).heap.orderedInsert (· ≤ ·) ((entry (g + P.h n) g n).map φ) =
        (s.heap.orderedInsert (· ≤ ·) (entry (g + P.h n) g n)).map (Entry.map φ) := by
      symm
      apply List.map_orderedInsert
      · exact fun e _ => (Entry.map_le hφ e _).symm
      · exact fun e _ => (Entry.map_le hφ _ e).symm
    rw [hscore, hentry, hheap]
    rfl
  · rw [if_neg hb, if_neg (mt hbelow.mp hb)]

theorem begin_map (hφ : StrictMono φ) (hadd : ∀ x y, φ (x + y) = φ x + φ y) (direct : Option K)
    (starts : List (ν × K × ι)) :
    Search.begin (P.map φ) (direct.map φ) (starts.map fun x => (x.1, φ x.2.1, x.2.2)) =
      (Search.begin P direct starts).map φ := by
  induction starts using List.reverseRecOn with
  | nil =>
    cases direct <;> rfl
  | append_singleton starts x ih =>
    simp only [Search.begin, List.map_append, List.foldl_append] at ih ⊢
    simp only [List.map_cons, List.map_nil, List.foldl_cons, List.foldl_nil, ih]
    exact improve_map hφ hadd ..

theorem expand_map (hφ : StrictMono φ) (hadd : ∀ x y, φ (x + y) = φ x + φ y)
    (e : Entry ν K) : (s.map φ).expand (P.map φ) (e.map φ) = (s.expand P e).map φ := by
  change (((P.arcs e.node).map (Arc.map φ)).foldl _ _) = _
  unfold Search.expand
  generalize P.arcs e.node = arcs
  induction arcs using List.reverseRecOn with
  | nil => rfl
  | append_singleton arcs a ih =>
    simp only [List.map_append, List.foldl_append, List.map_cons, List.map_nil, List.foldl_cons,
      List.foldl_nil, ih]
    have hcost : (e.map φ).g + (a.map φ).cost = φ (e.g + a.cost) := (hadd ..).symm
    rw [hcost]
    exact improve_map hφ hadd ..

omit [LinearOrder ν] in
theorem settle_map (hφ : StrictMono φ) (hadd : ∀ x y, φ (x + y) = φ x + φ y)
    (e : Entry ν K) : (s.map φ).settle (P.map φ) (e.map φ) = (s.settle P e).map φ := by
  have hexit : (P.map φ).exit (e.map φ).node = (P.exit e.node).map φ := rfl
  unfold Search.settle
  rw [hexit]
  cases P.exit e.node with
  | none => rfl
  | some x =>
    have hcost : (e.map φ).g + φ x = φ (e.g + x) := (hadd ..).symm
    have hbest : (s.map φ).best.map Prod.fst = (s.best.map Prod.fst).map φ := by
      simp [Search.map, Function.comp_def]
    simp only [Option.map_some, hcost, hbest, below_map hφ]
    split_ifs <;> rfl

omit [LinearOrder ν] [Add K] [Add L] in
theorem freshest_map (hφ : StrictMono φ) (gScore : ν → Option K) (heap : List (Entry ν K)) :
    freshest (fun n => (gScore n).map φ) (heap.map (Entry.map φ)) =
      (freshest gScore heap).map fun x => (x.1.map φ, x.2.map (Entry.map φ)) := by
  induction heap with
  | nil => rfl
  | cons e heap ih =>
    have hstale : (∃ y ∈ (gScore (e.map φ).node).map φ, y < (e.map φ).g) ↔
        ∃ y ∈ gScore e.node, y < e.g := by
      simp only [Option.mem_map, exists_exists_and_eq_and]
      exact exists_congr fun y => and_congr_right fun _ => hφ.lt_iff_lt
    simp only [List.map_cons, freshest, hstale, ih]
    split_ifs <;> rfl

/-! ### Whole runs -/

theorem run_map (hφ : StrictMono φ) (hadd : ∀ x y, φ (x + y) = φ x + φ y) (k : ℕ)
    (s : Search ν ι K) : run (P.map φ) k (s.map φ) = (run P k s).map (Search.map φ) := by
  have hnext (s : Search ν ι K) : freshest (s.map φ).gScore (s.map φ).heap =
      (freshest s.gScore s.heap).map fun x => (x.1.map φ, x.2.map (Entry.map φ)) :=
    freshest_map hφ s.gScore s.heap
  have hbelow (s : Search ν ι K) (e : Entry ν K) :
      Below (e.map φ).f ((s.map φ).best.map Prod.fst) ↔ Below e.f (s.best.map Prod.fst) := by
    have hbest : (s.map φ).best.map Prod.fst = (s.best.map Prod.fst).map φ := by
      simp [Search.map, Function.comp_def]
    rw [hbest]
    exact below_map hφ
  induction k, s using run.induct P with
  | case1 k s hf =>
    unfold run
    rw [hnext, hf]
    rfl
  | case2 k s e heap hf hb =>
    unfold run
    rw [hnext, hf]
    simp only [Option.map_some, hbelow, if_pos hb]
  | case3 s e heap hf hb =>
    unfold run
    rw [hnext, hf]
    simp only [Option.map_some, hbelow, if_neg hb, Option.map_none]
  | case4 s e heap hf hb k ih =>
    rw [run, run, hnext, hf]
    simp only [Option.map_some, hbelow, if_neg hb]
    rw [← ih, ← expand_map hφ hadd, ← settle_map hφ hadd]
    rfl

end AStar
