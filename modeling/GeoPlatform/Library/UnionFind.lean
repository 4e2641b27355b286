import GeoPlatform.Library.Loops
import Mathlib.Data.Finset.Card
import Mathlib.Logic.Relation
import Mathlib.Tactic

/-! Disjoint sets as a map to parents, with path halving and no union by size. After the pairs
of a list have been united, two elements have one root just when these pairs connect them. -/
namespace UnionFind
variable {ν : Type*} [DecidableEq ν]

/-- The first component is `parent` after the search; the fuel stands for the loop. -/
def find : ℕ → (ν → ν) → ν → (ν → ν) × ν
  | 0, parent, x => (parent, x)
  | fuel + 1, parent, x =>
    if parent x = x then (parent, x)
    else find fuel (Function.update parent x (parent (parent x))) (parent (parent x))

def union (fuel : ℕ) (parent : ν → ν) (x y : ν) : ν → ν :=
  let a := find fuel parent x
  let b := find fuel a.1 y
  if a.2 ≠ b.2 then Function.update b.1 a.2 b.2 else b.1

/-! ### Forests -/

/-- `root` names the end of every chain of parents, and `rank` climbs along it. -/
structure Forest (N : Finset ν) (parent root : ν → ν) (rank : ν → ℕ) : Prop where
  mem : ∀ x ∈ N, parent x ∈ N
  root_parent : ∀ x, root (parent x) = root x
  parent_root : ∀ x, parent (root x) = root x
  fixed : ∀ x, parent x = x → root x = x
  climbs : ∀ x, parent x ≠ x → rank x < rank (parent x)

variable {N : Finset ν} {parent root : ν → ν} {rank : ν → ℕ} {fuel : ℕ} {x y : ν}

omit [DecidableEq ν] in
theorem forest_id (N : Finset ν) : Forest N id id fun _ => 0 :=
  ⟨fun _ hx => hx, fun _ => rfl, fun _ => rfl, fun _ _ => rfl, fun _ h => absurd rfl h⟩

omit [DecidableEq ν] in
theorem Forest.rank_le (h : Forest N parent root rank) (x : ν) : rank x ≤ rank (parent x) := by
  by_cases hx : parent x = x
  · exact (congrArg rank hx).ge
  · exact (h.climbs x hx).le

omit [DecidableEq ν] in
theorem Forest.climbs_twice (h : Forest N parent root rank) (hx : parent x ≠ x) :
    rank x < rank (parent (parent x)) :=
  (h.climbs x hx).trans_le (h.rank_le _)

/-- Hanging an element under its parent's parent keeps the roots. -/
theorem Forest.halve (h : Forest N parent root rank) (hx : x ∈ N) (hmoved : parent x ≠ x) :
    Forest N (Function.update parent x (parent (parent x))) root rank := by
  have hne : parent (parent x) ≠ x := by
    intro heq
    have hlt := h.climbs_twice hmoved
    rw [heq] at hlt
    exact lt_irrefl _ hlt
  have hroot : ∀ z, root z ≠ x := fun z heq => hmoved (heq ▸ h.parent_root z)
  constructor
  case mem =>
    intro z hz
    by_cases hzx : z = x
    · subst hzx
      simpa using h.mem _ (h.mem _ hx)
    · simpa [hzx] using h.mem z hz
  case root_parent =>
    intro z
    by_cases hzx : z = x
    · subst hzx
      rw [Function.update_self, h.root_parent, h.root_parent]
    · rw [Function.update_of_ne hzx, h.root_parent]
  case parent_root =>
    intro z
    rw [Function.update_of_ne (hroot z), h.parent_root]
  case fixed =>
    intro z hz
    by_cases hzx : z = x
    · subst hzx
      exact absurd ((Function.update_self ..).symm.trans hz) hne
    · exact h.fixed z ((Function.update_of_ne hzx ..).symm.trans hz)
  case climbs =>
    intro z hz
    by_cases hzx : z = x
    · subst hzx
      rw [Function.update_self]
      exact h.climbs_twice hmoved
    · rw [Function.update_of_ne hzx] at hz ⊢
      exact h.climbs z hz

omit [DecidableEq ν] in
/-- Nothing ranks above the end of a chain. -/
theorem Forest.fixed_of_top (h : Forest N parent root rank) (hx : x ∈ N)
    (htop : (N.filter (rank x < rank ·)).card ≤ 0) : parent x = x := by
  have hnone : ∀ z ∈ N, ¬ rank x < rank z :=
    Finset.filter_eq_empty_iff.mp (Finset.card_eq_zero.mp (Nat.le_zero.mp htop))
  by_contra hmoved
  exact hnone _ (h.mem x hx) (h.climbs x hmoved)

omit [DecidableEq ν] in
/-- A turn of the search leaves fewer elements that rank higher. -/
theorem Forest.card_climb (h : Forest N parent root rank) (hx : x ∈ N) (hmoved : parent x ≠ x)
    (hfuel : (N.filter (rank x < rank ·)).card ≤ fuel + 1) :
    (N.filter (rank (parent (parent x)) < rank ·)).card ≤ fuel := by
  have hup : parent (parent x) ∈ N := h.mem _ (h.mem x hx)
  have hlt := h.climbs_twice hmoved
  refine Nat.le_of_lt_succ (lt_of_lt_of_le (Finset.card_lt_card ?_) hfuel)
  rw [Finset.ssubset_iff_of_subset]
  · exact ⟨parent (parent x), Finset.mem_filter.mpr ⟨hup, hlt⟩, by simp⟩
  · intro z hz
    rw [Finset.mem_filter] at hz ⊢
    exact ⟨hz.1, hlt.trans hz.2⟩

/-- With fuel for every element that ranks higher, the search ends at the root. -/
theorem find_spec (h : Forest N parent root rank) (hx : x ∈ N)
    (hfuel : (N.filter (rank x < rank ·)).card ≤ fuel) :
    Forest N (find fuel parent x).1 root rank ∧ (find fuel parent x).2 = root x := by
  induction fuel generalizing parent x with
  | zero => exact ⟨h, (h.fixed x (h.fixed_of_top hx hfuel)).symm⟩
  | succ fuel ih =>
    by_cases hmoved : parent x = x
    · rw [find, if_pos hmoved]
      exact ⟨h, (h.fixed x hmoved).symm⟩
    · rw [find, if_neg hmoved]
      obtain ⟨hforest, hroot⟩ := ih (h.halve hx hmoved) (h.mem _ (h.mem x hx))
        (h.card_climb hx hmoved hfuel)
      rw [h.root_parent, h.root_parent] at hroot
      exact ⟨hforest, hroot⟩

theorem find_root (h : Forest N parent root rank) (hx : x ∈ N) (hfuel : N.card ≤ fuel) :
    Forest N (find fuel parent x).1 root rank ∧ (find fuel parent x).2 = root x :=
  find_spec h hx ((Finset.card_filter_le ..).trans hfuel)

omit [DecidableEq ν] in
theorem Forest.root_mem (h : Forest N parent root rank) (hx : x ∈ N) : root x ∈ N := by
  classical
  have hmem : ∀ (fuel : ℕ) (parent : ν → ν) (x : ν), Forest N parent root rank → x ∈ N →
      (find fuel parent x).2 ∈ N := by
    intro fuel
    induction fuel with
    | zero => exact fun _ _ _ hx => hx
    | succ fuel ih =>
      intro parent x h hx
      by_cases hmoved : parent x = x
      · rw [find, if_pos hmoved]
        exact hx
      · rw [find, if_neg hmoved]
        exact ih _ _ (h.halve hx hmoved) (h.mem _ (h.mem x hx))
  rw [← (find_root h hx le_rfl).2]
  exact hmem _ _ _ h hx

omit [DecidableEq ν] in
theorem Forest.root_root (h : Forest N parent root rank) (x : ν) : root (root x) = root x :=
  h.fixed _ (h.parent_root x)

/-! ### Uniting -/

/-- One root hung under another: the elements below it take over the other root. -/
theorem Forest.link (h : Forest N parent root rank) (hy : y ∈ N) (hne : root x ≠ root y) :
    Forest N (Function.update parent (root x) (root y))
      (fun z => if root z = root x then root y else root z)
      (fun z => if root z = root y then rank z + rank (root x) + 1 else rank z) := by
  constructor
  case mem =>
    intro z hz
    by_cases hzx : z = root x
    · rw [hzx, Function.update_self]
      exact h.root_mem hy
    · rw [Function.update_of_ne hzx]
      exact h.mem z hz
  case root_parent =>
    intro z
    by_cases hzx : z = root x
    · subst hzx
      simp [h.root_root, hne.symm]
    · rw [Function.update_of_ne hzx]
      simp only [h.root_parent]
  case parent_root =>
    intro z
    by_cases hz : root z = root x
    · simp only [hz, if_true]
      rw [Function.update_of_ne hne.symm, h.parent_root]
    · simp only [hz, if_false]
      rw [Function.update_of_ne hz, h.parent_root]
  case fixed =>
    intro z hz
    by_cases hzx : z = root x
    · subst hzx
      exact absurd ((Function.update_self ..).symm.trans hz) hne.symm
    · rw [Function.update_of_ne hzx] at hz
      have hroot := h.fixed z hz
      simp [hroot, hzx]
  case climbs =>
    intro z hz
    by_cases hzx : z = root x
    · subst hzx
      simp only [Function.update_self, h.root_root, if_neg hne, if_true]
      omega
    · rw [Function.update_of_ne hzx] at hz ⊢
      have hlt := h.climbs z hz
      simp only [h.root_parent]
      split_ifs <;> omega

theorem union_spec (h : Forest N parent root rank) (hx : x ∈ N) (hy : y ∈ N)
    (hfuel : N.card ≤ fuel) : ∃ rank', Forest N (union fuel parent x y)
      (fun z => if root z = root x then root y else root z) rank' := by
  obtain ⟨h', hrx⟩ := find_root h hx hfuel
  obtain ⟨h'', hry⟩ := find_root h' hy hfuel
  unfold union
  simp only [hrx, hry]
  split_ifs with hne
  · exact ⟨_, h''.link hy hne⟩
  · refine ⟨rank, ?_⟩
    have hsame : (fun z => if root z = root x then root y else root z) = root := by
      funext z
      split_ifs with hz
      · rw [hz, not_not.mp hne]
      · rfl
    rwa [hsame]

/-! ### Components -/

def uniteAll (fuel : ℕ) (parent : ν → ν) (edges : List (ν × ν)) : ν → ν :=
  edges.foldl (fun parent e => union fuel parent e.1 e.2) parent

/-- `x` and `y` are joined by a chain of the edges, taken either way. -/
def Connected (edges : List (ν × ν)) : ν → ν → Prop :=
  Relation.EqvGen fun x y => (x, y) ∈ edges

omit [DecidableEq ν] in
theorem Connected.mono {edges edges' : List (ν × ν)} (hsub : ∀ e ∈ edges, e ∈ edges')
    (h : Connected edges x y) : Connected edges' x y :=
  Relation.EqvGen.mono (fun _ _ he => hsub _ he) _ _ h

/-- The roots tell the components of the edges apart. -/
def Separates (edges : List (ν × ν)) (root : ν → ν) : Prop :=
  ∀ x y, root x = root y ↔ Connected edges x y

theorem Separates.union {edges : List (ν × ν)} (h : Separates edges root) (u v : ν) :
    Separates (edges ++ [(u, v)]) fun z => if root z = root u then root v else root z := by
  have hold : ∀ {x y}, root x = root y → Connected (edges ++ [(u, v)]) x y := fun heq =>
    ((h _ _).mp heq).mono fun _ he => List.mem_append_left _ he
  have hnew : Connected (edges ++ [(u, v)]) u v := .rel _ _ (by simp)
  intro x y
  constructor
  · intro heq
    simp only at heq
    split_ifs at heq with hx hy hy
    · exact hold (hx.trans hy.symm)
    · exact (hold hx).trans _ _ _ (hnew.trans _ _ _ (hold heq))
    · exact (hold heq).trans _ _ _ ((hnew.symm).trans _ _ _ (hold hy).symm)
    · exact hold heq
  · intro hc
    induction hc with
    | rel x y he =>
      rcases List.mem_append.mp he with he | he
      · simp only [(h x y).mpr (.rel _ _ he)]
      · cases List.mem_singleton.mp he
        by_cases hv : root v = root u <;> simp [hv]
    | refl => rfl
    | symm _ _ _ ih => exact ih.symm
    | trans _ _ _ _ _ ih ih' => exact ih.trans ih'

theorem uniteAll_spec (hfuel : N.card ≤ fuel) (edges : List (ν × ν))
    (hedges : ∀ e ∈ edges, e.1 ∈ N ∧ e.2 ∈ N) :
    ∃ root rank, Forest N (uniteAll fuel id edges) root rank ∧ Separates edges root := by
  induction edges using List.reverseRecOn with
  | nil =>
    refine ⟨id, _, forest_id N, fun x y => ⟨fun h => ?_, fun h => ?_⟩⟩
    · obtain rfl : x = y := h
      exact .refl x
    · induction h with
      | rel x y he => cases he
      | refl => rfl
      | symm _ _ _ ih => exact ih.symm
      | trans _ _ _ _ _ ih ih' => exact ih.trans ih'
  | append_singleton edges e ih =>
    obtain ⟨root, rank, hforest, hseparates⟩ := ih fun e he =>
      hedges e (List.mem_append_left _ he)
    obtain ⟨hu, hv⟩ := hedges e (by simp)
    obtain ⟨rank', hforest'⟩ := union_spec hforest hu hv hfuel
    refine ⟨_, rank', ?_, hseparates.union e.1 e.2⟩
    rw [uniteAll, List.foldl_append]
    exact hforest'

/-! ### The search ends -/

/-- The search, which fails when its turns are used up before it comes to an end. -/
def find? : ℕ → (ν → ν) → ν → Option ((ν → ν) × ν)
  | 0, parent, x => if parent x = x then some (parent, x) else none
  | turns + 1, parent, x =>
    if parent x = x then some (parent, x)
    else find? turns (Function.update parent x (parent (parent x))) (parent (parent x))

def union? (turns : ℕ) (parent : ν → ν) (x y : ν) : Option (ν → ν) :=
  (find? turns parent x).bind fun a => (find? turns a.1 y).map fun b =>
    if a.2 ≠ b.2 then Function.update b.1 a.2 b.2 else b.1

def uniteAll? (turns : ℕ) (parent : ν → ν) (edges : List (ν × ν)) : Option (ν → ν) :=
  edges.foldlM (fun parent e => union? turns parent e.1 e.2) parent

theorem find?_eq_of_rank (h : Forest N parent root rank) (hx : x ∈ N)
    (hfuel : (N.filter (rank x < rank ·)).card ≤ fuel) :
    find? fuel parent x = some (find fuel parent x) := by
  induction fuel generalizing parent x with
  | zero => exact if_pos (h.fixed_of_top hx hfuel)
  | succ fuel ih =>
    rw [find?, find]
    by_cases hmoved : parent x = x
    · rw [if_pos hmoved, if_pos hmoved]
    · rw [if_neg hmoved, if_neg hmoved]
      exact ih (h.halve hx hmoved) (h.mem _ (h.mem x hx)) (h.card_climb hx hmoved hfuel)

/-- In a forest the search ends within as many turns as there are elements. -/
theorem find?_eq (h : Forest N parent root rank) (hx : x ∈ N) (hfuel : N.card ≤ fuel) :
    find? fuel parent x = some (find fuel parent x) :=
  find?_eq_of_rank h hx ((Finset.card_filter_le ..).trans hfuel)

theorem union?_eq (h : Forest N parent root rank) (hx : x ∈ N) (hy : y ∈ N)
    (hfuel : N.card ≤ fuel) : union? fuel parent x y = some (union fuel parent x y) := by
  obtain ⟨h', -⟩ := find_root h hx hfuel
  rw [union?, find?_eq h hx hfuel, Option.bind_some, find?_eq h' hy hfuel, Option.map_some, union]

theorem uniteAll?_eq (hfuel : N.card ≤ fuel) (edges : List (ν × ν))
    (hedges : ∀ e ∈ edges, e.1 ∈ N ∧ e.2 ∈ N) :
    uniteAll? fuel id edges = some (uniteAll fuel id edges) := by
  refine (Loops.foldlM_eq_some_of_forall
    (fun parent => ∃ root rank, Forest N parent root rank) ⟨id, _, forest_id N⟩ ?_).1
  rintro parent ⟨root, rank, h⟩ e he
  obtain ⟨hu, hv⟩ := hedges e he
  obtain ⟨rank', h'⟩ := union_spec h hu hv hfuel
  exact ⟨union?_eq h hu hv hfuel, _, rank', h'⟩

end UnionFind
