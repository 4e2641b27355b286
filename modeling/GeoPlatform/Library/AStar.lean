import Mathlib.Algebra.Order.Ring.Defs
import Mathlib.Data.List.Sort
import Mathlib.Data.Prod.Lex
import Mathlib.Tactic

/-! Best-first search with a heuristic and without a closed set. An improved node is pushed
again, its older heap entries turn stale and are skipped, and the search stops at the first
entry that cannot beat the best total found. -/
namespace AStar

/-- `x < o.get(…, inf)`. -/
def Below {K : Type*} [LT K] (x : K) (o : Option K) : Prop := ∀ y ∈ o, x < y

instance {K : Type*} [LT K] [DecidableLT K] (x : K) (o : Option K) : Decidable (Below x o) :=
  inferInstanceAs (Decidable (∀ y ∈ o, x < y))

structure Arc (ν ι K : Type*) where
  target : ν
  cost : K
  label : ι

/-- `exit n` is the cost of finishing from `n`, and `h n` the estimate of it. -/
structure Problem (ν ι K : Type*) where
  arcs : ν → List (Arc ν ι K)
  exit : ν → Option K
  h : ν → K

/-- A heap entry `(f, g, node)`, in lexicographic order. -/
abbrev Entry (ν K : Type*) := K ×ₗ K ×ₗ ν

namespace Entry
variable {ν K : Type*}

def f (e : Entry ν K) : K := (ofLex e).1
def g (e : Entry ν K) : K := (ofLex (ofLex e).2).1
def node (e : Entry ν K) : ν := (ofLex (ofLex e).2).2

end Entry

def entry {ν K : Type*} (f g : K) (n : ν) : Entry ν K := toLex (f, toLex (g, n))

/-- `previous` names the node before and the label of the arc, `best` the best total and the
node it was found at; where they have no node, the search started there, or the total was
known before it. -/
structure Search (ν ι K : Type*) where
  gScore : ν → Option K
  previous : ν → Option (Option ν × ι)
  heap : List (Entry ν K)
  best : Option (K × Option ν)

section Definitions
variable {ν ι K : Type*} [LinearOrder ν] [Add K] [LinearOrder K]

def Search.improve (P : Problem ν ι K) (s : Search ν ι K) (n : ν) (g : K)
    (p : Option ν × ι) : Search ν ι K :=
  if Below g (s.gScore n) then
    { s with
      gScore := Function.update s.gScore n (some g)
      previous := Function.update s.previous n (some p)
      heap := s.heap.orderedInsert (· ≤ ·) (entry (g + P.h n) g n) }
  else s

def Search.begin (P : Problem ν ι K) (direct : Option K) (starts : List (ν × K × ι)) :
    Search ν ι K :=
  starts.foldl (fun s x => s.improve P x.1 x.2.1 (none, x.2.2))
    ⟨fun _ => none, fun _ => none, [], direct.map fun t => (t, none)⟩

def Search.expand (P : Problem ν ι K) (e : Entry ν K) (s : Search ν ι K) : Search ν ι K :=
  (P.arcs e.node).foldl
    (fun s a => s.improve P a.target (e.g + a.cost) (some e.node, a.label)) s

def Search.settle (P : Problem ν ι K) (e : Entry ν K) (s : Search ν ι K) : Search ν ι K :=
  match P.exit e.node with
  | some x =>
    if Below (e.g + x) (s.best.map Prod.fst) then
      { s with best := some (e.g + x, some e.node) }
    else s
  | none => s

/-- Pops until an entry is not stale. -/
def freshest (gScore : ν → Option K) : List (Entry ν K) → Option (Entry ν K × List (Entry ν K))
  | [] => none
  | e :: heap => if ∃ y ∈ gScore e.node, y < e.g then freshest gScore heap else some (e, heap)

/-- `none` when the search would expand more than the given number of nodes. -/
def run (P : Problem ν ι K) : ℕ → Search ν ι K → Option (Search ν ι K)
  | remaining, s =>
    match freshest s.gScore s.heap with
    | none => some s
    | some (e, heap) =>
      if ¬ Below e.f (s.best.map Prod.fst) then some s
      else
        match remaining with
        | 0 => none
        | remaining + 1 => run P remaining (({ s with heap := heap }.settle P e).expand P e)

/-- The nodes that `run` expands, in order. -/
def expansions (P : Problem ν ι K) : ℕ → Search ν ι K → List ν
  | remaining, s =>
    match freshest s.gScore s.heap with
    | none => []
    | some (e, heap) =>
      if ¬ Below e.f (s.best.map Prod.fst) then []
      else
        match remaining with
        | 0 => []
        | remaining + 1 =>
          e.node :: expansions P remaining (({ s with heap := heap }.settle P e).expand P e)

end Definitions

example : (run ⟨fun n : ℕ => if n < 3 then [⟨n + 1, (2 : ℤ), ()⟩, ⟨3, 5, ()⟩] else [],
    fun n => if n = 3 then some 1 else none, fun _ => 0⟩ 9
    (Search.begin ⟨fun _ => [], fun _ => none, fun _ => 0⟩ none [(0, 0, ())])).map
      (·.best) = some (some (6, some 3)) := by decide

end AStar
