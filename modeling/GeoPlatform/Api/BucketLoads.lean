import GeoPlatform.Api.KeyCache
import GeoPlatform.Convex.Combine

/-! How full the buckets of a request are, and what the two gateways report of it. The local loop
keeps the first state with the least left; `combine` puts refused states first. -/
namespace GeoPlatform.Api
open GeoPlatform.Convex hiding KeyDescription RateLimitState

/-- A bucket's limit and its hits in the minute, the one of the request included. -/
structure Load where
  limit : ℤ
  count : ℕ
  deriving DecidableEq

def Load.exceeded (l : Load) : Bool := l.limit < l.count

def Load.full (l : Load) : Bool := l.limit ≤ l.count

def Load.remaining (l : Load) : ℤ := max 0 (l.limit - l.count)

def Load.localState (reset : ℕ) (l : Load) : RateLimitState := ⟨l.limit, l.remaining, reset⟩

def Load.convexState (reset : ℕ) (l : Load) : Convex.RateLimitState :=
  ⟨l.limit, l.remaining, reset, !l.exceeded⟩

/-- The state as it goes out in a reply. -/
def RateLimitState.reply (s : RateLimitState) : RateLimitReply := ⟨s.limit, s.remaining, s.reset⟩

theorem Load.full_of_exceeded {l : Load} (h : l.exceeded = true) : l.full = true := by
  simp only [exceeded, full, decide_eq_true_eq] at h ⊢
  exact h.le

theorem Load.remaining_eq_zero {l : Load} : l.remaining = 0 ↔ l.full = true := by
  simp only [remaining, full, decide_eq_true_eq]
  omega

theorem Load.remaining_nonneg (l : Load) : 0 ≤ l.remaining := le_max_left ..

/-! ### The local loop -/

/-- The local order: the load with less left first. -/
def Load.leastLeft (a b : Load) : Prop := a.remaining ≤ b.remaining

instance : DecidableRel Load.leastLeft := fun _ _ => inferInstanceAs (Decidable (_ ≤ _))

/-- One step of the loop, once the bucket is hit. -/
def judge (reset : ℕ) (acc : Bool × Option RateLimitState) (l : Load) :
    Bool × Option RateLimitState :=
  (acc.1 && !l.exceeded, match acc.2 with
    | none => some (l.localState reset)
    | some b => if l.remaining < b.remaining then some (l.localState reset) else some b)

theorem foldl_judge_some (reset : ℕ) (ls : List Load) (ok : Bool) (x : Load) :
    ls.foldl (judge reset) (ok, some (x.localState reset)) =
      (ok && ls.all fun l => !l.exceeded,
        some ((StableSort.first Load.leastLeft x ls).localState reset)) := by
  rw [← StableSort.foldl_eq_first Load.leastLeft (fun a b => le_total _ _)
    (fun a b c => le_trans)]
  induction ls generalizing ok x with
  | nil => simp
  | cons l ls ih =>
    have hstep : judge reset (ok, some (x.localState reset)) l =
        (ok && !l.exceeded, some ((if x.leastLeft l then x else l).localState reset)) := by
      unfold judge Load.leastLeft
      by_cases h : x.remaining ≤ l.remaining
      · simp [h, Load.localState, not_lt.mpr h]
      · simp [h, Load.localState, not_le.mp h]
    rw [List.foldl_cons, hstep, ih, List.all_cons, Bool.and_assoc, List.foldl_cons]

theorem foldl_judge (reset : ℕ) (a : Load) (ls : List Load) :
    (a :: ls).foldl (judge reset) (true, none) =
      ((a :: ls).all fun l => !l.exceeded,
        some ((StableSort.first Load.leastLeft a ls).localState reset)) := by
  rw [List.foldl_cons, List.all_cons]
  exact foldl_judge_some reset ls _ a

/-! ### The order of `combine` -/

/-- The order of `combine`, on loads: refused ones first. -/
def Load.binds (a b : Load) : Prop :=
  if a.exceeded = b.exceeded then a.remaining ≤ b.remaining else a.exceeded

instance : DecidableRel Load.binds := fun _ _ => inferInstanceAs (Decidable (ite _ _ _))

theorem bindsBefore_convexState (reset : ℕ) (a b : Load) :
    bindsBefore (a.convexState reset) (b.convexState reset) = true ↔ a.binds b := by
  unfold bindsBefore Load.binds Load.convexState
  by_cases h : a.exceeded = b.exceeded
  · simp [h]
  · simp [h]

theorem combine_loads (reset : ℕ) (a : Load) (ls : List Load) :
    combine ((a :: ls).map (Load.convexState reset)) =
      { (StableSort.first Load.binds a ls).convexState reset with
        allowed := (a :: ls).all fun l => !l.exceeded } := by
  have hall : ((a :: ls).map (Load.convexState reset)).all Convex.RateLimitState.allowed =
      (a :: ls).all fun l => !l.exceeded := by
    rw [List.all_map]
    rfl
  have horder : StableSort.first (fun x y : Load =>
      bindsBefore (x.convexState reset) (y.convexState reset) = true) a ls =
      StableSort.first Load.binds a ls :=
    StableSort.first_congr fun x _ y _ => bindsBefore_convexState reset x y
  rw [List.map_cons] at hall ⊢
  rw [combine_cons, hall, StableSort.first_map, horder]

/-! ### When the reports are the same -/

/-- A bucket is over its limit, and the first that has nothing left has another limit than the
first that is over. -/
def Shadowed (ls : List Load) : Prop :=
  ∃ full past, ls.find? Load.full = some full ∧ ls.find? Load.exceeded = some past ∧
    full.limit ≠ past.limit

theorem first_exceeded {a : Load} {ls : List Load} (h : ∃ l ∈ a :: ls, l.exceeded = true) :
    (a :: ls).find? Load.exceeded = some (StableSort.first Load.binds a ls) := by
  apply StableSort.find?_eq_first _ _ h
  · intro x _ y _ hx
    unfold Load.binds
    split_ifs with hsame
    · rw [Load.remaining_eq_zero.mpr (Load.full_of_exceeded hx)]
      exact y.remaining_nonneg
    · exact hx
  · intro x _ y _ hx hy
    simp [Load.binds, hx, hy]

theorem first_full {a : Load} {ls : List Load} (h : ∃ l ∈ a :: ls, l.full = true) :
    (a :: ls).find? Load.full = some (StableSort.first Load.leastLeft a ls) := by
  apply StableSort.find?_eq_first _ _ h
  · intro x _ y _ hx
    unfold Load.leastLeft
    rw [Load.remaining_eq_zero.mpr hx]
    exact y.remaining_nonneg
  · intro x _ y _ hx hy hle
    unfold Load.leastLeft at hle
    rw [Load.remaining_eq_zero.mpr hy] at hle
    rw [Load.remaining_eq_zero.mp (le_antisymm hle x.remaining_nonneg)] at hx
    cases hx

/-- Both gateways report the same limit, remainder and reset unless a full bucket shadows the one
that refuses the request. -/
theorem reports_agree_iff (reset : ℕ) (a : Load) (ls : List Load) :
    ((StableSort.first Load.leastLeft a ls).localState reset).reply =
        ((StableSort.first Load.binds a ls).convexState reset).reply ↔ ¬ Shadowed (a :: ls) := by
  by_cases hover : ∃ l ∈ a :: ls, l.exceeded = true
  · have hfull : ∃ l ∈ a :: ls, l.full = true := by
      obtain ⟨l, hl, h⟩ := hover
      exact ⟨l, hl, Load.full_of_exceeded h⟩
    have hfindOver := first_exceeded hover
    have hfindFull := first_full hfull
    have hzero := Load.remaining_eq_zero.mpr (List.find?_some hfindFull)
    have hzero' := Load.remaining_eq_zero.mpr (Load.full_of_exceeded (List.find?_some hfindOver))
    unfold Shadowed
    rw [hfindOver, hfindFull]
    simp [Load.localState, Load.convexState, RateLimitState.reply, Convex.RateLimitState.reply,
      hzero, hzero']
  · have hnone : (a :: ls).find? Load.exceeded = none := by
      rw [List.find?_eq_none]
      exact fun l hl h => hover ⟨l, hl, h⟩
    have hsame : StableSort.first Load.leastLeft a ls = StableSort.first Load.binds a ls := by
      refine StableSort.first_congr fun x hx y hy => ?_
      have hxo : x.exceeded = false := by simpa using fun h => hover ⟨x, hx, h⟩
      have hyo : y.exceeded = false := by simpa using fun h => hover ⟨y, hy, h⟩
      simp [Load.leastLeft, Load.binds, hxo, hyo]
    rw [hsame]
    refine iff_of_true rfl ?_
    rintro ⟨full, past, -, hfind, -⟩
    rw [hnone] at hfind
    cases hfind

end GeoPlatform.Api
