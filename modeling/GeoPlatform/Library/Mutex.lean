import Mathlib.Logic.Function.Basic
import Mathlib.Tactic

/-! A lock and the tasks it guards. As long as a task takes the lock when it goes inside and gives
it back when it leaves, exactly the holder is inside. -/
namespace Mutex
variable {ι τ : Type*} {inside : τ → Prop} {tasks : ι → τ} {holder : Option ι}
variable {i j : ι} {t : τ}

/-- Exactly the holder of the lock is inside. -/
def Held (inside : τ → Prop) (tasks : ι → τ) (holder : Option ι) : Prop :=
  ∀ i, inside (tasks i) ↔ holder = some i

theorem Held.unique (h : Held inside tasks holder) (hi : inside (tasks i))
    (hj : inside (tasks j)) : i = j :=
  Option.some.inj (((h i).mp hi).symm.trans ((h j).mp hj))

theorem Held.free (h : Held inside tasks none) (i : ι) : ¬ inside (tasks i) :=
  fun hi => nomatch (h i).mp hi

theorem Held.of_outside (h : ∀ i, ¬ inside (tasks i)) : Held inside tasks none :=
  fun i => iff_of_false (h i) nofun

variable [DecidableEq ι]

/-- A task outside stays outside. -/
theorem Held.outside (h : Held inside tasks holder) (hi : ¬ inside (tasks i)) (ht : ¬ inside t) :
    Held inside (Function.update tasks i t) holder := by
  intro j
  by_cases hj : j = i
  · subst hj
    rw [Function.update_self]
    exact iff_of_false ht fun hl => hi ((h j).mpr hl)
  · rw [Function.update_of_ne hj]
    exact h j

/-- The holder stays inside. -/
theorem Held.stay (h : Held inside tasks holder) (hi : inside (tasks i)) (ht : inside t) :
    Held inside (Function.update tasks i t) holder := by
  intro j
  by_cases hj : j = i
  · subst hj
    rw [Function.update_self]
    exact iff_of_true ht ((h j).mp hi)
  · rw [Function.update_of_ne hj]
    exact h j

theorem Held.enter (h : Held inside tasks none) (ht : inside t) :
    Held inside (Function.update tasks i t) (some i) := by
  intro j
  by_cases hj : j = i
  · subst hj
    rw [Function.update_self]
    exact iff_of_true ht rfl
  · rw [Function.update_of_ne hj]
    exact iff_of_false (h.free j) fun hl => hj (Option.some.inj hl).symm

/-- Everybody but the holder is outside, so when it leaves the lock is free. -/
theorem Held.leave (h : Held inside tasks holder) (hi : inside (tasks i)) (ht : ¬ inside t) :
    Held inside (Function.update tasks i t) none := by
  apply Held.of_outside
  intro j
  by_cases hj : j = i
  · subst hj
    rwa [Function.update_self]
  · rw [Function.update_of_ne hj]
    exact fun hin => hj (h.unique hin hi)

end Mutex
