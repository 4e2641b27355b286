import Mathlib.Data.List.Basic
import Mathlib.Algebra.Order.Ring.Rat
import Mathlib.Tactic

/-! Runs of a deterministic machine that answers every event. A run is a finite list of
events; a disabled event is answered and changes nothing, so every list is a run. -/
namespace Runs

/-- One event of a run, with the state it found and the answer it got. -/
structure Entry (σ ε ρ : Type*) where
  before : σ
  event : ε
  reply : ρ

variable {σ ε ρ : Type*} (step : σ → ε → ρ × σ)

def next (s : σ) (e : ε) : σ := (step s e).2

def final : σ → List ε → σ
  | s, [] => s
  | s, e :: es => final (next step s e) es

def trace : σ → List ε → List (Entry σ ε ρ)
  | _, [] => []
  | s, e :: es => ⟨s, e, (step s e).1⟩ :: trace (next step s e) es

@[simp] theorem final_nil (s : σ) : final step s [] = s := rfl

@[simp] theorem final_cons (s : σ) (e : ε) (es : List ε) :
    final step s (e :: es) = final step (next step s e) es := rfl

@[simp] theorem trace_nil (s : σ) : trace step s [] = [] := rfl

@[simp] theorem trace_cons (s : σ) (e : ε) (es : List ε) :
    trace step s (e :: es) = ⟨s, e, (step s e).1⟩ :: trace step (next step s e) es := rfl

theorem final_append (s : σ) (es fs : List ε) :
    final step s (es ++ fs) = final step (final step s es) fs := by
  induction es generalizing s with
  | nil => rfl
  | cons e es ih => simp only [List.cons_append, final_cons, ih]

theorem trace_append (s : σ) (es fs : List ε) :
    trace step s (es ++ fs) = trace step s es ++ trace step (final step s es) fs := by
  induction es generalizing s with
  | nil => rfl
  | cons e es ih => simp only [List.cons_append, trace_cons, final_cons, ih]

/-- An entry of a trace was made at the state some prefix of the run had reached. -/
theorem mem_trace {s : σ} {es : List ε} {x : Entry σ ε ρ} (h : x ∈ trace step s es) :
    ∃ pre post, es = pre ++ x.event :: post ∧ x.before = final step s pre ∧
      x.reply = (step x.before x.event).1 := by
  induction es generalizing s with
  | nil => simp at h
  | cons e es ih =>
    rcases List.mem_cons.mp h with rfl | h
    · exact ⟨[], es, rfl, rfl, rfl⟩
    · obtain ⟨pre, post, rfl, hb, hr⟩ := ih h
      exact ⟨e :: pre, post, rfl, hb, hr⟩

/-- A property kept by every step holds at the end of every run. -/
theorem final_induction {P : σ → Prop} {s : σ} (hs : P s)
    (hstep : ∀ s e, P s → P (next step s e)) (es : List ε) : P (final step s es) := by
  induction es generalizing s with
  | nil => exact hs
  | cons e es ih => exact ih (hstep s e hs)

/-- A property kept by the steps of a run's events holds at its end. -/
theorem final_induction_mem {P : σ → Prop} {s : σ} {es : List ε} (hs : P s)
    (hstep : ∀ s, ∀ e ∈ es, P s → P (next step s e)) : P (final step s es) := by
  induction es generalizing s with
  | nil => exact hs
  | cons e es ih =>
    apply ih (hstep s e (List.mem_cons_self ..) hs)
    exact fun s' e' he' => hstep s' e' (List.mem_cons_of_mem _ he')

/-- A property kept by every step holds at every entry of a run. -/
theorem trace_induction {P : σ → Prop} {s : σ} (hs : P s)
    (hstep : ∀ s e, P s → P (next step s e)) {es : List ε} {x : Entry σ ε ρ}
    (hx : x ∈ trace step s es) : P x.before := by
  obtain ⟨pre, post, -, hb, -⟩ := mem_trace step hx
  exact hb ▸ final_induction step hs hstep pre

/-- A property of the run so far and its state, kept by every step, holds at the end of every
run. -/
theorem history_induction {P : List ε → σ → Prop} {s : σ} (hs : P [] s)
    (hstep : ∀ pre e, P pre (final step s pre) →
      P (pre ++ [e]) (next step (final step s pre) e)) (es : List ε) :
    P es (final step s es) := by
  induction es using List.reverseRecOn with
  | nil => exact hs
  | append_singleton pre e ih =>
    rw [final_append]
    exact hstep pre e ih

/-- Every step of the run meets `C`, a condition on the state before the step and the event. -/
def Guarded (C : σ → ε → Prop) : σ → List ε → Prop
  | _, [] => True
  | s, e :: es => C s e ∧ Guarded C (next step s e) es

@[simp] theorem guarded_nil (C : σ → ε → Prop) (s : σ) : Guarded step C s [] := trivial

@[simp] theorem guarded_cons (C : σ → ε → Prop) (s : σ) (e : ε) (es : List ε) :
    Guarded step C s (e :: es) ↔ C s e ∧ Guarded step C (next step s e) es := Iff.rfl

theorem guarded_append (C : σ → ε → Prop) (s : σ) (es fs : List ε) :
    Guarded step C s (es ++ fs) ↔
      Guarded step C s es ∧ Guarded step C (final step s es) fs := by
  induction es generalizing s with
  | nil => simp
  | cons e es ih => simp only [List.cons_append, guarded_cons, ih, final_cons, and_assoc]

theorem guarded_iff_trace (C : σ → ε → Prop) (s : σ) (es : List ε) :
    Guarded step C s es ↔ ∀ x ∈ trace step s es, C x.before x.event := by
  induction es generalizing s with
  | nil => simp
  | cons e es ih => simp only [guarded_cons, trace_cons, List.forall_mem_cons, ih]

/-- A property kept by the steps that meet `C` holds at the end of every guarded run. -/
theorem Guarded.final_induction {C : σ → ε → Prop} {P : σ → Prop} {s : σ} {es : List ε}
    (hg : Guarded step C s es) (hs : P s) (hstep : ∀ s e, C s e → P s → P (next step s e)) :
    P (final step s es) := by
  induction es generalizing s with
  | nil => exact hs
  | cons e es ih => exact ih hg.2 (hstep s e hg.1 hs)

/-- When `C` is exactly what a step needs to keep `P`, the runs that stay in `P` are exactly
the guarded ones. -/
theorem forall_prefix_iff_guarded {C : σ → ε → Prop} {P : σ → Prop}
    (hstep : ∀ s e, P s → (P (next step s e) ↔ C s e)) {s : σ} (hs : P s) (es : List ε) :
    (∀ pre, pre <+: es → P (final step s pre)) ↔ Guarded step C s es := by
  constructor
  · intro h
    induction es generalizing s with
    | nil => trivial
    | cons e es ih =>
      have he : P (next step s e) := h [e] ⟨es, rfl⟩
      refine ⟨(hstep s e hs).mp he, ih he fun pre hpre => ?_⟩
      exact h (e :: pre) (List.cons_prefix_cons.mpr ⟨rfl, hpre⟩)
  · rintro h pre ⟨post, rfl⟩
    rw [guarded_append] at h
    exact h.1.final_induction step hs fun s e hc hp => (hstep s e hp).mpr hc

/-- Total of a charge that depends on the state before a step and on its event. -/
def total (cost : σ → ε → ℕ) (s : σ) (es : List ε) : ℕ :=
  ((trace step s es).map fun x => cost x.before x.event).sum

@[simp] theorem total_nil (cost : σ → ε → ℕ) (s : σ) : total step cost s [] = 0 := rfl

@[simp] theorem total_cons (cost : σ → ε → ℕ) (s : σ) (e : ε) (es : List ε) :
    total step cost s (e :: es) = cost s e + total step cost (next step s e) es := by
  simp [total]

/-- A counter that every step moves by the charge of the step ends at the total charge. -/
theorem count_eq_total (count : σ → ℕ) (cost : σ → ε → ℕ) {I : σ → Prop}
    (hI : ∀ s e, I s → I (next step s e))
    (hstep : ∀ s e, I s → count (next step s e) = count s + cost s e)
    {s : σ} (hs : I s) (es : List ε) :
    count (final step s es) = count s + total step cost s es := by
  induction es generalizing s with
  | nil => rfl
  | cons e es ih =>
    rw [final_cons, total_cons, ih (hI s e hs), hstep s e hs, Nat.add_assoc]

/-- After a step that drops the counter, no later step of the run is charged. -/
def DropsLast (drops : σ → ε → Prop) (cost : σ → ε → ℕ) : σ → List ε → Prop
  | _, [] => True
  | s, e :: es => (drops s e → ∀ e' ∈ es, ∀ s', cost s' e' = 0) ∧
      DropsLast drops cost (next step s e) es

/-- The rule of a counted cap. If a step that is charged finds room under `L`, and the
counter grows by at least the charge until it is dropped for good, then the whole run is
charged at most `L`. -/
theorem total_le_cap {count : σ → ℕ} {cost : σ → ε → ℕ} {drops : σ → ε → Prop} {L : ℚ}
    (hL : 0 ≤ L) {s : σ} {es : List ε}
    (hgrow : ∀ x ∈ trace step s es, ¬ drops x.before x.event →
      count x.before + cost x.before x.event ≤ count (next step x.before x.event))
    (hcap : ∀ x ∈ trace step s es, 0 < cost x.before x.event →
      ((count x.before + cost x.before x.event : ℕ) : ℚ) ≤ L)
    (hdrop : DropsLast step drops cost s es) : (total step cost s es : ℚ) ≤ L := by
  suffices H : ∀ (es : List ε) (s : σ) (acc : ℕ), (acc : ℚ) ≤ L →
      (acc ≤ count s ∨ ∀ e ∈ es, ∀ s', cost s' e = 0) →
      (∀ x ∈ trace step s es, ¬ drops x.before x.event →
        count x.before + cost x.before x.event ≤ count (next step x.before x.event)) →
      (∀ x ∈ trace step s es, 0 < cost x.before x.event →
        ((count x.before + cost x.before x.event : ℕ) : ℚ) ≤ L) →
      DropsLast step drops cost s es → ((acc + total step cost s es : ℕ) : ℚ) ≤ L by
    simpa using H es s 0 (by simpa using hL) (Or.inl (Nat.zero_le _)) hgrow hcap hdrop
  intro es
  induction es with
  | nil => intro s acc hacc _ _ _ _; simpa using hacc
  | cons e es ih =>
    intro s acc hacc hlive hgrow hcap hdrop
    rw [total_cons, ← Nat.add_assoc]
    have hfirst : (⟨s, e, (step s e).1⟩ : Entry σ ε ρ) ∈ trace step s (e :: es) := by simp
    have hgrow' := fun x hx => hgrow x (List.mem_cons_of_mem _ hx)
    have hcap' := fun x hx => hcap x (List.mem_cons_of_mem _ hx)
    -- A dropped counter says nothing any more, but then nothing is charged either.
    have hnew : ((acc + cost s e : ℕ) : ℚ) ≤ L := by
      rcases Nat.eq_zero_or_pos (cost s e) with hz | hp
      · simpa [hz] using hacc
      · rcases hlive with hc | hz
        · have hh := hcap _ hfirst hp
          exact le_trans (by exact_mod_cast Nat.add_le_add_right hc _) hh
        · rw [hz e (by simp) s] at hp
          exact absurd hp (lt_irrefl 0)
    refine ih (next step s e) _ hnew ?_ hgrow' hcap' hdrop.2
    by_cases hd : drops s e
    · exact Or.inr (hdrop.1 hd)
    · rcases hlive with hc | hz
      · exact Or.inl ((Nat.add_le_add_right hc _).trans (hgrow _ hfirst hd))
      · exact Or.inr fun e' he' => hz e' (List.mem_cons_of_mem _ he')

theorem event_mem_of_mem_trace {s : σ} {es : List ε} {x : Entry σ ε ρ}
    (h : x ∈ trace step s es) : x.event ∈ es := by
  obtain ⟨pre, post, rfl, -, -⟩ := mem_trace step h
  simp

end Runs
