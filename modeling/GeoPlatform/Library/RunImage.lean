import GeoPlatform.Library.Run

/-! A run that contains a run of another machine: every step makes at most one event of it. -/
namespace Runs
variable {σ ε ρ σ' ε' ρ' : Type*}
variable (step : σ → ε → ρ × σ) (step' : σ' → ε' → ρ' × σ') (part : σ → σ')
variable (out : σ → ε → Option ε')

/-- The events of the other machine, in order. -/
def image : σ → List ε → List ε'
  | _, [] => []
  | s, e :: es => (out s e).toList ++ image (next step s e) es

/-- The part of the state that belongs to the other machine moves by its own steps only. -/
def Follows : Prop := ∀ s e, part (next step s e) = final step' (part s) (out s e).toList

variable {step step' part out}

theorem image_append (s : σ) (es fs : List ε) : image step out s (es ++ fs) =
    image step out s es ++ image step out (final step s es) fs := by
  induction es generalizing s with
  | nil => rfl
  | cons e es ih => simp only [List.cons_append, image, ih, final_cons, List.append_assoc]

theorem final_image (h : Follows step step' part out) (s : σ) (es : List ε) :
    part (final step s es) = final step' (part s) (image step out s es) := by
  induction es generalizing s with
  | nil => rfl
  | cons e es ih => rw [image, final_append, ← h, final_cons, ih]

theorem total_image (h : Follows step step' part out) (cost : σ' → ε' → ℕ) (s : σ)
    (es : List ε) : total step' cost (part s) (image step out s es) =
      total step (fun s e => (out s e).elim 0 (cost (part s))) s es := by
  induction es generalizing s with
  | nil => rfl
  | cons e es ih =>
    rw [total_cons, image, ← ih]
    cases hout : out s e with
    | none =>
      have hsame := h s e
      rw [hout] at hsame
      rw [show part (next step s e) = part s from hsame]
      exact (Nat.zero_add _).symm
    | some e' =>
      have hsame := h s e
      rw [hout] at hsame
      rw [show part (next step s e) = next step' (part s) e' from hsame]
      exact total_cons ..

/-- What is charged is paid for, now or from what was saved up. -/
theorem total_le_paid {cost paid : σ → ε → ℕ} {saved : σ → ℕ} {I : σ → Prop}
    (hI : ∀ s e, I s → I (next step s e))
    (hstep : ∀ s e, I s → cost s e + saved (next step s e) ≤ saved s + paid s e)
    {s : σ} (hs : I s) (es : List ε) :
    total step cost s es + saved (final step s es) ≤ saved s + total step paid s es := by
  induction es generalizing s with
  | nil => simp
  | cons e es ih =>
    have hfirst := hstep s e hs
    have hrest := ih (hI s e hs)
    simp only [total_cons, final_cons]
    omega

/-! ### From states that meet an invariant -/

section Invariant
variable {I : σ → Prop} (hI : ∀ s e, I s → I (next step s e))
  (hfollows : ∀ s e, I s → part (next step s e) = final step' (part s) (out s e).toList)
include hI hfollows

theorem final_image_of {s : σ} (hs : I s) (es : List ε) :
    part (final step s es) = final step' (part s) (image step out s es) := by
  induction es generalizing s with
  | nil => rfl
  | cons e es ih => rw [image, final_append, ← hfollows s e hs, final_cons, ih (hI s e hs)]

/-- Both runs are observed alike, when every step is observed as the step that it makes. -/
theorem filterMap_image {ω : Type*} {f : ρ → Option ω} {f' : ρ' → Option ω}
    (hsame : ∀ s e, I s →
      f (step s e).1 = (out s e).bind fun e' => f' (step' (part s) e').1)
    {s : σ} (hs : I s) (es : List ε) :
    (trace step s es).filterMap (fun x => f x.reply) =
      (trace step' (part s) (image step out s es)).filterMap fun y => f' y.reply := by
  induction es generalizing s with
  | nil => rfl
  | cons e es ih =>
    have hfirst : [e].filterMap (fun e => f (step s e).1) =
        (trace step' (part s) (out s e).toList).filterMap fun y => f' y.reply := by
      rw [List.filterMap_cons, hsame s e hs]
      cases out s e with
      | none => rfl
      | some e' => rfl
    rw [image, trace_append, ← hfollows s e hs, List.filterMap_append, ← ih (hI s e hs), ← hfirst,
      trace_cons, ← List.singleton_append, List.filterMap_append]
    rfl

end Invariant

/-- A machine that only answers otherwise goes through the same states. -/
theorem final_congr {step₁ : σ → ε → ρ × σ} {step₂ : σ → ε → ρ' × σ}
    (h : ∀ s e, next step₁ s e = next step₂ s e) (s : σ) (es : List ε) :
    final step₁ s es = final step₂ s es := by
  induction es generalizing s with
  | nil => rfl
  | cons e es ih => rw [final_cons, final_cons, h, ih]

end Runs
