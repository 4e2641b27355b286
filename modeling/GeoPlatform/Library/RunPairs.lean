import GeoPlatform.Library.Run

/-! Two runs compared. A run is compared with the same run without some of its events, chosen by
the state the full run meets them in, or with another run that has events of its own. -/
namespace Runs

variable {σ ε ρ ω : Type*} (step : σ → ε → ρ × σ) (skip : σ → ε → Bool)

/-- The entries of a run whose events are not skipped. -/
def kept (s : σ) (es : List ε) : List (Entry σ ε ρ) :=
  (trace step s es).filter fun x => !skip x.before x.event

/-- The events of a run that are not skipped. -/
def without (s : σ) (es : List ε) : List ε := (kept step skip s es).map Entry.event

@[simp] theorem kept_nil (s : σ) : kept step skip s [] = [] := rfl

@[simp] theorem without_nil (s : σ) : without step skip s [] = [] := rfl

theorem kept_cons_skip {s : σ} {e : ε} (h : skip s e = true) (es : List ε) :
    kept step skip s (e :: es) = kept step skip (next step s e) es := by
  simp [kept, h]

theorem kept_cons_keep {s : σ} {e : ε} (h : skip s e = false) (es : List ε) :
    kept step skip s (e :: es) = ⟨s, e, (step s e).1⟩ :: kept step skip (next step s e) es := by
  simp [kept, h]

/-- The rule of a run and its thinned copy. A relation between their states that a skipped event
and a kept one both preserve, the kept one with the same observation, makes every kept event look
the same in both. The relation has the thinned run's state first. -/
theorem kept_observed {R : σ → σ → Prop} {C : σ → ε → Prop} {obs : ρ → ω}
    (hskip : ∀ s t e, R s t → C t e → skip t e = true → R s (next step t e))
    (hkeep : ∀ s t e, R s t → C t e → skip t e = false →
      obs (step s e).1 = obs (step t e).1 ∧ R (next step s e) (next step t e))
    {s t : σ} (hR : R s t) {es : List ε} (hC : Guarded step C t es) :
    (kept step skip t es).map (fun x => obs x.reply) =
      (trace step s (without step skip t es)).map fun x => obs x.reply := by
  induction es generalizing s t with
  | nil => rfl
  | cons e es ih =>
    obtain ⟨hCe, hCes⟩ := hC
    cases he : skip t e with
    | true =>
      have hrest := ih (hskip s t e hR hCe he) hCes
      rw [without, kept_cons_skip step skip he]
      exact hrest
    | false =>
      obtain ⟨hobs, hR'⟩ := hkeep s t e hR hCe he
      have hrest := ih hR' hCes
      rw [without, kept_cons_keep step skip he, List.map_cons, List.map_cons, trace_cons,
        List.map_cons, hobs]
      exact congrArg _ hrest

/-- The same relation holds at the end. -/
theorem final_without {R : σ → σ → Prop} {C : σ → ε → Prop}
    (hskip : ∀ s t e, R s t → C t e → skip t e = true → R s (next step t e))
    (hkeep : ∀ s t e, R s t → C t e → skip t e = false → R (next step s e) (next step t e))
    {s t : σ} (hR : R s t) {es : List ε} (hC : Guarded step C t es) :
    R (final step s (without step skip t es)) (final step t es) := by
  induction es generalizing s t with
  | nil => exact hR
  | cons e es ih =>
    obtain ⟨hCe, hCes⟩ := hC
    cases he : skip t e with
    | true =>
      rw [without, kept_cons_skip step skip he]
      exact ih (hskip s t e hR hCe he) hCes
    | false =>
      rw [without, kept_cons_keep step skip he]
      exact ih (hkeep s t e hR hCe he) hCes

/-- Events chosen without regard to the state are filtered out. -/
theorem without_eq_filter (skip : ε → Bool) (s : σ) (es : List ε) :
    without step (fun _ => skip) s es = es.filter fun e => !skip e := by
  induction es generalizing s with
  | nil => rfl
  | cons e es ih =>
    have hrest : (kept step (fun _ => skip) (next step s e) es).map Entry.event =
        es.filter fun e => !skip e := ih _
    rw [without]
    cases he : skip e with
    | true =>
      rw [kept_cons_skip step (fun _ => skip) he, hrest, List.filter_cons_of_neg (by simp [he])]
    | false =>
      rw [kept_cons_keep step (fun _ => skip) he, List.map_cons, hrest,
        List.filter_cons_of_pos (by simp [he])]

/-! ### Two runs with events of their own -/

/-- Which of two runs makes an event. -/
inductive Side where
  | both | first | second
  deriving DecidableEq

def firstRun (m : List (Side × ε)) : List ε := (m.filter fun e => e.1 ≠ .second).map Prod.snd

def secondRun (m : List (Side × ε)) : List ε := (m.filter fun e => e.1 ≠ .first).map Prod.snd

theorem firstRun_append (m n : List (Side × ε)) : firstRun (m ++ n) = firstRun m ++ firstRun n := by
  simp [firstRun]

theorem secondRun_append (m n : List (Side × ε)) :
    secondRun (m ++ n) = secondRun m ++ secondRun n := by
  simp [secondRun]

/-- The rule of two runs. A relation between what happened so far and the two states, kept by an
event of both runs and by an event of either one, holds at the end. -/
theorem aligned_induction {R : List (Side × ε) → σ → σ → Prop} {s t : σ} (hstart : R [] s t)
    {m : List (Side × ε)}
    (hboth : ∀ pre e, pre ++ [(.both, e)] <+: m →
      R pre (final step s (firstRun pre)) (final step t (secondRun pre)) →
      R (pre ++ [(.both, e)]) (next step (final step s (firstRun pre)) e)
        (next step (final step t (secondRun pre)) e))
    (hfirst : ∀ pre e, pre ++ [(.first, e)] <+: m →
      R pre (final step s (firstRun pre)) (final step t (secondRun pre)) →
      R (pre ++ [(.first, e)]) (next step (final step s (firstRun pre)) e)
        (final step t (secondRun pre)))
    (hsecond : ∀ pre e, pre ++ [(.second, e)] <+: m →
      R pre (final step s (firstRun pre)) (final step t (secondRun pre)) →
      R (pre ++ [(.second, e)]) (final step s (firstRun pre))
        (next step (final step t (secondRun pre)) e)) :
    R m (final step s (firstRun m)) (final step t (secondRun m)) := by
  suffices H : ∀ pre, pre <+: m →
      R pre (final step s (firstRun pre)) (final step t (secondRun pre)) from
    H m (List.prefix_refl m)
  intro pre hpre
  induction pre using List.reverseRecOn with
  | nil => exact hstart
  | append_singleton pre e ih =>
    have hbefore := ih ((List.prefix_append pre [e]).trans hpre)
    obtain ⟨side, e⟩ := e
    rw [firstRun_append, secondRun_append, final_append, final_append]
    cases side with
    | both => exact hboth pre e hpre hbefore
    | first => exact hfirst pre e hpre hbefore
    | second => exact hsecond pre e hpre hbefore

end Runs
