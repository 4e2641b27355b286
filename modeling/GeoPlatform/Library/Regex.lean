import Mathlib.Data.List.TakeWhile
import Mathlib.Tactic

/-! Regular expressions with ordered, backtracking matches, and the replacement of all matches from
left to right. Only classes are repeated. -/

/-- An assertion sees the character before it and the rest of the text. -/
inductive Regex (α : Type)
  | assert (p : Option α → List α → Bool)
  | one (p : α → Bool)
  | rep (p : α → Bool) (least : ℕ) (most : Option ℕ)
  | seq (r s : Regex α)
  | alt (r s : Regex α)
  | group (r : Regex α)

namespace Regex
variable {α β : Type}

def empty : Regex α := assert fun _ _ => true

def opt (r : Regex α) : Regex α := alt r empty

/-- A text, character by character. -/
def lit [DecidableEq α] (word : List α) : Regex α :=
  word.foldr (fun c r => seq (one (· = c)) r) empty

/-- The expression reads each character through a function. -/
def comap (f : α → α) : Regex α → Regex α
  | assert p => assert p
  | one p => one (p ∘ f)
  | rep p least most => rep (p ∘ f) least most
  | seq r s => seq (r.comap f) (s.comap f)
  | alt r s => alt (r.comap f) (s.comap f)
  | group r => group (r.comap f)

/-- A way to match the beginning of a text. -/
structure Way (α : Type) where
  taken : List α
  group : Option (List α)
  rest : List α
  deriving DecidableEq, Repr

def Way.then (a b : Way α) : Way α := ⟨a.taken ++ b.taken, b.group.or a.group, b.rest⟩

/-- The runs of a class at the beginning of a text, the longest first. -/
def runs (p : α → Bool) : ℕ → List α → List (List α × List α)
  | n + 1, c :: t =>
      if p c then (runs p n t).map (fun run => (c :: run.1, run.2)) ++ [([], c :: t)]
      else [([], c :: t)]
  | _, t => [([], t)]

/-- All ways to match, in the order in which they are tried. -/
def ways : Regex α → Option α → List α → List (Way α)
  | assert p, prev, t => if p prev t then [⟨[], none, t⟩] else []
  | one _, _, [] => []
  | one p, _, c :: t => if p c then [⟨[c], none, t⟩] else []
  | rep p least most, _, t =>
      ((runs p (most.getD t.length) t).filter fun run => least ≤ run.1.length).map
        fun run => ⟨run.1, none, run.2⟩
  | seq r s, prev, t =>
      (r.ways prev t).flatMap fun a => (s.ways (a.taken.getLast?.or prev) a.rest).map a.then
  | alt r s, prev, t => r.ways prev t ++ s.ways prev t
  | group r, prev, t => (r.ways prev t).map fun a => { a with group := some a.taken }

theorem ways_assert (p : Option α → List α → Bool) (prev : Option α) (t : List α) :
    (assert p).ways prev t = if p prev t then [⟨[], none, t⟩] else [] := rfl

theorem ways_one (p : α → Bool) (prev : Option α) (c : α) (t : List α) :
    (one p).ways prev (c :: t) = if p c then [⟨[c], none, t⟩] else [] := rfl

theorem ways_rep (p : α → Bool) (least : ℕ) (most : Option ℕ) (prev : Option α) (t : List α) :
    (rep p least most).ways prev t =
      ((runs p (most.getD t.length) t).filter fun run => least ≤ run.1.length).map
        fun run => ⟨run.1, none, run.2⟩ := rfl

theorem ways_seq (r s : Regex α) (prev : Option α) (t : List α) :
    (seq r s).ways prev t = (r.ways prev t).flatMap fun a =>
      (s.ways (a.taken.getLast?.or prev) a.rest).map a.then := rfl

theorem ways_alt (r s : Regex α) (prev : Option α) (t : List α) :
    (alt r s).ways prev t = r.ways prev t ++ s.ways prev t := rfl

theorem ways_group (r : Regex α) (prev : Option α) (t : List α) :
    (group r).ways prev t = (r.ways prev t).map fun a => { a with group := some a.taken } := rfl

/-- The whole text matches. -/
def fullmatch (r : Regex α) (t : List α) : Bool := (r.ways none t).any fun w => w.rest.isEmpty

/-- The first match, at the first place where there is one. -/
def search (r : Regex α) : Option α → List α → Option (Way α)
  | prev, [] => (r.ways prev []).head?
  | prev, c :: t => (r.ways prev (c :: t)).head?.or (r.search (some c) t)

/-- Some part of the text matches. -/
def test (r : Regex α) (t : List α) : Bool := (r.search none t).isSome

/-! ### What a way takes -/

theorem mem_runs {p : α → Bool} {n : ℕ} {t : List α} {run : List α × List α}
    (h : run ∈ runs p n t) :
    run.1 ++ run.2 = t ∧ (∀ c ∈ run.1, p c = true) ∧ run.1.length ≤ n := by
  induction n generalizing t run with
  | zero =>
    rw [runs, List.mem_singleton] at h
    · subst h
      simp
    · simp
  | succ n ih =>
    cases t with
    | nil =>
      rw [runs, List.mem_singleton] at h
      · subst h
        simp
      · simp
    | cons c t =>
      rw [runs] at h
      split at h
      next hc =>
        rcases List.mem_append.mp h with h | h
        · obtain ⟨tail, htail, rfl⟩ := List.mem_map.mp h
          obtain ⟨hsplit, hall, hlen⟩ := ih htail
          refine ⟨congrArg (c :: ·) hsplit, ?_, Nat.succ_le_succ hlen⟩
          intro d hd
          rcases List.mem_cons.mp hd with rfl | hd
          · exact hc
          · exact hall d hd
        · rw [List.mem_singleton] at h
          subst h
          simp
      next =>
        rw [List.mem_singleton] at h
        subst h
        simp

/-- The first run is the longest. -/
theorem runs_head (p : α → Bool) (t : List α) :
    ∃ others, runs p t.length t = (t.takeWhile p, t.dropWhile p) :: others := by
  induction t with
  | nil => exact ⟨[], rfl⟩
  | cons c t ih =>
    rw [List.length_cons, runs]
    cases hc : p c with
    | false => exact ⟨[], by simp [hc]⟩
    | true =>
      obtain ⟨others, ho⟩ := ih
      rw [if_pos rfl, ho]
      exact ⟨_, by simp [hc]; rfl⟩

theorem mem_ways_assert {p : Option α → List α → Bool} {prev : Option α} {t : List α}
    {w : Way α} : w ∈ (assert p).ways prev t ↔ p prev t = true ∧ w = ⟨[], none, t⟩ := by
  rw [ways_assert]
  split <;> simp_all

theorem mem_ways_one {p : α → Bool} {prev : Option α} {t : List α} {w : Way α} :
    w ∈ (one p).ways prev t ↔ ∃ c rest, t = c :: rest ∧ p c = true ∧ w = ⟨[c], none, rest⟩ := by
  cases t with
  | nil => exact ⟨nofun, nofun⟩
  | cons c t =>
    rw [ways_one]
    split <;> simp_all

theorem mem_ways_rep {p : α → Bool} {least : ℕ} {most : Option ℕ} {prev : Option α} {t : List α}
    {w : Way α} (h : w ∈ (rep p least most).ways prev t) :
    w.taken ++ w.rest = t ∧ (∀ c ∈ w.taken, p c = true) ∧ w.group = none ∧
      least ≤ w.taken.length ∧ w.taken.length ≤ most.getD t.length := by
  rw [ways_rep, List.mem_map] at h
  obtain ⟨run, hrun, rfl⟩ := h
  obtain ⟨hrun, hleast⟩ := List.mem_filter.mp hrun
  obtain ⟨hsplit, hall, hmost⟩ := mem_runs hrun
  exact ⟨hsplit, hall, rfl, by simpa using hleast, hmost⟩

theorem mem_ways_seq {r s : Regex α} {prev : Option α} {t : List α} {w : Way α} :
    w ∈ (seq r s).ways prev t ↔ ∃ a ∈ r.ways prev t,
      ∃ b ∈ s.ways (a.taken.getLast?.or prev) a.rest, a.then b = w := by
  simp only [ways_seq, List.mem_flatMap, List.mem_map]

theorem mem_ways_alt {r s : Regex α} {prev : Option α} {t : List α} {w : Way α} :
    w ∈ (alt r s).ways prev t ↔ w ∈ r.ways prev t ∨ w ∈ s.ways prev t := by
  rw [ways_alt, List.mem_append]

theorem mem_ways_group {r : Regex α} {prev : Option α} {t : List α} {w : Way α} :
    w ∈ (group r).ways prev t ↔ ∃ a ∈ r.ways prev t, ⟨a.taken, some a.taken, a.rest⟩ = w := by
  rw [ways_group, List.mem_map]

theorem ways_split {r : Regex α} {prev : Option α} {t : List α} {w : Way α}
    (h : w ∈ r.ways prev t) : w.taken ++ w.rest = t := by
  induction r generalizing prev t w with
  | assert p =>
    obtain ⟨-, rfl⟩ := mem_ways_assert.mp h
    rfl
  | one p =>
    obtain ⟨c, rest, rfl, -, rfl⟩ := mem_ways_one.mp h
    rfl
  | rep p least most => exact (mem_ways_rep h).1
  | seq r s ihr ihs =>
    obtain ⟨a, ha, b, hb, rfl⟩ := mem_ways_seq.mp h
    show (a.taken ++ b.taken) ++ b.rest = t
    rw [List.append_assoc, ihs hb, ihr ha]
  | alt r s ihr ihs => exact (mem_ways_alt.mp h).elim ihr ihs
  | group r ih =>
    obtain ⟨a, ha, rfl⟩ := mem_ways_group.mp h
    exact @ih _ _ a ha

theorem ways_suffix {r : Regex α} {prev : Option α} {t : List α} {w : Way α}
    (h : w ∈ r.ways prev t) : w.rest <:+ t := ⟨w.taken, ways_split h⟩

/-- A bound from below for what a match takes. -/
def leastLength : Regex α → ℕ
  | assert _ => 0
  | one _ => 1
  | rep _ least _ => least
  | seq r s => r.leastLength + s.leastLength
  | alt r s => min r.leastLength s.leastLength
  | group r => r.leastLength

theorem leastLength_le {r : Regex α} {prev : Option α} {t : List α} {w : Way α}
    (h : w ∈ r.ways prev t) : r.leastLength ≤ w.taken.length := by
  induction r generalizing prev t w with
  | assert p => exact Nat.zero_le _
  | one p =>
    obtain ⟨c, rest, -, -, rfl⟩ := mem_ways_one.mp h
    exact le_rfl
  | rep p least most => exact (mem_ways_rep h).2.2.2.1
  | seq r s ihr ihs =>
    obtain ⟨a, ha, b, hb, rfl⟩ := mem_ways_seq.mp h
    have hlen : (a.then b).taken.length = a.taken.length + b.taken.length := List.length_append
    have hleft := ihr ha
    have hright := ihs hb
    rw [leastLength]
    omega
  | alt r s ihr ihs =>
    rw [leastLength]
    rcases mem_ways_alt.mp h with h | h
    · have hleft := ihr h
      omega
    · have hright := ihs h
      omega
  | group r ih =>
    obtain ⟨a, ha, rfl⟩ := mem_ways_group.mp h
    exact @ih _ _ a ha

/-- The expression has no group. -/
def groupless : Regex α → Bool
  | assert _ | one _ | rep _ _ _ => true
  | seq r s | alt r s => r.groupless && s.groupless
  | group _ => false

theorem group_none {r : Regex α} (hr : r.groupless = true) {prev : Option α} {t : List α}
    {w : Way α} (h : w ∈ r.ways prev t) : w.group = none := by
  induction r generalizing prev t w with
  | assert p => rw [(mem_ways_assert.mp h).2]
  | one p =>
    obtain ⟨c, rest, -, -, rfl⟩ := mem_ways_one.mp h
    rfl
  | rep p least most => exact (mem_ways_rep h).2.2.1
  | seq r s ihr ihs =>
    rw [groupless, Bool.and_eq_true] at hr
    obtain ⟨a, ha, b, hb, rfl⟩ := mem_ways_seq.mp h
    show b.group.or a.group = none
    rw [ihs hr.2 hb, ihr hr.1 ha]
    rfl
  | alt r s ihr ihs =>
    rw [groupless, Bool.and_eq_true] at hr
    exact (mem_ways_alt.mp h).elim (ihr hr.1) (ihs hr.2)
  | group r => simp [groupless] at hr

/-- The group stands in front, behind assertions only. -/
def groupInFront : Regex α → Bool
  | seq (assert _) r => r.groupInFront
  | seq (group _) r => r.groupless
  | _ => false

/-- A group in front is the beginning of the match. -/
theorem group_front {r : Regex α} (hr : r.groupInFront = true) {prev : Option α} {t : List α}
    {w : Way α} (h : w ∈ r.ways prev t) : w.group.getD [] <+: w.taken := by
  induction r using groupInFront.induct generalizing prev t w with
  | case1 p r ih =>
    obtain ⟨a, ha, b, hb, rfl⟩ := mem_ways_seq.mp h
    obtain ⟨-, rfl⟩ := mem_ways_assert.mp ha
    have hfront := ih hr hb
    simpa [Way.then] using hfront
  | case2 r s =>
    obtain ⟨a, ha, b, hb, rfl⟩ := mem_ways_seq.mp h
    obtain ⟨c, -, rfl⟩ := mem_ways_group.mp ha
    show (b.group.or (some c.taken)).getD [] <+: c.taken ++ b.taken
    rw [group_none hr hb]
    exact List.prefix_append c.taken b.taken
  | case3 r hassert hgroup =>
    rw [groupInFront] at hr
    · simp at hr
    · exact hassert
    · exact hgroup

theorem ways_lit [DecidableEq α] (word : List α) (prev : Option α) (t : List α) :
    (lit word).ways prev t =
      if word <+: t then [⟨word, none, t.drop word.length⟩] else [] := by
  induction word generalizing prev t with
  | nil => exact (if_pos List.nil_prefix).symm
  | cons c word ih =>
    show (seq (one (· = c)) (lit word)).ways prev t = _
    rw [ways_seq]
    cases t with
    | nil => rfl
    | cons d t =>
      rw [ways_one]
      by_cases hdc : d = c
      · subst hdc
        simp only [decide_true, if_true, List.flatMap_cons, List.flatMap_nil, List.append_nil, ih,
          List.cons_prefix_cons, true_and, List.length_cons, List.drop_succ_cons]
        split <;> rfl
      · simp [hdc, Ne.symm hdc]

theorem ways_lit_lit [DecidableEq α] (a b : List α) (prev : Option α) (t : List α) :
    (seq (lit a) (lit b)).ways prev t = (lit (a ++ b)).ways prev t := by
  rw [ways_seq, ways_lit, ways_lit]
  by_cases ha : a <+: t
  · obtain ⟨u, rfl⟩ := ha
    rw [if_pos (List.prefix_append a u), List.flatMap_singleton, ways_lit]
    simp only [List.drop_left, List.prefix_append_right_inj]
    split
    · simp [Way.then]
    · rfl
  · rw [if_neg ha, if_neg fun h => ha ((List.prefix_append a b).trans h)]
    rfl

theorem ways_alt_seq (r s q : Regex α) (prev : Option α) (t : List α) :
    (seq (alt r s) q).ways prev t = (seq r q).ways prev t ++ (seq s q).ways prev t := by
  rw [ways_seq, ways_seq, ways_seq, ways_alt, List.flatMap_append]

/-- The first way of a sequence is behind the first of its beginnings that can be continued. -/
theorem ways_seq_head (r s : Regex α) (prev : Option α) (t : List α) :
    ((seq r s).ways prev t).head? = (r.ways prev t).findSome? fun a =>
      ((s.ways (a.taken.getLast?.or prev) a.rest).head?).map a.then := by
  rw [ways_seq, List.head?_flatMap]
  simp only [List.head?_map]

/-- A greedy run takes all that it can. -/
theorem rep_head (p : α → Bool) (least : ℕ) (prev : Option α) (t : List α) :
    ((rep p least none).ways prev t).head? =
      if least ≤ (t.takeWhile p).length then some ⟨t.takeWhile p, none, t.dropWhile p⟩
        else none := by
  obtain ⟨others, ho⟩ := runs_head p t
  rw [ways_rep, Option.getD_none]
  split
  next hleast =>
    rw [ho, List.filter_cons_of_pos (by simpa using hleast)]
    rfl
  next hleast =>
    rw [List.head?_eq_none_iff, List.map_eq_nil_iff, List.filter_eq_nil_iff]
    intro run hrun
    obtain ⟨hsplit, hall, -⟩ := mem_runs hrun
    have hprefix : run.1 <+: t.takeWhile p := by
      rw [← hsplit, List.takeWhile_append_of_pos hall]
      exact List.prefix_append run.1 _
    have hlen := hprefix.length_le
    simp only [decide_eq_true_eq]
    omega

/-- An expression that matches at the beginning of the text only is tried there. -/
theorem search_anchored {r : Regex α} (hr : ∀ c t, r.ways (some c) t = []) (t : List α) :
    r.search none t = (r.ways none t).head? := by
  have hlater : ∀ (t : List α) (c : α), r.search (some c) t = none := by
    intro t
    induction t with
    | nil => exact fun c => congrArg List.head? (hr c [])
    | cons d t ih =>
      intro c
      rw [search, hr c, ih d]
      rfl
  cases t with
  | nil => rfl
  | cons c t => rw [search, hlater t c, Option.or_none]

/-! ### Replacement -/

/-- An expression that never matches the empty text. -/
structure Pattern (α : Type) where
  regex : Regex α
  consumes : 0 < regex.leastLength

namespace Pattern
variable (P : Pattern α)

def first (prev : Option α) (t : List α) : Option (Way α) := (P.regex.ways prev t).head?

/-- From left to right: characters between matches are kept, and matches are filled in. The number
says how much of the last match is still ahead. -/
def scan (keep : α → β) (fill : Way α → List β) : ℕ → Option α → List α → List β
  | _, _, [] => []
  | ahead + 1, _, c :: t => scan keep fill ahead (some c) t
  | 0, prev, c :: t =>
      match P.first prev (c :: t) with
      | none => keep c :: scan keep fill 0 (some c) t
      | some w => fill w ++ scan keep fill (w.taken.length - 1) (some c) t

def sub (fill : Way α → List α) (t : List α) : List α := P.scan id fill 0 none t

variable {P} {keep : α → β} {fill : Way α → List β} {prev : Option α} {t : List α} {w : Way α}

theorem first_split (h : P.first prev t = some w) : w.taken ++ w.rest = t :=
  ways_split (List.mem_of_head? h)

theorem first_taken (h : P.first prev t = some w) : w.taken ≠ [] := by
  have hlen := leastLength_le (List.mem_of_head? h)
  have hpos := P.consumes
  rw [← List.length_pos_iff]
  omega

theorem scan_miss {c : α} (h : P.first prev (c :: t) = none) :
    P.scan keep fill 0 prev (c :: t) = keep c :: P.scan keep fill 0 (some c) t := by
  rw [scan, h]

theorem getLast?_cons_or (c : α) (a : List α) (prev : Option α) :
    (c :: a).getLast?.or prev = a.getLast?.or (some c) := by
  rw [List.getLast?_cons]
  cases a.getLast? <;> rfl

theorem scan_ahead (a : List α) (prev : Option α) (t : List α) :
    P.scan keep fill a.length prev (a ++ t) = P.scan keep fill 0 (a.getLast?.or prev) t := by
  induction a generalizing prev with
  | nil => rfl
  | cons c a ih =>
    rw [List.length_cons, List.cons_append, scan, ih, getLast?_cons_or]

/-- A match is filled in as a whole, and the search goes on behind it. -/
theorem scan_hit (h : P.first prev t = some w) : P.scan keep fill 0 prev t =
    fill w ++ P.scan keep fill 0 (w.taken.getLast?.or prev) w.rest := by
  have hsplit := first_split h
  have hne := first_taken h
  cases htaken : w.taken with
  | nil => exact absurd htaken hne
  | cons c a =>
    rw [htaken, List.cons_append] at hsplit
    rw [← hsplit] at h ⊢
    rw [scan, h]
    simp only [htaken, List.length_cons, Nat.add_sub_cancel, scan_ahead, getLast?_cons_or]

/-- A beginning of the text stays if the replacement of each match in it keeps what is left. -/
theorem prefix_scan {y v : List α} (h : ∀ a b w, y = a ++ b → b ≠ [] →
    P.first (a.getLast?.or prev) (b ++ v) = some w → b.map keep <+: fill w) :
    y.map keep <+: P.scan keep fill 0 prev (y ++ v) := by
  induction y generalizing prev with
  | nil => exact List.nil_prefix
  | cons c y ih =>
    cases hfirst : P.first prev (c :: y ++ v) with
    | some w =>
      rw [scan_hit hfirst]
      exact (h [] (c :: y) w rfl (List.cons_ne_nil c y) hfirst).trans (List.prefix_append ..)
    | none =>
      have hmiss : P.scan keep fill 0 prev (c :: (y ++ v)) = _ := scan_miss hfirst
      rw [List.cons_append, hmiss, List.map_cons, List.prefix_cons_inj]
      apply ih
      intro a b w hab hb hw
      apply h (c :: a) b w (congrArg (c :: ·) hab) hb
      rwa [getLast?_cons_or]

/-- Induction along a scan: at each place there is a match or there is none. -/
theorem scan_induction (P : Pattern α) {motive : Option α → List α → Prop}
    (nil : ∀ prev, motive prev [])
    (miss : ∀ prev c t, P.first prev (c :: t) = none → motive (some c) t → motive prev (c :: t))
    (hit : ∀ prev t w, P.first prev t = some w → motive (w.taken.getLast?.or prev) w.rest →
      motive prev t) (prev : Option α) (t : List α) : motive prev t := by
  induction hn : t.length using Nat.strong_induction_on generalizing prev t with
  | _ n ih =>
    subst hn
    cases hfirst : P.first prev t with
    | some w =>
      have hsplit := congrArg List.length (first_split hfirst)
      have hpos := List.length_pos_iff.mpr (first_taken hfirst)
      rw [List.length_append] at hsplit
      exact hit prev t w hfirst (ih _ (by omega) _ _ rfl)
    | none =>
      cases t with
      | nil => exact nil prev
      | cons c t => exact miss prev c t hfirst (ih _ (Nat.lt_succ_self _) _ _ rfl)

end Pattern
end Regex
