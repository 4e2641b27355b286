import GeoPlatform.Library.Regex
import Mathlib.Data.List.Infix

/-! Replacing matches by marks. A mark stands for a replaced part of the text, and what stays of a
text is the text with a hole for each such part. -/
namespace Regex
variable {α : Type} {s a b t : List α} {x : α}

/-! ### Words that do not reach over a separator -/

theorem prefix_split (hx : x ∉ s) : s <+: a ++ x :: b ↔ s <+: a := by
  refine ⟨fun h => ?_, fun h => h.trans (List.prefix_append a _)⟩
  induction a generalizing s with
  | nil =>
    cases s with
    | nil => exact List.nil_prefix
    | cons c s =>
      obtain ⟨rfl, -⟩ := List.cons_prefix_cons.mp h
      exact absurd (List.mem_cons_self ..) hx
  | cons d a ih =>
    cases s with
    | nil => exact List.nil_prefix
    | cons c s =>
      obtain ⟨rfl, hrest⟩ := List.cons_prefix_cons.mp h
      exact List.cons_prefix_cons.mpr ⟨rfl, ih (fun hm => hx (List.mem_cons_of_mem c hm)) hrest⟩

theorem infix_split (hx : x ∉ s) : s <:+: a ++ x :: b ↔ s <:+: a ∨ s <:+: b := by
  induction a with
  | nil =>
    have hnil : s <+: [] ++ x :: b ↔ s <+: [] := prefix_split hx
    rw [List.nil_append] at hnil ⊢
    rw [List.infix_cons_iff, hnil, List.prefix_nil, List.infix_nil]
  | cons c a ih =>
    have hcons : s <+: (c :: a) ++ x :: b ↔ s <+: c :: a := prefix_split hx
    rw [List.cons_append] at hcons ⊢
    rw [List.infix_cons_iff, hcons, ih, ← or_assoc, List.infix_cons_iff]

/-- A mark that the word is not within and no part of the word can reach over. -/
structure Separates (mark s : List α) : Prop where
  ends : ∃ x inner y, mark = x :: (inner ++ [y]) ∧ x ∉ s ∧ y ∉ s ∧ ¬ s <:+: inner

theorem Separates.infix_append_iff {mark : List α} (h : Separates mark s) :
    s <:+: a ++ (mark ++ b) ↔ s <:+: a ∨ s <:+: b := by
  obtain ⟨x, inner, y, rfl, hx, hy, hinner⟩ := h.ends
  have hmark : x :: (inner ++ [y]) ++ b = x :: (inner ++ y :: b) := by simp
  rw [hmark, infix_split hx, infix_split hy]
  simp [hinner]

theorem map_some_infix_iff : s.map some <:+: t.map some ↔ s <:+: t := by
  refine ⟨fun h => ?_, fun h => h.map some⟩
  obtain ⟨u, hu, hmap⟩ := List.infix_map_iff.mp h
  rwa [List.map_injective_iff.mpr (Option.some_injective α) hmap]

/-! ### Redactions -/

/-- A replacement that leaves the beginning of a match and puts a mark in the place of the rest. -/
structure Redaction (α : Type) where
  pattern : Pattern α
  fill : Way α → List α
  kept : Way α → List α
  mark : List α
  kept_front : ∀ prev t w, pattern.first prev t = some w → kept w <+: w.taken
  fill_eq : ∀ prev t w, pattern.first prev t = some w → fill w = kept w ++ mark

namespace Redaction
variable (r : Redaction α)

def apply (t : List α) : List α := r.pattern.sub r.fill t

/-- What stays of a match, and a hole for the rest. -/
def cut (w : Way α) : List (Option α) := (r.kept w).map some ++ [none]

/-- The text with a hole for each replaced part. -/
def holes (t : List α) : List (Option α) := r.pattern.scan some r.cut 0 none t

/-- A word stays somewhere in the text as it is. -/
def Leaves (t s : List α) : Prop := s.map some <:+: r.holes t

variable {r}

theorem none_notMem (s : List α) : none ∉ s.map some := by simp

theorem prefix_of_cut {w : Way α} {u : List (Option α)} (h : s.map some <+: r.cut w ++ u) :
    s <+: r.kept w := by
  rw [cut, List.append_assoc] at h
  exact (List.prefix_map_iff_of_injective (Option.some_injective α)).mp
    ((prefix_split (none_notMem s)).mp h)

theorem infix_cut_iff {w : Way α} {u : List (Option α)} :
    s.map some <:+: r.cut w ++ u ↔ s <:+: r.kept w ∨ s.map some <:+: u := by
  have hsplit : s.map some <:+: (r.kept w).map some ++ none :: u ↔ _ :=
    infix_split (none_notMem s)
  rw [cut, List.append_assoc]
  exact hsplit.trans (or_congr_left map_some_infix_iff)

/-- What stays in the text stood there. -/
theorem prefix_of_scan (prev : Option α) (t : List α) :
    ∀ s : List α, s.map some <+: r.pattern.scan some r.cut 0 prev t → s <+: t := by
  induction prev, t using Pattern.scan_induction r.pattern with
  | nil prev =>
    intro s h
    simpa [Pattern.scan] using h
  | miss prev c t hfirst ih =>
    intro s h
    rw [Pattern.scan_miss hfirst] at h
    cases s with
    | nil => exact List.nil_prefix
    | cons d s =>
      rw [List.map_cons, List.cons_prefix_cons, Option.some.injEq] at h
      exact List.cons_prefix_cons.mpr ⟨h.1, ih s h.2⟩
  | hit prev t w hfirst ih =>
    intro s h
    rw [Pattern.scan_hit hfirst] at h
    rw [← Pattern.first_split hfirst]
    exact ((prefix_of_cut h).trans (r.kept_front _ _ w hfirst)).trans (List.prefix_append _ _)

theorem infix_of_scan (prev : Option α) (t : List α)
    (h : s.map some <:+: r.pattern.scan some r.cut 0 prev t) : s <:+: t := by
  induction prev, t using Pattern.scan_induction r.pattern with
  | nil prev => simpa [Pattern.scan] using h
  | miss prev c t hfirst ih =>
    have hwhole := @prefix_of_scan _ r prev (c :: t) s
    rw [Pattern.scan_miss hfirst] at h hwhole
    rw [List.infix_cons_iff] at h ⊢
    exact h.imp hwhole ih
  | hit prev t w hfirst ih =>
    rw [Pattern.scan_hit hfirst, infix_cut_iff] at h
    rw [← Pattern.first_split hfirst]
    rcases h with h | h
    · exact (h.trans (r.kept_front _ _ w hfirst).isInfix).trans
        (List.prefix_append _ _).isInfix
    · exact (ih h).trans (List.suffix_append _ _).isInfix

theorem Leaves.within (h : r.Leaves t s) : s <:+: t := infix_of_scan none t h

/-- A word is in the redacted text exactly if it stays somewhere. -/
theorem infix_scan_iff (hmark : Separates r.mark s) (prev : Option α) (t : List α) :
    ∀ a : List α, s <:+: a ++ r.pattern.scan id r.fill 0 prev t ↔
      s.map some <:+: a.map some ++ r.pattern.scan some r.cut 0 prev t := by
  induction prev, t using Pattern.scan_induction r.pattern with
  | nil prev =>
    intro a
    simp only [Pattern.scan, List.append_nil]
    exact map_some_infix_iff.symm
  | miss prev c t hfirst ih =>
    intro a
    rw [Pattern.scan_miss hfirst, Pattern.scan_miss hfirst]
    have hmore := ih (a ++ [c])
    rwa [List.append_assoc, List.map_append, List.append_assoc] at hmore
  | hit prev t w hfirst ih =>
    intro a
    rw [Pattern.scan_hit hfirst, Pattern.scan_hit hfirst, r.fill_eq _ _ w hfirst,
      List.append_assoc, ← List.append_assoc, hmark.infix_append_iff, cut, List.append_assoc,
      ← List.append_assoc, ← List.map_append]
    have hsplit : s.map some <:+: (a ++ r.kept w).map some ++
        none :: r.pattern.scan some r.cut 0 (w.taken.getLast?.or prev) w.rest ↔ _ :=
      infix_split (none_notMem s)
    refine Iff.trans ?_ hsplit.symm
    rw [map_some_infix_iff]
    exact or_congr_right (ih [])

theorem apply_infix_iff (hmark : Separates r.mark s) : s <:+: r.apply t ↔ r.Leaves t s :=
  infix_scan_iff hmark none t []

/-! ### Redactions in sequence -/

def passes (rs : List (Redaction α)) (t : List α) : List α := rs.foldl (fun t r => r.apply t) t

theorem infix_of_passes {rs : List (Redaction α)} (hmark : ∀ r ∈ rs, Separates r.mark s)
    (h : s <:+: passes rs t) : s <:+: t := by
  induction rs generalizing t with
  | nil => exact h
  | cons r rs ih =>
    have happly : s <:+: r.apply t := ih (fun r' hr' => hmark r' (List.mem_cons_of_mem r hr')) h
    exact ((apply_infix_iff (hmark r (List.mem_cons_self ..))).mp happly).within

/-- A word disappears exactly if one of the redactions, in its turn, leaves it nowhere. -/
theorem notInfix_passes_iff {rs : List (Redaction α)} (hmark : ∀ r ∈ rs, Separates r.mark s)
    (hs : s <:+: t) : ¬ s <:+: passes rs t ↔
      ∃ before r after, rs = before ++ r :: after ∧ ¬ r.Leaves (passes before t) s := by
  induction rs generalizing t with
  | nil => simpa [passes] using hs
  | cons r rs ih =>
    have hrest := fun r' hr' => hmark r' (List.mem_cons_of_mem r hr')
    have hfirst := @apply_infix_iff α s t r (hmark r (List.mem_cons_self ..))
    show ¬ s <:+: passes rs (r.apply t) ↔ _
    by_cases hleaves : r.Leaves t s
    · rw [ih hrest (hfirst.mpr hleaves)]
      constructor
      · rintro ⟨before, r', after, rfl, h⟩
        exact ⟨r :: before, r', after, rfl, h⟩
      · rintro ⟨before, r', after, hsplit, h⟩
        cases before with
        | nil =>
          obtain ⟨rfl, -⟩ := List.cons.inj hsplit
          exact absurd hleaves h
        | cons r'' before =>
          obtain ⟨rfl, rfl⟩ := List.cons.inj hsplit
          exact ⟨before, r', after, rfl, h⟩
    · refine iff_of_true (fun h => ?_) ⟨[], r, rs, rfl, hleaves⟩
      exact hleaves (hfirst.mp (infix_of_passes hrest h))

end Redaction
end Regex
