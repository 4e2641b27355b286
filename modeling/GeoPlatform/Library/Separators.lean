import Mathlib.Data.List.Basic
import Mathlib.Tactic

/-! Texts joined by a separator. What stands before the first one, and after the last one, is
determined by the joined text. -/
namespace Separators
variable {α : Type*} {sep : α} {a b x y : List α}

theorem split_first (ha : sep ∉ a) (hb : sep ∉ b) (h : a ++ sep :: x = b ++ sep :: y) :
    a = b ∧ x = y := by
  induction a generalizing b with
  | nil =>
    cases b with
    | nil => simpa using h
    | cons c b =>
      simp only [List.nil_append, List.cons_append, List.cons.injEq] at h
      exact absurd (h.1 ▸ List.mem_cons_self) hb
  | cons c a ih =>
    cases b with
    | nil =>
      simp only [List.nil_append, List.cons_append, List.cons.injEq] at h
      exact absurd (h.1 ▸ List.mem_cons_self) ha
    | cons d b =>
      simp only [List.cons_append, List.cons.injEq] at h
      obtain ⟨rfl, hrest⟩ := h
      obtain ⟨rfl, rfl⟩ := ih (fun hm => ha (List.mem_cons_of_mem _ hm))
        (fun hm => hb (List.mem_cons_of_mem _ hm)) hrest
      exact ⟨rfl, rfl⟩

theorem split_last (hx : sep ∉ x) (hy : sep ∉ y) (h : a ++ sep :: x = b ++ sep :: y) :
    a = b ∧ x = y := by
  have hreverse := congrArg List.reverse h
  simp only [List.reverse_append, List.reverse_cons, List.append_assoc, List.singleton_append]
    at hreverse
  obtain ⟨hxy, hab⟩ := split_first (fun hm => hx (List.mem_reverse.mp hm))
    (fun hm => hy (List.mem_reverse.mp hm)) hreverse
  exact ⟨List.reverse_injective hab, List.reverse_injective hxy⟩

/-- A part of a text is a piece of it. -/
theorem piece_splitOn [BEq α] [LawfulBEq α] {text part : List α} (h : part ∈ text.splitOn sep) :
    part <:+: text := by
  have hpiece : ∀ parts : List (List α), part ∈ parts → part <:+: [sep].intercalate parts := by
    intro parts hpart
    induction parts with
    | nil => cases hpart
    | cons first parts ih =>
      cases parts with
      | nil =>
        rw [List.mem_singleton.mp hpart, List.intercalate_singleton]
      | cons second parts =>
        rw [List.intercalate_cons_cons, List.append_assoc]
        rcases List.mem_cons.mp hpart with rfl | hrest
        · exact (List.prefix_append _ _).isInfix
        · exact ((ih hrest).trans (List.suffix_append _ _).isInfix).trans
            (List.suffix_append _ _).isInfix
  have hparts := hpiece _ h
  rwa [List.intercalate_splitOn] at hparts

end Separators
