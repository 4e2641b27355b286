import GeoPlatform.Library.SqlText
import Mathlib.Data.List.Infix

/-! What a condition selects: a conjunction of groups in parentheses, each a disjunction of
`UPPER(field) LIKE 'pattern'`. -/
namespace SqlText

/-! ### `LIKE` -/

/-- `%` stands for any text and `_` for any character. -/
def like : List Char → List Char → Bool
  | [], s => s.isEmpty
  | p :: pattern, s =>
    if p = '%' then s.tails.any (like pattern)
    else s.head?.any (fun c => p = '_' || p = c) && like pattern s.tail

variable {p pattern s : List Char}

theorem like_percent : like ['%'] s = true := by
  have hnil : [] ∈ s.tails := (List.mem_tails _ _).mpr (List.nil_suffix ..)
  simp only [like, if_true, List.any_eq_true]
  exact ⟨[], hnil, rfl⟩

/-- A text without wildcards has to stand there as it is. -/
theorem like_append (hp : ∀ c ∈ p, c ≠ '%' ∧ c ≠ '_') :
    like (p ++ pattern) s = true ↔ ∃ rest, s = p ++ rest ∧ like pattern rest = true := by
  induction p generalizing s with
  | nil => simp
  | cons c p ih =>
    obtain ⟨hpercent, hunderscore⟩ := hp c (List.mem_cons_self ..)
    have hrest := fun t => @ih t fun d hd => hp d (List.mem_cons_of_mem c hd)
    rw [List.cons_append, like, if_neg hpercent]
    cases s with
    | nil => simp
    | cons d s =>
      simp only [List.head?_cons, Option.any_some, hunderscore, decide_false, Bool.false_or,
        List.tail_cons, Bool.and_eq_true, decide_eq_true_eq, hrest, List.cons_append,
        List.cons.injEq]
      constructor
      · rintro ⟨rfl, rest, rfl, h⟩
        exact ⟨rest, ⟨rfl, rfl⟩, h⟩
      · rintro ⟨rest, ⟨rfl, rfl⟩, h⟩
        exact ⟨rfl, rest, rfl, h⟩

theorem like_prefix (hp : ∀ c ∈ p, c ≠ '%' ∧ c ≠ '_') :
    like (p ++ ['%']) s = true ↔ p <+: s := by
  rw [like_append hp]
  constructor
  · rintro ⟨rest, rfl, -⟩
    exact List.prefix_append p rest
  · rintro ⟨rest, rfl⟩
    exact ⟨rest, rfl, like_percent⟩

theorem like_within (hp : ∀ c ∈ p, c ≠ '%' ∧ c ≠ '_') :
    like ('%' :: (p ++ ['%'])) s = true ↔ p <:+: s := by
  simp only [like, if_true, List.any_eq_true, List.mem_tails, like_prefix hp]
  constructor
  · rintro ⟨t, hsuffix, hprefix⟩
    exact hprefix.isInfix.trans hsuffix.isInfix
  · rintro ⟨before, after, rfl⟩
    exact ⟨p ++ after, ⟨before, by simp⟩, List.prefix_append p after⟩

/-! ### Conditions -/

/-- The six tokens of `UPPER(field) LIKE 'pattern'`. -/
def condition (field pattern : String) : List Token :=
  [.word "UPPER", .lparen, .word field, .rparen, .word "LIKE", .literal pattern]

/-- Reads on inside a group, where `all` is whether the groups before it hold, and `any` whether a
condition of this group has held. -/
def evaluate (holds : String → String → Bool) (all any : Bool) : List Token → Option Bool
  | [.word upper, .lparen, .word field, .rparen, .word likes, .literal pattern, .rparen] =>
    if upper = "UPPER" ∧ likes = "LIKE" then some (all && (any || holds field pattern)) else none
  | .word upper :: .lparen :: .word field :: .rparen :: .word likes :: .literal pattern ::
      .word or :: rest =>
    if upper = "UPPER" ∧ likes = "LIKE" ∧ or = "OR" then
      evaluate holds all (any || holds field pattern) rest
    else none
  | .word upper :: .lparen :: .word field :: .rparen :: .word likes :: .literal pattern ::
      .rparen :: .word and :: .lparen :: rest =>
    if upper = "UPPER" ∧ likes = "LIKE" ∧ and = "AND" then
      evaluate holds (all && (any || holds field pattern)) false rest
    else none
  | _ => none

/-- Whether a clause selects a row. What cannot be read selects nothing. -/
def selects (holds : String → String → Bool) (clause : String) : Bool :=
  match lex clause with
  | some (.lparen :: tokens) => (evaluate holds true false tokens).getD false
  | _ => false

/-- `(UPPER(f) LIKE 'pattern' OR …)`, after the opening parenthesis. -/
def groupTokens (fields : List String) (pattern : String) : List Token :=
  [Token.word "OR"].intercalate (fields.map (condition · pattern)) ++ [.rparen]

variable {holds : String → String → Bool} {all any : Bool} {fields : List String}

theorem intercalate_map_cons {α β : Type*} (sep : List β) (f : α → List β) (x y : α)
    (xs : List α) : sep.intercalate ((x :: y :: xs).map f) =
      f x ++ sep ++ sep.intercalate ((y :: xs).map f) := List.intercalate_cons_cons ..

/-- Of a group only the last condition is left to read. -/
theorem evaluate_or (value : String) (f : String) (fields : List String) :
    ∃ last any', (any' || holds last value) = (any || (f :: fields).any (holds · value)) ∧
      ∀ rest, evaluate holds all any
          ([Token.word "OR"].intercalate ((f :: fields).map (condition · value)) ++ rest) =
        evaluate holds all any' (condition last value ++ rest) := by
  induction fields generalizing any f with
  | nil => exact ⟨f, any, by simp, fun rest => by simp⟩
  | cons g fields ih =>
    obtain ⟨last, any', hany, hrest⟩ := @ih (any || holds f value) g
    refine ⟨last, any', ?_, fun rest => ?_⟩
    · rw [hany, List.any_cons, Bool.or_assoc, List.any_cons, List.any_cons]
    · rw [intercalate_map_cons, ← hrest]
      simp [condition, evaluate]

theorem evaluate_group (hfields : fields ≠ []) (value : String) :
    evaluate holds all any (groupTokens fields value) =
      some (all && (any || fields.any (holds · value))) := by
  obtain ⟨f, fields, rfl⟩ := List.exists_cons_of_ne_nil hfields
  obtain ⟨last, any', hany, hrest⟩ := @evaluate_or holds all any value f fields
  rw [groupTokens, hrest, ← hany]
  simp [condition, evaluate]

theorem evaluate_group_and (hfields : fields ≠ []) (value : String) (rest : List Token) :
    evaluate holds all any (groupTokens fields value ++ .word "AND" :: .lparen :: rest) =
      evaluate holds (all && (any || fields.any (holds · value))) false rest := by
  obtain ⟨f, fields, rfl⟩ := List.exists_cons_of_ne_nil hfields
  obtain ⟨last, any', hany, hrest⟩ := @evaluate_or holds all any value f fields
  rw [groupTokens, List.append_assoc, hrest, ← hany]
  simp [condition, evaluate]

/-- A group for each value, after the opening parenthesis of the first. -/
def groupsTokens (fields : List String) : String → List String → List Token
  | value, [] => groupTokens fields value
  | value, w :: values =>
    groupTokens fields value ++ .word "AND" :: .lparen :: groupsTokens fields w values

theorem intercalate_groups (value : String) (values : List String) :
    [Token.word "AND"].intercalate ((value :: values).map fun v =>
        .lparen :: groupTokens fields v) =
      .lparen :: groupsTokens fields value values := by
  induction values generalizing value with
  | nil => simp [groupsTokens]
  | cons w values ih =>
    rw [intercalate_map_cons, ih]
    simp [groupsTokens]

/-- Without fields there is nothing that could hold. -/
theorem evaluate_groups (value : String) (values : List String) :
    (evaluate holds all false (groupsTokens fields value values)).getD false =
      (all && (value :: values).all fun v => fields.any (holds · v)) := by
  by_cases hfields : fields = []
  · subst hfields
    cases values <;> simp [groupsTokens, groupTokens, evaluate]
  · induction values generalizing value all with
    | nil => simp [groupsTokens, evaluate_group hfields]
    | cons w values ih =>
      rw [groupsTokens, evaluate_group_and hfields, ih, Bool.false_or, Bool.and_assoc]
      rfl

theorem selects_groups {clause : String} {value : String} {values : List String}
    (h : lex clause = some (.lparen :: groupsTokens fields value values)) :
    selects holds clause = (value :: values).all fun v => fields.any (holds · v) := by
  unfold selects
  rw [h]
  exact (evaluate_groups value values).trans (Bool.true_and _)

end SqlText
