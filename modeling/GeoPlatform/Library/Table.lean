import Mathlib.Data.List.Basic
import Mathlib.Tactic

/-! Document tables in creation order. The identifiers ascend, so a document is found,
patched and deleted by its identifier alone. -/
namespace Docs

structure Doc (α : Type*) where
  id : ℕ
  val : α
  deriving DecidableEq, Repr

structure Table (α : Type*) where
  docs : List (Doc α)
  nextId : ℕ
  ascending : docs.Pairwise fun a b => a.id < b.id
  bounded : ∀ d ∈ docs, d.id < nextId

/-- A lookup that promises at most one document found several. -/
inductive Lookup (α : Type*) where
  | none
  | one (d : Doc α)
  | several

namespace Table
variable {α : Type*}

def empty : Table α := ⟨[], 0, List.Pairwise.nil, by simp⟩

instance : Inhabited (Table α) := ⟨empty⟩

def insert (t : Table α) (a : α) : Table α where
  docs := t.docs ++ [⟨t.nextId, a⟩]
  nextId := t.nextId + 1
  ascending := by
    rw [List.pairwise_append]
    refine ⟨t.ascending, List.pairwise_singleton _ _, fun d hd e he => ?_⟩
    rw [List.mem_singleton] at he
    exact he ▸ t.bounded d hd
  bounded d hd := by
    rcases List.mem_append.mp hd with hd | hd
    · exact (t.bounded d hd).trans (Nat.lt_succ_self _)
    · rw [List.mem_singleton] at hd
      exact hd ▸ Nat.lt_succ_self _

def patch (t : Table α) (i : ℕ) (f : α → α) : Table α where
  docs := t.docs.map fun d => if d.id = i then ⟨d.id, f d.val⟩ else d
  nextId := t.nextId
  ascending := by
    rw [List.pairwise_map]
    refine t.ascending.imp fun {a b} h => ?_
    split_ifs <;> exact h
  bounded d hd := by
    obtain ⟨e, he, rfl⟩ := List.mem_map.mp hd
    split_ifs <;> exact t.bounded e he

/-- Patch every document that meets a test. -/
def patchAll (t : Table α) (p : α → Bool) (f : α → α) : Table α where
  docs := t.docs.map fun d => if p d.val then ⟨d.id, f d.val⟩ else d
  nextId := t.nextId
  ascending := by
    rw [List.pairwise_map]
    refine t.ascending.imp fun {a b} h => ?_
    split_ifs <;> exact h
  bounded d hd := by
    obtain ⟨e, he, rfl⟩ := List.mem_map.mp hd
    split_ifs <;> exact t.bounded e he

/-- Keep the documents that meet a test. -/
def keep (t : Table α) (p : Doc α → Bool) : Table α where
  docs := t.docs.filter p
  nextId := t.nextId
  ascending := t.ascending.sublist List.filter_sublist
  bounded d hd := t.bounded d (List.mem_of_mem_filter hd)

def delete (t : Table α) (ids : List ℕ) : Table α := t.keep fun d => decide (d.id ∉ ids)

def get (t : Table α) (i : ℕ) : Option α := (t.docs.find? fun d => d.id = i).map Doc.val

/-- The documents that meet a test, in creation order. -/
def query (t : Table α) (p : α → Bool) : List (Doc α) := t.docs.filter fun d => p d.val

def unique (t : Table α) (p : α → Bool) : Lookup α :=
  match t.query p with
  | [] => .none
  | [d] => .one d
  | _ => .several

def sum (t : Table α) (f : α → ℕ) : ℕ := (t.docs.map fun d => f d.val).sum

variable {t : Table α}

theorem ids_nodup (t : Table α) : (t.docs.map Doc.id).Nodup :=
  List.pairwise_map.mpr (t.ascending.imp fun h => h.ne)

theorem eq_of_id {a b : Doc α} (ha : a ∈ t.docs) (hb : b ∈ t.docs) (h : a.id = b.id) : a = b :=
  List.inj_on_of_nodup_map t.ids_nodup ha hb h

theorem get_eq_some {i : ℕ} {a : α} : t.get i = some a ↔ (⟨i, a⟩ : Doc α) ∈ t.docs := by
  constructor
  · intro h
    obtain ⟨d, hd, rfl⟩ := Option.map_eq_some_iff.mp h
    have hi : d.id = i := by simpa using List.find?_some hd
    exact hi ▸ List.mem_of_find?_eq_some hd
  · intro h
    obtain ⟨d, hd⟩ := Option.isSome_iff_exists.mp
      (List.find?_isSome.mpr ⟨_, h, by simp⟩ : (t.docs.find? fun d => d.id = i).isSome)
    have hi : d.id = i := by simpa using List.find?_some hd
    have he : d = ⟨i, a⟩ := eq_of_id (List.mem_of_find?_eq_some hd) h hi
    simp [get, hd, he]

theorem get_of_mem {d : Doc α} (h : d ∈ t.docs) : t.get d.id = some d.val := get_eq_some.mpr h

theorem mem_query {p : α → Bool} {d : Doc α} :
    d ∈ t.query p ↔ d ∈ t.docs ∧ p d.val = true := List.mem_filter

theorem unique_one {p : α → Bool} {d : Doc α} (h : t.unique p = .one d) : t.query p = [d] := by
  unfold unique at h
  split at h
  · cases h
  · rename_i e he
    cases h
    exact he
  · cases h

theorem unique_none {p : α → Bool} (h : t.unique p = .none) : t.query p = [] := by
  unfold unique at h
  split at h
  · assumption
  · cases h
  · cases h

theorem unique_mem {p : α → Bool} {d : Doc α} (h : t.unique p = .one d) :
    d ∈ t.docs ∧ p d.val = true :=
  mem_query.mp (by rw [unique_one h]; exact List.mem_singleton_self d)

theorem get_of_unique {p : α → Bool} {d : Doc α} (h : t.unique p = .one d) :
    t.get d.id = some d.val := get_of_mem (unique_mem h).1

theorem get_nextId : t.get t.nextId = none := by
  cases h : t.get t.nextId with
  | none => rfl
  | some a => exact absurd (t.bounded _ (get_eq_some.mp h)) (lt_irrefl _)

theorem get_insert_self (a : α) : (t.insert a).get t.nextId = some a :=
  get_eq_some.mpr (List.mem_append_right _ (List.mem_singleton_self _))

theorem get_insert_of_ne {i : ℕ} (a : α) (h : i ≠ t.nextId) : (t.insert a).get i = t.get i := by
  unfold get insert
  rw [List.find?_append]
  simp [Ne.symm h]

theorem get_insert_of_some {i : ℕ} {a b : α} (h : t.get i = some b) :
    (t.insert a).get i = some b := by
  rw [get_insert_of_ne a (fun he => by rw [he, get_nextId] at h; cases h), h]

theorem get_patch (i j : ℕ) (f : α → α) :
    (t.patch i f).get j = if j = i then (t.get j).map f else t.get j := by
  unfold get patch
  rw [List.find?_map]
  have hp : ((fun d : Doc α => decide (d.id = j)) ∘
      fun d => if d.id = i then ⟨d.id, f d.val⟩ else d) = fun d => decide (d.id = j) := by
    funext d
    by_cases hd : d.id = i <;> simp [hd]
  rw [hp]
  cases h : t.docs.find? fun d => decide (d.id = j) with
  | none => simp
  | some d =>
    have hj : d.id = j := by simpa using List.find?_some h
    by_cases hi : j = i <;> simp [hj, hi]

theorem get_patch_self {i : ℕ} (f : α → α) : (t.patch i f).get i = (t.get i).map f := by
  rw [get_patch, if_pos rfl]

theorem get_patch_of_ne {i j : ℕ} (f : α → α) (h : j ≠ i) : (t.patch i f).get j = t.get j := by
  rw [get_patch, if_neg h]

theorem get_patchAll (p : α → Bool) (f : α → α) (j : ℕ) :
    (t.patchAll p f).get j = (t.get j).map fun a => if p a then f a else a := by
  unfold get patchAll
  rw [List.find?_map]
  have hp : ((fun d : Doc α => decide (d.id = j)) ∘
      fun d => if p d.val then ⟨d.id, f d.val⟩ else d) = fun d => decide (d.id = j) := by
    funext d
    by_cases hd : p d.val = true <;> simp [hd]
  rw [hp]
  cases t.docs.find? fun d => decide (d.id = j) with
  | none => rfl
  | some d => by_cases hd : p d.val = true <;> simp [hd]

/-! ### Tables that agree on a test -/

/-- Tables that agree on the documents meeting a test agree on any narrower one. -/
theorem query_congr {u : Table α} {p q : α → Bool} (h : t.query p = u.query p)
    (ht : ∀ d ∈ t.docs, q d.val = true → p d.val = true)
    (hu : ∀ d ∈ u.docs, q d.val = true → p d.val = true) : t.query q = u.query q := by
  have hnarrow : ∀ v : Table α, (∀ d ∈ v.docs, q d.val = true → p d.val = true) →
      v.query q = (v.query p).filter fun d => q d.val := by
    intro v hv
    simp only [query, List.filter_filter]
    refine List.filter_congr fun d hd => ?_
    cases hq : q d.val with
    | false => rfl
    | true => rw [hv d hd hq, Bool.and_self]
  rw [hnarrow t ht, hnarrow u hu, h]

theorem filter_get_eq_some {p : α → Bool} {i : ℕ} {a : α} :
    (t.get i).filter p = some a ↔ (⟨i, a⟩ : Doc α) ∈ t.query p := by
  rw [Option.filter_eq_some_iff, get_eq_some, mem_query]

theorem filter_get_congr {u : Table α} {p : α → Bool} (h : t.query p = u.query p) (i : ℕ) :
    (t.get i).filter p = (u.get i).filter p := by
  ext a
  rw [filter_get_eq_some, filter_get_eq_some, h]

theorem unique_congr {u : Table α} {p : α → Bool} (h : t.query p = u.query p) :
    t.unique p = u.unique p := by
  unfold unique
  rw [h]

/-! ### Equal tables -/

theorem ext {u : Table α} (hdocs : t.docs = u.docs) (hnext : t.nextId = u.nextId) : t = u := by
  cases t
  cases u
  congr

theorem query_insert (p : α → Bool) (a : α) :
    (t.insert a).query p = t.query p ++ if p a then [⟨t.nextId, a⟩] else [] := by
  simp only [query, insert, List.filter_append, List.filter_cons, List.filter_nil]

theorem query_patch {p : α → Bool} {f : α → α} (h : ∀ a, p (f a) = p a) (i : ℕ) :
    (t.patch i f).query p =
      (t.query p).map fun d => if d.id = i then ⟨d.id, f d.val⟩ else d := by
  simp only [query, patch, List.filter_map]
  congr 1
  refine List.filter_congr fun d _ => ?_
  by_cases hd : d.id = i <;> simp [hd, h]

theorem query_insert_of_not {p : α → Bool} {a : α} (h : p a = false) :
    (t.insert a).query p = t.query p := by
  rw [query_insert, h]
  exact List.append_nil _

theorem query_patch_of_not {p : α → Bool} {f : α → α} {i : ℕ}
    (h : ∀ a, t.get i = some a → p a = false ∧ p (f a) = false) :
    (t.patch i f).query p = t.query p := by
  have hdocs : ∀ l : List (Doc α), (∀ d ∈ l, d ∈ t.docs) →
      (l.map fun d => if d.id = i then (⟨d.id, f d.val⟩ : Doc α) else d).filter (fun d => p d.val) =
        l.filter fun d => p d.val := by
    intro l hl
    induction l with
    | nil => rfl
    | cons d l ih =>
      have hrest := ih fun e he => hl e (List.mem_cons_of_mem _ he)
      by_cases hi : d.id = i
      · obtain ⟨hold, hnew⟩ := h d.val (hi ▸ get_of_mem (hl d (List.mem_cons_self ..)))
        simp only [List.map_cons, if_pos hi, List.filter_cons, hold, hnew, hrest,
          Bool.false_eq_true, if_false]
      · simp only [List.map_cons, if_neg hi, List.filter_cons, hrest]
  exact hdocs t.docs fun d hd => hd

theorem query_keep {p : α → Bool} {q : Doc α → Bool}
    (h : ∀ d ∈ t.docs, p d.val = true → q d = true) : (t.keep q).query p = t.query p := by
  simp only [query, keep, List.filter_filter]
  refine List.filter_congr fun d hd => ?_
  cases hp : p d.val with
  | false => rfl
  | true => rw [h d hd hp, Bool.and_self]

theorem query_eq_singleton {p : α → Bool} {i : ℕ} {a : α} (h : t.get i = some a)
    (ha : p a = true) (halone : ∀ j b, t.get j = some b → p b = true → j = i) :
    t.query p = [⟨i, a⟩] := by
  have hmem : (⟨i, a⟩ : Doc α) ∈ t.query p := mem_query.mpr ⟨get_eq_some.mp h, ha⟩
  have hsame : ∀ d ∈ t.query p, d = ⟨i, a⟩ := by
    intro d hd
    obtain ⟨hdocs, hp⟩ := mem_query.mp hd
    exact eq_of_id hdocs (get_eq_some.mp h) (halone d.id d.val (get_of_mem hdocs) hp)
  have hnodup : (t.query p).Nodup := (t.ids_nodup.of_map _).filter _
  rw [List.eq_replicate_of_mem hsame] at hmem hnodup ⊢
  have hone := List.nodup_replicate.mp hnodup
  have hpos : (t.query p).length ≠ 0 := fun hzero => by simp [hzero] at hmem
  rw [show (t.query p).length = 1 by omega]
  rfl

theorem unique_eq_one {p : α → Bool} {d : Doc α} : t.unique p = .one d ↔ t.query p = [d] := by
  refine ⟨unique_one, fun h => ?_⟩
  rw [unique, h]

theorem unique_eq_none {p : α → Bool} : t.unique p = .none ↔ t.query p = [] := by
  refine ⟨unique_none, fun h => ?_⟩
  rw [unique, h]

theorem unique_eq_several {p : α → Bool} : t.unique p = .several ↔ 1 < (t.query p).length := by
  unfold unique
  rcases t.query p with _ | ⟨d, _ | ⟨e, l⟩⟩ <;> simp

theorem patch_patch (i : ℕ) (f g : α → α) :
    (t.patch i f).patch i g = t.patch i fun a => g (f a) := by
  refine ext ?_ rfl
  simp only [patch, List.map_map]
  refine List.map_congr_left fun d _ => ?_
  by_cases hd : d.id = i <;> simp [hd]

theorem patch_comm {i j : ℕ} (h : i ≠ j) (f g : α → α) :
    (t.patch i f).patch j g = (t.patch j g).patch i f := by
  refine ext ?_ rfl
  simp only [patch, List.map_map]
  refine List.map_congr_left fun d _ => ?_
  by_cases hi : d.id = i
  · simp [hi, h]
  · by_cases hj : d.id = j <;> simp [hi, hj, h.symm]

theorem patch_congr {i : ℕ} {f g : α → α} (h : ∀ a, t.get i = some a → f a = g a) :
    t.patch i f = t.patch i g := by
  refine ext ?_ rfl
  refine List.map_congr_left fun d hd => ?_
  by_cases hi : d.id = i
  · simp only [hi, if_true]
    rw [h d.val (hi ▸ get_of_mem hd)]
  · simp [hi]

theorem patch_insert {i : ℕ} (h : i ≠ t.nextId) (a : α) (f : α → α) :
    (t.insert a).patch i f = (t.patch i f).insert a := by
  refine ext ?_ rfl
  simp [patch, insert, h.symm]

/-- Patching a document just inserted inserts the patched one. -/
theorem patch_insert_self (a : α) (f : α → α) :
    (t.insert a).patch t.nextId f = t.insert (f a) := by
  refine ext ?_ rfl
  have hold : t.docs.map (fun d => if d.id = t.nextId then (⟨d.id, f d.val⟩ : Doc α) else d) =
      t.docs :=
    (List.map_congr_left fun d hd => if_neg (t.bounded d hd).ne).trans (List.map_id' _)
  simp [patch, insert, hold]

@[simp] theorem sum_empty (f : α → ℕ) : (empty : Table α).sum f = 0 := rfl

@[simp] theorem sum_insert (a : α) (f : α → ℕ) : (t.insert a).sum f = t.sum f + f a := by
  simp [sum, insert]

private theorem sum_patch_docs (l : List (Doc α)) (hl : l.Pairwise fun a b => a.id < b.id)
    (d : Doc α) (hd : d ∈ l) (g : α → α) (f : α → ℕ) :
    ((l.map fun e => if e.id = d.id then (⟨e.id, g e.val⟩ : Doc α) else e).map
      fun e => f e.val).sum + f d.val = (l.map fun e => f e.val).sum + f (g d.val) := by
  induction l with
  | nil => simp at hd
  | cons e l ih =>
    obtain ⟨he, hl⟩ := List.pairwise_cons.mp hl
    rcases List.mem_cons.mp hd with rfl | hd
    · have hrest : l.map (fun e => if e.id = d.id then (⟨e.id, g e.val⟩ : Doc α) else e) = l :=
        (List.map_congr_left fun x hx => if_neg (he x hx).ne').trans (List.map_id' l)
      simp only [List.map_cons, hrest, if_true, List.sum_cons]
      omega
    · have hne : e.id ≠ d.id := (he d hd).ne
      have hh := ih hl hd
      simp only [List.map_cons, hne, if_false, List.sum_cons] at hh ⊢
      omega

theorem sum_patch {i : ℕ} {a : α} (h : t.get i = some a) (g : α → α) (f : α → ℕ) :
    (t.patch i g).sum f + f a = t.sum f + f (g a) :=
  sum_patch_docs t.docs t.ascending ⟨i, a⟩ (get_eq_some.mp h) g f

theorem sum_keep_le (p : Doc α → Bool) (f : α → ℕ) : (t.keep p).sum f ≤ t.sum f :=
  (List.filter_sublist.map _).sum_le_sum fun _ _ => Nat.zero_le _

private theorem sum_filter_add_le (l : List (Doc α)) {p : Doc α → Bool} {f : α → ℕ} {d : Doc α}
    (hd : d ∈ l) (hp : p d = false) :
    ((l.filter p).map fun d => f d.val).sum + f d.val ≤ (l.map fun d => f d.val).sum := by
  induction l with
  | nil => cases hd
  | cons e l ih =>
    have hle : ((l.filter p).map fun d => f d.val).sum ≤ (l.map fun d => f d.val).sum :=
      (List.filter_sublist.map _).sum_le_sum fun _ _ => Nat.zero_le _
    rcases List.mem_cons.mp hd with rfl | hd
    · simp only [List.filter_cons, hp, Bool.false_eq_true, if_false, List.map_cons, List.sum_cons]
      omega
    · have hrest := ih hd
      cases hpe : p e <;>
        simp only [List.filter_cons, hpe, Bool.false_eq_true, if_false, if_true, List.map_cons,
          List.sum_cons] <;> omega

/-- A document that is not kept takes its weight away. -/
theorem sum_keep_add_le {p : Doc α → Bool} {f : α → ℕ} {d : Doc α} (hd : d ∈ t.docs)
    (hp : p d = false) : (t.keep p).sum f + f d.val ≤ t.sum f :=
  sum_filter_add_le t.docs hd hp

private theorem sum_filter_docs (l : List (Doc α)) {p : Doc α → Bool} {f : α → ℕ}
    (h : ∀ d ∈ l, p d = false → f d.val = 0) :
    ((l.filter p).map fun d => f d.val).sum = (l.map fun d => f d.val).sum := by
  induction l with
  | nil => rfl
  | cons d l ih =>
    have hrest := ih fun e he => h e (List.mem_cons_of_mem _ he)
    cases hp : p d with
    | true => simp [hp, hrest]
    | false => simp [hp, hrest, h d (by simp) hp]

theorem sum_keep_eq {p : Doc α → Bool} {f : α → ℕ} (h : ∀ d ∈ t.docs, p d = false → f d.val = 0) :
    (t.keep p).sum f = t.sum f := sum_filter_docs t.docs h

theorem sum_eq_zero {f : α → ℕ} (h : ∀ d ∈ t.docs, f d.val = 0) : t.sum f = 0 := by
  unfold sum
  exact List.sum_eq_zero fun x hx => by
    obtain ⟨d, hd, rfl⟩ := List.mem_map.mp hx
    exact h d hd

theorem sum_query (p : α → Bool) (f : α → ℕ) :
    t.sum (fun a => if p a then f a else 0) = ((t.query p).map fun d => f d.val).sum := by
  unfold sum query
  generalize t.docs = l
  induction l with
  | nil => rfl
  | cons d l ih => cases h : p d.val <;> simp [h, ih]

/-- What a lookup by a key found is the whole weight under that key. -/
theorem sum_of_unique_one {p : α → Bool} {d : Doc α} (h : t.unique p = .one d) (f : α → ℕ) :
    t.sum (fun a => if p a then f a else 0) = f d.val := by
  rw [sum_query, unique_one h]
  simp

theorem sum_of_unique_none {p : α → Bool} (h : t.unique p = .none) (f : α → ℕ) :
    t.sum (fun a => if p a then f a else 0) = 0 := by
  rw [sum_query, unique_none h]
  rfl

/-- The documents of `t`, each rewritten in place by `f`. -/
structure Rewritten (f : ℕ → α → α) (t t' : Table α) : Prop where
  docs : t'.docs = t.docs.map fun d => ⟨d.id, f d.id d.val⟩
  nextId : t'.nextId = t.nextId

theorem Rewritten.refl (t : Table α) : Rewritten (fun _ a => a) t t :=
  ⟨(List.map_id' t.docs).symm, rfl⟩

theorem Rewritten.patch (t : Table α) (i : ℕ) (f : α → α) :
    Rewritten (fun j a => if j = i then f a else a) t (t.patch i f) := by
  refine ⟨List.map_congr_left fun d _ => ?_, rfl⟩
  split_ifs <;> rfl

theorem Rewritten.patchAll (t : Table α) (p : α → Bool) (f : α → α) :
    Rewritten (fun _ a => if p a then f a else a) t (t.patchAll p f) := by
  refine ⟨List.map_congr_left fun d _ => ?_, rfl⟩
  split_ifs <;> rfl

theorem Rewritten.trans {f g : ℕ → α → α} {t u v : Table α} (hf : Rewritten f t u)
    (hg : Rewritten g u v) : Rewritten (fun i a => g i (f i a)) t v := by
  refine ⟨?_, hg.nextId.trans hf.nextId⟩
  rw [hg.docs, hf.docs, List.map_map]
  rfl

theorem Rewritten.get {f : ℕ → α → α} {t t' : Table α} (h : Rewritten f t t') (i : ℕ) :
    t'.get i = (t.get i).map (f i) := by
  unfold Table.get
  rw [h.docs, List.find?_map]
  have hp : (fun d : Doc α => decide (d.id = i)) ∘ (fun d : Doc α => ⟨d.id, f d.id d.val⟩) =
      fun d : Doc α => decide (d.id = i) := rfl
  rw [hp]
  cases hd : t.docs.find? fun d => decide (d.id = i) with
  | none => rfl
  | some d =>
    have hi : d.id = i := by simpa using List.find?_some hd
    simp [hi]

theorem Rewritten.sum {f : ℕ → α → α} {t t' : Table α} (h : Rewritten f t t') {g : α → ℕ}
    (hg : ∀ i a, g (f i a) = g a) : t'.sum g = t.sum g := by
  unfold Table.sum
  rw [h.docs, List.map_map]
  congr 1
  exact List.map_congr_left fun d _ => hg d.id d.val

/-- Rewriting in place makes no document meet a test that it did not meet before. -/
theorem Rewritten.query_length_le {f : ℕ → α → α} {t t' : Table α} (h : Rewritten f t t')
    {p : α → Bool} (hp : ∀ i a, p (f i a) = true → p a = true) :
    (t'.query p).length ≤ (t.query p).length := by
  unfold Table.query
  rw [h.docs, List.filter_map, List.length_map]
  exact (List.monotone_filter_right t.docs fun d hd => hp d.id d.val hd).length_le

theorem query_insert_length_le (p : α → Bool) (a : α) :
    ((t.insert a).query p).length ≤ (t.query p).length + 1 := by
  rw [query_insert, List.length_append]
  split_ifs <;> simp

theorem docs_nodup (t : Table α) : t.docs.Nodup := t.ids_nodup.of_map _

theorem le_sum_of_mem {d : Doc α} (hd : d ∈ t.docs) (f : α → ℕ) : f d.val ≤ t.sum f :=
  List.single_le_sum (by simp) _ (List.mem_map_of_mem hd)

theorem sum_pos_of_mem {d : Doc α} (hd : d ∈ t.docs) {f : α → ℕ} (hf : 0 < f d.val) :
    0 < t.sum f := lt_of_lt_of_le hf (le_sum_of_mem hd f)

end Table

/-- The first `n` elements of a strictly sorted list are those with fewer than `n` elements
before them. -/
theorem mem_take_iff_rank {α : Type*} {before : α → α → Bool} {l : List α}
    (hl : l.Pairwise fun a b => before a b = true)
    (hasymm : ∀ a b, before a b = true → before b a = false) {x : α} {n : ℕ} :
    x ∈ l.take n ↔ x ∈ l ∧ (l.filter fun y => before y x).length < n := by
  have hirr : ∀ a, before a a = false := by
    intro a
    by_contra h
    have ht : before a a = true := by simpa using h
    exact h (hasymm a a ht)
  induction l generalizing n with
  | nil => simp
  | cons a l ih =>
    obtain ⟨ha, hl⟩ := List.pairwise_cons.mp hl
    cases n with
    | zero => simp
    | succ n =>
      have hrest : x ∈ l.take n ↔ x ∈ l ∧ (l.filter fun y => before y x).length < n := ih hl
      rw [List.take_succ_cons, List.mem_cons, hrest, List.mem_cons]
      constructor
      · rintro (rfl | ⟨hx, hn⟩)
        · refine ⟨Or.inl rfl, ?_⟩
          have hnone : (x :: l).filter (fun y => before y x) = [] := by
            rw [List.filter_eq_nil_iff]
            intro y hy
            rcases List.mem_cons.mp hy with rfl | hy
            · simp [hirr]
            · simp [hasymm x y (ha y hy)]
          rw [hnone]
          exact Nat.succ_pos n
        · refine ⟨Or.inr hx, ?_⟩
          rw [List.filter_cons_of_pos (by simpa using ha x hx), List.length_cons]
          omega
      · rintro ⟨rfl | hx, hn⟩
        · exact Or.inl rfl
        · refine Or.inr ⟨hx, ?_⟩
          rw [List.filter_cons_of_pos (by simpa using ha x hx), List.length_cons] at hn
          omega

end Docs
