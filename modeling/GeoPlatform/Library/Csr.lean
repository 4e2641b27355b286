import GeoPlatform.Library.Loops
import Mathlib.Data.List.GetD
import Mathlib.Tactic

/-! Compressed rows built by a counting sort: keyed items are counted, the counts are summed
into offsets, and every item goes to the next free slot of its key's row. -/
namespace Csr
variable {α : Type*}

/-! ### Construction -/

/-- `xs[i] += d`. -/
def addAt (xs : List ℕ) (i d : ℕ) : List ℕ := xs.set i (xs.getD i 0 + d)

/-- The number of items with key `k`, at position `k + 1`. -/
def degrees (n : ℕ) (ends : List (ℕ × α)) : List ℕ :=
  ends.foldl (fun degree e => addAt degree (e.1 + 1) 1) (List.replicate (n + 1) 0)

def prefixSums (n : ℕ) (degree : List ℕ) : List ℕ :=
  (List.range' 1 n).foldl (fun d i => addAt d i (d.getD (i - 1) 0)) degree

structure Filling (α : Type*) where
  cursor : List ℕ
  items : List α

def Filling.place (f : Filling α) (e : ℕ × α) : Filling α where
  cursor := addAt f.cursor e.1 1
  items := f.items.set (f.cursor.getD e.1 0) e.2

structure Rows (α : Type*) where
  offsets : List ℕ
  items : List α

def build (zero : α) (n : ℕ) (ends : List (ℕ × α)) : Rows α :=
  let offsets := prefixSums n (degrees n ends)
  let filled := ends.foldl Filling.place
    ⟨offsets.take n, List.replicate (offsets.getD n 0) zero⟩
  ⟨offsets, filled.items⟩

/-- The items in the slots from `offsets[k]` to `offsets[k + 1]`. -/
def Rows.row (r : Rows α) (zero : α) (k : ℕ) : List α :=
  (List.range' (r.offsets.getD k 0) (r.offsets.getD (k + 1) 0 - r.offsets.getD k 0)).map
    fun slot => r.items.getD slot zero

/-! ### What the rows should hold -/

def rowItems (ends : List (ℕ × α)) (k : ℕ) : List α := (ends.filter (·.1 = k)).map Prod.snd

/-- The number of items with a smaller key. -/
def start (ends : List (ℕ × α)) (k : ℕ) : ℕ := ends.countP (·.1 < k)

theorem mem_rowItems {ends : List (ℕ × α)} {k : ℕ} {x : α} :
    x ∈ rowItems ends k ↔ (k, x) ∈ ends := by
  simp [rowItems]

theorem rowItems_append (p q : List (ℕ × α)) (k : ℕ) :
    rowItems (p ++ q) k = rowItems p k ++ rowItems q k := by
  simp [rowItems]

theorem rowItems_cons (e : ℕ × α) (q : List (ℕ × α)) (k : ℕ) :
    rowItems (e :: q) k = if e.1 = k then e.2 :: rowItems q k else rowItems q k := by
  by_cases h : e.1 = k <;> simp [rowItems, h]

theorem start_zero (ends : List (ℕ × α)) : start ends 0 = 0 := by
  simp [start]

theorem start_succ (ends : List (ℕ × α)) (k : ℕ) :
    start ends (k + 1) = start ends k + (rowItems ends k).length := by
  induction ends with
  | nil => rfl
  | cons e ends ih =>
    rw [rowItems_cons]
    simp only [start, List.countP_cons, decide_eq_true_eq] at ih ⊢
    rcases Nat.lt_trichotomy e.1 k with h | h | h
    · rw [if_pos (by omega), if_pos h, if_neg (by omega)]
      omega
    · rw [if_pos (by omega), if_neg (by omega), if_pos h, List.length_cons]
      omega
    · rw [if_neg (by omega), if_neg (by omega), if_neg (by omega)]
      omega

theorem start_mono (ends : List (ℕ × α)) {j k : ℕ} (h : j ≤ k) : start ends j ≤ start ends k := by
  induction k, h using Nat.le_induction with
  | base => exact le_rfl
  | succ k _ ih =>
    rw [start_succ]
    omega

/-! ### Offsets -/

@[simp] theorem length_addAt (xs : List ℕ) (i d : ℕ) : (addAt xs i d).length = xs.length :=
  List.length_set ..

theorem getD_addAt {xs : List ℕ} {i : ℕ} (d j : ℕ) (hi : i < xs.length) :
    (addAt xs i d).getD j 0 = if j = i then xs.getD j 0 + d else xs.getD j 0 := by
  by_cases h : j = i
  · subst h
    simp [addAt, hi]
  · simp [addAt, Ne.symm h, h]

theorem foldl_addAt {n : ℕ} (ends : List (ℕ × α)) (hends : ∀ e ∈ ends, e.1 < n) (xs : List ℕ)
    (hlen : xs.length = n + 1) :
    (ends.foldl (fun degree e => addAt degree (e.1 + 1) 1) xs).length = n + 1 ∧
    ∀ j, (ends.foldl (fun degree e => addAt degree (e.1 + 1) 1) xs).getD j 0 =
      xs.getD j 0 + ends.countP (·.1 + 1 = j) := by
  induction ends generalizing xs with
  | nil => exact ⟨hlen, fun j => rfl⟩
  | cons e ends ih =>
    have hkey := hends e (List.mem_cons_self ..)
    obtain ⟨hlength, hget⟩ := ih (fun e' he' => hends e' (List.mem_cons_of_mem _ he'))
      (addAt xs (e.1 + 1) 1) (by simpa using hlen)
    refine ⟨hlength, fun j => ?_⟩
    have hj := hget j
    rw [getD_addAt 1 j (by omega)] at hj
    simp only [List.foldl_cons, List.countP_cons, decide_eq_true_eq]
    by_cases h : j = e.1 + 1
    · rw [hj, if_pos h, if_pos h.symm]
      omega
    · rw [hj, if_neg h, if_neg (Ne.symm h)]
      omega

theorem degrees_spec {n : ℕ} {ends : List (ℕ × α)} (hends : ∀ e ∈ ends, e.1 < n) :
    (degrees n ends).length = n + 1 ∧ (degrees n ends).getD 0 0 = 0 ∧
      ∀ k, (degrees n ends).getD (k + 1) 0 = (rowItems ends k).length := by
  obtain ⟨hlen, hget⟩ := foldl_addAt ends hends (List.replicate (n + 1) 0) (by simp)
  have hzero (j : ℕ) : (List.replicate (n + 1) 0).getD j 0 = 0 := by
    by_cases hj : j < n + 1 <;> simp [hj]
  refine ⟨hlen, ?_, fun k => ?_⟩
  · rw [degrees, hget, hzero]
    simp
  · rw [degrees, hget, hzero]
    simp [rowItems, List.countP_eq_length_filter]

/-- Summing in place: after round `i` the entries up to `i` are prefix sums. -/
theorem prefixSums_spec {n : ℕ} {d : List ℕ} {s : ℕ → ℕ} (hlen : d.length = n + 1)
    (h0 : d.getD 0 0 = s 0) (hs : ∀ k, s (k + 1) = s k + d.getD (k + 1) 0) :
    (prefixSums n d).length = n + 1 ∧ ∀ j ≤ n, (prefixSums n d).getD j 0 = s j := by
  have hround : ∀ m ≤ n, (prefixSums m d).length = n + 1 ∧
      ∀ j, (prefixSums m d).getD j 0 = if j ≤ m then s j else d.getD j 0 := by
    intro m
    induction m with
    | zero =>
      intro _
      refine ⟨hlen, fun j => ?_⟩
      by_cases hj : j = 0
      · rw [hj, if_pos le_rfl]
        exact h0
      · rw [if_neg (by omega)]
        rfl
    | succ m ih =>
      intro hm
      obtain ⟨hlength, hget⟩ := ih (by omega)
      have hlast : prefixSums (m + 1) d =
          addAt (prefixSums m d) (1 + m) ((prefixSums m d).getD (1 + m - 1) 0) := by
        simp [prefixSums, List.range'_1_concat]
      rw [hlast, show 1 + m - 1 = m by omega]
      refine ⟨by simpa using hlength, fun j => ?_⟩
      rw [getD_addAt _ _ (by omega), hget j, hget m, if_pos le_rfl]
      by_cases hj : j = 1 + m
      · subst hj
        rw [if_pos rfl, if_neg (by omega), if_pos (by omega), show 1 + m = m + 1 by omega, hs m]
        omega
      · rw [if_neg hj]
        by_cases hjm : j ≤ m
        · rw [if_pos hjm, if_pos (by omega)]
        · rw [if_neg hjm, if_neg (by omega)]
  obtain ⟨hlength, hget⟩ := hround n le_rfl
  refine ⟨hlength, fun j hj => ?_⟩
  rw [hget, if_pos hj]

theorem offsets_spec {n : ℕ} {ends : List (ℕ × α)} (hends : ∀ e ∈ ends, e.1 < n) :
    (prefixSums n (degrees n ends)).length = n + 1 ∧
      ∀ k ≤ n, (prefixSums n (degrees n ends)).getD k 0 = start ends k := by
  obtain ⟨hlen, hzero, hdegree⟩ := degrees_spec hends
  apply prefixSums_spec hlen
  · rw [hzero, start_zero]
  · intro k
    rw [start_succ, hdegree]

/-! ### Filling -/

/-- The prefix `p` of `ends` has been put in place. -/
structure Placed (n : ℕ) (ends p : List (ℕ × α)) (f : Filling α) : Prop where
  cursor_length : f.cursor.length = n
  items_length : f.items.length = start ends n
  cursor : ∀ k < n, f.cursor.getD k 0 = start ends k + (rowItems p k).length
  items : ∀ k < n, ∀ i x, (rowItems p k)[i]? = some x → f.items[start ends k + i]? = some x

/-- A row's slots lie before those of the rows after it. -/
theorem slot_lt {ends p q : List (ℕ × α)} (hends : ends = p ++ q) {j k i : ℕ} (hjk : j < k)
    (hi : i < (rowItems p j).length) : start ends j + i < start ends k := by
  have hrow : (rowItems ends j).length = (rowItems p j).length + (rowItems q j).length := by
    rw [hends, rowItems_append, List.length_append]
  have hnext := start_succ ends j
  have hmono := start_mono ends (show j + 1 ≤ k by omega)
  omega

theorem placed_place {n : ℕ} {ends p q : List (ℕ × α)} {f : Filling α} {e : ℕ × α}
    (hends : ends = p ++ e :: q) (hkey : e.1 < n) (h : Placed n ends p f) :
    Placed n ends (p ++ [e]) (f.place e) := by
  have hends' : ends = (p ++ [e]) ++ q := by
    simp [hends]
  have hrow (k : ℕ) : rowItems (p ++ [e]) k =
      rowItems p k ++ if e.1 = k then [e.2] else [] := by
    rw [rowItems_append, rowItems_cons]
    rfl
  have hslot := h.cursor e.1 hkey
  have hbound : start ends e.1 + (rowItems p e.1).length < f.items.length := by
    rw [h.items_length]
    apply slot_lt hends' hkey
    simp [hrow]
  refine ⟨by simpa [Filling.place] using h.cursor_length,
    by simpa [Filling.place] using h.items_length, fun k hk => ?_, fun k hk i x hx => ?_⟩
  · simp only [Filling.place]
    rw [getD_addAt _ _ (by rw [h.cursor_length]; exact hkey), h.cursor k hk, hrow]
    by_cases hek : e.1 = k
    · simp [hek, Nat.add_assoc]
    · simp [hek, Ne.symm hek]
  · simp only [Filling.place, hslot]
    have hi : i < (rowItems (p ++ [e]) k).length := (List.getElem?_eq_some_iff.mp hx).1
    rw [hrow] at hx
    by_cases hek : e.1 = k
    · subst hek
      rw [if_pos rfl] at hx
      rcases Nat.lt_trichotomy i (rowItems p e.1).length with hlt | heq | hgt
      · rw [List.getElem?_append_left hlt] at hx
        rw [List.getElem?_set_ne (by omega)]
        exact h.items e.1 hk i x hx
      · subst heq
        simp only [List.getElem?_concat_length, Option.some.injEq] at hx
        rw [List.getElem?_set_self hbound, hx]
      · simp [hrow] at hi
        omega
    · have hdisjoint : start ends e.1 + (rowItems p e.1).length ≠ start ends k + i := by
        rcases Nat.lt_or_gt_of_ne hek with hlt | hgt
        · have := slot_lt hends' (i := (rowItems p e.1).length) hlt (by simp [hrow])
          omega
        · have := slot_lt hends' hgt hi
          have := start_mono ends (show k ≤ e.1 by omega)
          omega
      rw [if_neg hek, List.append_nil] at hx
      rw [List.getElem?_set_ne hdisjoint]
      exact h.items k hk i x hx

theorem placed_foldl {n : ℕ} {ends p q : List (ℕ × α)} {f : Filling α} (hends : ends = p ++ q)
    (hkeys : ∀ e ∈ q, e.1 < n) (h : Placed n ends p f) :
    Placed n ends ends (q.foldl Filling.place f) := by
  induction q generalizing p f with
  | nil =>
    rw [List.append_nil] at hends
    simpa [hends] using h
  | cons e q ih =>
    apply ih (by simp [hends] : ends = (p ++ [e]) ++ q)
    · exact fun e' he' => hkeys e' (List.mem_cons_of_mem _ he')
    · exact placed_place hends (hkeys e (List.mem_cons_self ..)) h

/-- Before the loop nothing is in place, and every cursor stands at the start of its row. -/
theorem placed_begin (zero : α) {n : ℕ} {ends : List (ℕ × α)} (hends : ∀ e ∈ ends, e.1 < n) :
    Placed n ends [] ⟨(prefixSums n (degrees n ends)).take n,
      List.replicate ((prefixSums n (degrees n ends)).getD n 0) zero⟩ := by
  obtain ⟨hlen, hoffset⟩ := offsets_spec hends
  refine ⟨by simp [hlen], ?_, fun j hj => ?_, fun j _ i x hx => ?_⟩
  · rw [List.length_replicate, hoffset n le_rfl]
  · have := hoffset j (by omega)
    simpa [List.getD_eq_getElem?_getD, List.getElem?_take, hj, rowItems] using this
  · simp [rowItems] at hx

theorem placed_build (zero : α) {n : ℕ} {ends : List (ℕ × α)} (hends : ∀ e ∈ ends, e.1 < n) :
    Placed n ends ends (ends.foldl Filling.place ⟨(prefixSums n (degrees n ends)).take n,
      List.replicate ((prefixSums n (degrees n ends)).getD n 0) zero⟩) :=
  placed_foldl (List.nil_append ends).symm hends (placed_begin zero hends)

/-- Row `k` holds exactly the items with key `k`, in the order in which they came; past the
last key there are no slots. -/
theorem row_build (zero : α) {n : ℕ} {ends : List (ℕ × α)} (hends : ∀ e ∈ ends, e.1 < n)
    (k : ℕ) : (build zero n ends).row zero k = rowItems ends k := by
  obtain ⟨hlen, hoffset⟩ := offsets_spec hends
  by_cases hk : k < n
  swap
  · have hnone : rowItems ends k = [] := by
      apply List.eq_nil_iff_forall_not_mem.mpr
      intro x hx
      exact hk (hends _ (mem_rowItems.mp hx))
    have hend : (prefixSums n (degrees n ends)).getD (k + 1) 0 = 0 :=
      List.getD_eq_default _ _ (by omega)
    rw [hnone, Rows.row, build, hend, Nat.zero_sub]
    rfl
  have hplaced := placed_build zero hends
  have hwidth : start ends (k + 1) - start ends k = (rowItems ends k).length := by
    rw [start_succ]
    omega
  simp only [Rows.row, build, hoffset k (by omega), hoffset (k + 1) (by omega), hwidth]
  apply List.ext_getElem?
  intro i
  by_cases hi : i < (rowItems ends k).length
  · have hitem := hplaced.items k hk i _ (List.getElem?_eq_getElem hi)
    have hslot : (List.range' (start ends k) (rowItems ends k).length)[i]? =
        some (start ends k + i) := by
      simp [hi]
    rw [List.getElem?_map, hslot, Option.map_some, List.getD_eq_getElem?_getD,
      hitem, List.getElem?_eq_getElem hi, Option.getD_some]
  · simp [hi]

/-! ### The rows tile the slots -/

theorem start_of_forall_lt {n : ℕ} {ends : List (ℕ × α)} (hends : ∀ e ∈ ends, e.1 < n) :
    start ends n = ends.length := by
  rw [start, List.countP_eq_length]
  simpa using hends

theorem length_offsets {n : ℕ} {ends : List (ℕ × α)} (hends : ∀ e ∈ ends, e.1 < n) (zero : α) :
    (build zero n ends).offsets.length = n + 1 :=
  (offsets_spec hends).1

theorem offset_build {n : ℕ} {ends : List (ℕ × α)} (hends : ∀ e ∈ ends, e.1 < n) (zero : α)
    {k : ℕ} (hk : k ≤ n) : (build zero n ends).offsets[k]? = some (start ends k) := by
  obtain ⟨hlen, hoffset⟩ := offsets_spec hends
  have hlt : k < (prefixSums n (degrees n ends)).length := by omega
  have hget := hoffset k hk
  rw [List.getD_eq_getElem _ _ hlt] at hget
  rw [build, List.getElem?_eq_getElem hlt, hget]

theorem length_items {n : ℕ} {ends : List (ℕ × α)} (hends : ∀ e ∈ ends, e.1 < n) (zero : α) :
    (build zero n ends).items.length = ends.length := by
  have hplaced := placed_build zero hends
  exact hplaced.items_length.trans (start_of_forall_lt hends)

/-- Every slot lies in the row of one key. -/
theorem exists_row {ends : List (ℕ × α)} {n slot : ℕ} (hslot : slot < start ends n) :
    ∃ k < n, start ends k ≤ slot ∧ slot < start ends (k + 1) := by
  induction n with
  | zero =>
    rw [start_zero] at hslot
    omega
  | succ n ih =>
    by_cases hlt : slot < start ends n
    · obtain ⟨k, hk, hrow⟩ := ih hlt
      exact ⟨k, by omega, hrow⟩
    · exact ⟨n, by omega, by omega, hslot⟩

theorem row_unique {ends : List (ℕ × α)} {j k slot : ℕ} (hj : start ends j ≤ slot)
    (hj' : slot < start ends (j + 1)) (hk : start ends k ≤ slot)
    (hk' : slot < start ends (k + 1)) : j = k := by
  rcases Nat.lt_trichotomy j k with h | h | h
  · have := start_mono ends (show j + 1 ≤ k by omega)
    omega
  · exact h
  · have := start_mono ends (show k + 1 ≤ j by omega)
    omega

/-- The slot lies between `offsets[k]` and `offsets[k + 1]`, and there are these two. -/
def Rows.Holds (r : Rows α) (k slot : ℕ) : Prop :=
  ∃ first last, r.offsets[k]? = some first ∧ r.offsets[k + 1]? = some last ∧
    first ≤ slot ∧ slot < last

theorem holds_iff {n : ℕ} {ends : List (ℕ × α)} (hends : ∀ e ∈ ends, e.1 < n) (zero : α)
    {k slot : ℕ} : (build zero n ends).Holds k slot ↔
      k < n ∧ start ends k ≤ slot ∧ slot < start ends (k + 1) := by
  constructor
  · rintro ⟨first, last, hfirst, hlast, hle, hlt⟩
    have hk : k + 1 < (build zero n ends).offsets.length := (List.getElem?_eq_some_iff.mp hlast).1
    rw [length_offsets hends] at hk
    rw [offset_build hends zero (by omega)] at hfirst hlast
    cases hfirst
    cases hlast
    exact ⟨by omega, hle, hlt⟩
  · rintro ⟨hk, hle, hlt⟩
    exact ⟨_, _, offset_build hends zero (by omega), offset_build hends zero (by omega), hle, hlt⟩

theorem holds_lt {n : ℕ} {ends : List (ℕ × α)} (hends : ∀ e ∈ ends, e.1 < n) (zero : α)
    {k slot : ℕ} (h : (build zero n ends).Holds k slot) :
    slot < (build zero n ends).items.length := by
  obtain ⟨hk, -, hlt⟩ := (holds_iff hends zero).mp h
  have hmono := start_mono ends (show k + 1 ≤ n by omega)
  rw [length_items hends, ← start_of_forall_lt hends]
  omega

/-- The rows of the keys do not overlap, and leave no slot out. -/
theorem exists_unique_holds {n : ℕ} {ends : List (ℕ × α)} (hends : ∀ e ∈ ends, e.1 < n) (zero : α)
    {slot : ℕ} (hslot : slot < (build zero n ends).items.length) :
    ∃! k, k < n ∧ (build zero n ends).Holds k slot := by
  rw [length_items hends, ← start_of_forall_lt hends] at hslot
  obtain ⟨k, hk, hle, hlt⟩ := exists_row hslot
  refine ⟨k, ⟨hk, (holds_iff hends zero).mpr ⟨hk, hle, hlt⟩⟩, fun j ⟨_, hj⟩ => ?_⟩
  obtain ⟨-, hjle, hjlt⟩ := (holds_iff hends zero).mp hj
  exact row_unique hjle hjlt hle hlt

/-! ### Every position exists -/

/-- `xs[i] += d`, where there is such a position. -/
def addAt? (xs : List ℕ) (i d : ℕ) : Option (List ℕ) :=
  if i < xs.length then some (addAt xs i d) else none

def degrees? (n : ℕ) (ends : List (ℕ × α)) : Option (List ℕ) :=
  ends.foldlM (fun degree e => addAt? degree (e.1 + 1) 1) (List.replicate (n + 1) 0)

def prefixSums? (n : ℕ) (degree : List ℕ) : Option (List ℕ) :=
  (List.range' 1 n).foldlM (fun d i => d[i - 1]?.bind (addAt? d i)) degree

def Filling.place? (f : Filling α) (e : ℕ × α) : Option (Filling α) :=
  f.cursor[e.1]?.bind fun slot =>
    if slot < f.items.length then some ⟨addAt f.cursor e.1 1, f.items.set slot e.2⟩ else none

/-- The construction that fails at the first position outside its array. -/
def build? (zero : α) (n : ℕ) (ends : List (ℕ × α)) : Option (Rows α) :=
  ((degrees? n ends).bind (prefixSums? n)).bind fun offsets =>
    offsets[n]?.bind fun total =>
      (ends.foldlM Filling.place? ⟨offsets.take n, List.replicate total zero⟩).map
        fun filled => ⟨offsets, filled.items⟩

theorem addAt?_eq {xs : List ℕ} {i : ℕ} (hi : i < xs.length) (d : ℕ) :
    addAt? xs i d = some (addAt xs i d) := if_pos hi

theorem degrees?_eq {n : ℕ} {ends : List (ℕ × α)} (hends : ∀ e ∈ ends, e.1 < n) :
    degrees? n ends = some (degrees n ends) := by
  refine (Loops.foldlM_eq_some_of_forall (fun degree => degree.length = n + 1) (by simp) ?_).1
  intro degree hlen e he
  have hkey := hends e he
  exact ⟨addAt?_eq (by omega) 1, by simpa using hlen⟩

theorem prefixSums?_eq {n : ℕ} {degree : List ℕ} (hlen : degree.length = n + 1) :
    prefixSums? n degree = some (prefixSums n degree) := by
  refine (Loops.foldlM_eq_some_of_forall (fun d => d.length = n + 1) hlen ?_).1
  intro d hlen i hi
  obtain ⟨hfrom, hto⟩ := List.mem_range'_1.mp hi
  have hbefore : d[i - 1]? = some (d.getD (i - 1) 0) := by
    rw [List.getD_eq_getElem _ _ (by omega), List.getElem?_eq_getElem]
  refine ⟨?_, by simpa using hlen⟩
  rw [hbefore, Option.bind_some, addAt?_eq (by omega)]

/-- The slot under a key's cursor lies in the key's row. -/
theorem place?_eq {n : ℕ} {ends p q : List (ℕ × α)} {f : Filling α} {e : ℕ × α}
    (hends : ends = p ++ e :: q) (hkey : e.1 < n) (h : Placed n ends p f) :
    f.place? e = some (f.place e) := by
  have hends' : ends = (p ++ [e]) ++ q := by
    simp [hends]
  have hslot : start ends e.1 + (rowItems p e.1).length < start ends n := by
    apply slot_lt hends' hkey
    simp [rowItems_append, rowItems_cons]
  have hcursor : f.cursor[e.1]? = some (f.cursor.getD e.1 0) := by
    have hlt : e.1 < f.cursor.length := by
      rw [h.cursor_length]
      exact hkey
    rw [List.getD_eq_getElem _ _ hlt, List.getElem?_eq_getElem]
  have hbound : f.cursor.getD e.1 0 < f.items.length := by
    rw [h.cursor e.1 hkey, h.items_length]
    exact hslot
  rw [Filling.place?, hcursor, Option.bind_some, if_pos hbound, Filling.place]

theorem build?_eq (zero : α) {n : ℕ} {ends : List (ℕ × α)} (hends : ∀ e ∈ ends, e.1 < n) :
    build? zero n ends = some (build zero n ends) := by
  have hlen := (degrees_spec hends).1
  have htotal : (prefixSums n (degrees n ends))[n]? =
      some ((prefixSums n (degrees n ends)).getD n 0) := by
    have hlt : n < (prefixSums n (degrees n ends)).length := by
      rw [(offsets_spec hends).1]
      exact n.lt_succ_self
    rw [List.getD_eq_getElem _ _ hlt, List.getElem?_eq_getElem]
  have hfilled := (Loops.foldlM_eq_some (Placed n ends) (placed_begin zero hends)
    fun p e q f heq hf => ⟨place?_eq heq (hends e (by simp [heq])) hf,
      placed_place heq (hends e (by simp [heq])) hf⟩).1
  rw [build?, degrees?_eq hends, Option.bind_some, prefixSums?_eq hlen, Option.bind_some, htotal,
    Option.bind_some, hfilled, Option.map_some, build]

end Csr
