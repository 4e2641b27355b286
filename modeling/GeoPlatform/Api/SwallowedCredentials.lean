import GeoPlatform.Api.LogRedaction

/-! Which credentials the redaction of log lines hides. A match takes all letters and digits that
follow, so it can take the beginning of the next credential, whose secret part is left then. -/
namespace GeoPlatform.Api
open GeoPlatform.ArcGIS GeoPlatform.Convex Regex

/-! ### Matches of the first pattern -/

def GEO : List Char := "geo_".toList

/-- The marks of the older types, and of playground tokens. -/
def TYPED : List (List Char) := ["live_".toList, "test_".toList, "pt_".toList]

/-- A credential, or a text like one, with all its letters and digits. -/
structure IsMatch (m v : List Char) : Prop where
  shape : ∃ x ∈ [] :: TYPED, ∃ run, m = GEO ++ (x ++ run) ∧
    (∀ c ∈ run, letterOrDigit c = true) ∧ 10 ≤ run.length
  ends : ∀ c ∈ v.head?, letterOrDigit c = false

variable {m v run u t : List Char} {prev : Option Char} {w : Way Char}

theorem takeWhile_run (hrun : ∀ c ∈ run, letterOrDigit c = true)
    (hends : ∀ c ∈ v.head?, letterOrDigit c = false) :
    (run ++ v).takeWhile letterOrDigit = run ∧ (run ++ v).dropWhile letterOrDigit = v := by
  have htake : v.takeWhile letterOrDigit = [] := by
    cases v with
    | nil => rfl
    | cons c v => simp [hends c rfl]
  have hdrop : v.dropWhile letterOrDigit = v := by
    cases v with
    | nil => rfl
    | cons c v => simp [hends c rfl]
  rw [List.takeWhile_append_of_pos hrun, List.dropWhile_append_of_pos hrun, htake, hdrop,
    List.append_nil]
  exact ⟨rfl, rfl⟩

theorem typed_ways (prev : Option Char) (u : List Char) :
    (seq (anyOf ["live", "test", "pt"]) (word "_")).ways prev u =
      (TYPED.filter (· <+: u)).map fun x => ⟨x, none, u.drop x.length⟩ := by
  have hone : ∀ x : List Char, (lit x).ways prev u =
      ([x].filter (· <+: u)).map fun x => ⟨x, none, u.drop x.length⟩ := by
    intro x
    rw [ways_lit]
    by_cases hx : x <+: u <;> simp [hx]
  have hnone : (seq (assert fun _ _ => false) (word "_")).ways prev u = [] := by
    rw [ways_seq, ways_assert]
    rfl
  simp only [anyOf, ways_alt_seq, word, ways_lit_lit, hone] at hnone ⊢
  rw [hnone, List.append_nil, ← List.map_append, ← List.map_append, ← List.filter_append,
    ← List.filter_append]
  rfl

theorem underscore_mem {x : List Char} (hx : x ∈ TYPED) : '_' ∈ x ∧ x.length ≤ 5 := by
  revert x
  decide

/-- Ten letters and digits do not begin with a mark. -/
theorem typed_not_prefix {x : List Char} (hx : x ∈ TYPED)
    (hrun : ∀ c ∈ run, letterOrDigit c = true) (hlen : 10 ≤ run.length) : ¬ x <+: run ++ v := by
  intro h
  obtain ⟨hmem, hshort⟩ := underscore_mem hx
  have hxrun : x <+: run :=
    List.prefix_of_prefix_length_le h (List.prefix_append run v) (by omega)
  have hbad := hrun '_' (hxrun.subset hmem)
  exact absurd hbad (by decide)

theorem filter_typed {x : List Char} (hx : x ∈ TYPED) (v : List Char) :
    TYPED.filter (· <+: x ++ v) = [x] := by
  simp only [TYPED, List.mem_cons, List.not_mem_nil, or_false] at hx
  rcases hx with rfl | rfl | rfl <;> simp [TYPED]

/-- What the pattern takes behind `geo_`. -/
def secretTail : Regex Char :=
  seq (opt (seq (anyOf ["live", "test", "pt"]) (word "_"))) (rep letterOrDigit 10 none)

/-- The longest run that a mark may stand before, if it is long enough. -/
def runWay (a : Way Char) : Option (Way Char) :=
  if 10 ≤ (a.rest.takeWhile letterOrDigit).length then
    some ⟨a.taken ++ a.rest.takeWhile letterOrDigit, a.group, a.rest.dropWhile letterOrDigit⟩
  else none

theorem secretTail_head (prev : Option Char) (u : List Char) :
    (secretTail.ways prev u).head? =
      (((TYPED.filter (· <+: u)).map fun x => Way.mk x none (u.drop x.length)) ++
        [Way.mk [] none u]).findSome? runWay := by
  have hstep : ∀ a : Way Char, (((rep letterOrDigit 10 none).ways (a.taken.getLast?.or prev)
      a.rest).head?).map a.then = runWay a := by
    intro a
    rw [rep_head, runWay]
    split
    · simp [Way.then]
    · rfl
  rw [secretTail, ways_seq_head, opt, ways_alt, typed_ways, empty, ways_assert]
  simp only [hstep, if_true]

theorem runWay_eq_some {a b : Way Char} : runWay a = some b ↔
    ∃ run, a.rest = run ++ b.rest ∧ b.taken = a.taken ++ run ∧ b.group = a.group ∧
      (∀ c ∈ run, letterOrDigit c = true) ∧ 10 ≤ run.length ∧
      ∀ c ∈ b.rest.head?, letterOrDigit c = false := by
  unfold runWay
  constructor
  · intro h
    split at h
    next hlen =>
      cases h
      refine ⟨_, (List.takeWhile_append_dropWhile).symm, rfl, rfl,
        fun c hc => List.mem_takeWhile_imp hc, hlen, ?_⟩
      intro c hc
      exact Bool.eq_false_iff.mpr fun h => absurd h (by
        have hd := List.head?_dropWhile_not letterOrDigit a.rest
        rw [Option.mem_def.mp hc] at hd
        simpa using hd)
    next => cases h
  · rintro ⟨run, hrest, htaken, hgroup, hrun, hlen, hends⟩
    obtain ⟨htake, hdrop⟩ := takeWhile_run hrun hends
    rw [hrest, htake, hdrop, if_pos hlen, ← htaken, ← hgroup]

theorem secretTail_iff {b : Way Char} : (secretTail.ways prev u).head? = some b ↔
    b.group = none ∧ ∃ x ∈ [] :: TYPED, ∃ run, u = x ++ (run ++ b.rest) ∧ b.taken = x ++ run ∧
      (∀ c ∈ run, letterOrDigit c = true) ∧ 10 ≤ run.length ∧
      ∀ c ∈ b.rest.head?, letterOrDigit c = false := by
  rw [secretTail_head]
  constructor
  · intro h
    obtain ⟨a, ha, hb⟩ := List.exists_of_findSome?_eq_some h
    obtain ⟨run, hrest, htaken, hgroup, hrun⟩ := runWay_eq_some.mp hb
    rcases List.mem_append.mp ha with ha | ha
    · obtain ⟨x, hx, rfl⟩ := List.mem_map.mp ha
      obtain ⟨hmem, hfront⟩ := List.mem_filter.mp hx
      obtain ⟨v, rfl⟩ := of_decide_eq_true hfront
      simp only [List.drop_left] at hrest
      exact ⟨hgroup, x, List.mem_cons_of_mem _ hmem, run, by rw [hrest], htaken, hrun⟩
    · rw [List.mem_singleton] at ha
      subst ha
      exact ⟨hgroup, [], List.mem_cons_self .., run, hrest, htaken, hrun⟩
  · rintro ⟨hgroup, x, hx, run, rfl, htaken, hrun, hlen, hends⟩
    rcases List.mem_cons.mp hx with rfl | hx
    · have hnone : TYPED.filter (· <+: [] ++ (run ++ b.rest)) = [] := by
        rw [List.filter_eq_nil_iff]
        intro y hy
        simpa using typed_not_prefix hy hrun hlen
      rw [hnone, List.map_nil, List.nil_append, List.findSome?_singleton]
      exact runWay_eq_some.mpr ⟨run, rfl, htaken, hgroup, hrun, hlen, hends⟩
    · have hway : runWay ⟨x, none, run ++ b.rest⟩ = some b :=
        runWay_eq_some.mpr ⟨run, rfl, htaken, hgroup, hrun, hlen, hends⟩
      rw [filter_typed hx, List.map_singleton, List.drop_left, List.singleton_append,
        List.findSome?_cons, hway]

/-- The pattern matches at a place exactly where a credential, or a text like one, begins. -/
theorem first_iff : CREDENTIALS.pattern.first prev t = some w ↔
    w.group = none ∧ t = w.taken ++ w.rest ∧ IsMatch w.taken w.rest := by
  have hfirst : CREDENTIALS.pattern.first prev t =
      ((seq (lit GEO) secretTail).ways prev t).head? := rfl
  rw [hfirst, ways_seq_head, ways_lit]
  by_cases hgeo : GEO <+: t
  · obtain ⟨u, rfl⟩ := hgeo
    rw [if_pos (List.prefix_append GEO u), List.findSome?_singleton, Option.map_eq_some_iff,
      List.drop_left]
    constructor
    · rintro ⟨b, hb, rfl⟩
      obtain ⟨hgroup, x, hx, run, rfl, htaken, hrun, hlen, hends⟩ := secretTail_iff.mp hb
      refine ⟨?_, ?_, ⟨x, hx, run, congrArg (GEO ++ ·) htaken, hrun, hlen⟩, hends⟩
      · show b.group.or none = none
        rw [hgroup]
        rfl
      · show _ = (GEO ++ b.taken) ++ b.rest
        rw [htaken, List.append_assoc, List.append_assoc]
    · rintro ⟨hgroup, hsplit, ⟨x, hx, run, htaken, hrun, hlen⟩, hends⟩
      rw [htaken, List.append_assoc, List.append_assoc] at hsplit
      refine ⟨⟨x ++ run, none, w.rest⟩, secretTail_iff.mpr
        ⟨rfl, x, hx, run, List.append_cancel_left hsplit, rfl, hrun, hlen, hends⟩, ?_⟩
      cases w
      simp_all [Way.then]
  · rw [if_neg hgeo, List.findSome?_nil]
    refine iff_of_false (Option.some_ne_none w).symm ?_
    rintro ⟨-, rfl, ⟨x, -, run, htaken, -, -⟩, -⟩
    rw [htaken, List.append_assoc] at hgeo
    exact hgeo (List.prefix_append GEO _)

theorem IsMatch.first (h : IsMatch m v) (prev : Option Char) :
    CREDENTIALS.pattern.first prev (m ++ v) = some ⟨m, none, v⟩ :=
  first_iff.mpr ⟨rfl, rfl, h⟩

/-- At one place there is one match at most. -/
theorem IsMatch.unique {m' v' : List Char} (h : IsMatch m v) (h' : IsMatch m' v')
    (heq : m ++ v = m' ++ v') : m = m' ∧ v = v' := by
  have hfirst := h.first none
  rw [heq, h'.first none] at hfirst
  cases hfirst
  exact ⟨rfl, rfl⟩

/-! ### Swallowed beginnings -/

/-- A `geo_` behind this text starts no match, because its letters belong to the match before. -/
def Swallowed (y : List Char) : Prop :=
  ∃ z x r, ∃ _ : y = z ++ (GEO ++ (x ++ r)), x ∈ [] :: TYPED ∧
    (∀ c ∈ r, letterOrDigit c = true) ∧ 7 ≤ r.length ∧ ¬ Swallowed z
termination_by y.length
decreasing_by
  subst_vars
  simp only [List.length_append]
  have hlen : GEO.length = 4 := by decide
  omega

/-- Letters and digits that follow on this text, ten or more, belong to a match. -/
def Covered (u : List Char) : Prop :=
  ∃ z x r, u = z ++ (GEO ++ (x ++ r)) ∧ x ∈ [] :: TYPED ∧
    (∀ c ∈ r, letterOrDigit c = true) ∧ ¬ Swallowed z

/-- No match that the search finds reaches over the place between two parts of a text. -/
def Clear (y rest : List Char) : Prop :=
  ∀ z m v, y ++ rest = z ++ (m ++ v) → IsMatch m v → z.length < y.length →
    y.length < z.length + m.length → Swallowed z

variable {y rest z x r s : List Char}

/-- At a clear place a run of ten letters and digits that began before is not in a match. -/
theorem Clear.swallowed (h : Clear y rest) (hy : y = z ++ (GEO ++ (x ++ r)))
    (hx : x ∈ [] :: TYPED) (hr : ∀ c ∈ r, letterOrDigit c = true)
    (hlen : 10 ≤ r.length + (rest.takeWhile letterOrDigit).length)
    (hrest : rest.takeWhile letterOrDigit ≠ []) : Swallowed z := by
  have hmatch : IsMatch (GEO ++ (x ++ (r ++ rest.takeWhile letterOrDigit)))
      (rest.dropWhile letterOrDigit) := by
    refine ⟨⟨x, hx, _, rfl, ?_, by rwa [List.length_append]⟩, ?_⟩
    · intro c hc
      rcases List.mem_append.mp hc with hc | hc
      · exact hr c hc
      · exact List.mem_takeWhile_imp hc
    · intro c hc
      have hd := List.head?_dropWhile_not letterOrDigit rest
      rw [Option.mem_def.mp hc] at hd
      simpa using hd
  have hpos := List.length_pos_iff.mpr hrest
  apply h z _ _ _ hmatch
  · rw [hy]
    simp only [List.length_append]
    have hgeo : GEO.length = 4 := by decide
    omega
  · rw [hy]
    simp only [List.length_append]
    omega
  · rw [hy]
    simp only [List.append_assoc, List.takeWhile_append_dropWhile]

theorem takeWhile_geo (rest : List Char) :
    (GEO ++ rest).takeWhile letterOrDigit = ['g', 'e', 'o'] := rfl

/-- A `geo_` at a clear place is not swallowed. -/
theorem Clear.not_swallowed (h : Clear y (GEO ++ rest)) : ¬ Swallowed y := by
  intro hy
  rw [Swallowed] at hy
  obtain ⟨z, x, r, heq, hx, hr, hlen, hz⟩ := hy
  apply hz
  apply h.swallowed heq hx hr
  · rw [takeWhile_geo]
    show 10 ≤ r.length + 3
    omega
  · rw [takeWhile_geo]
    exact List.cons_ne_nil _ _

/-- A place inside a match is behind the mark, among the letters and digits, or before its end. -/
theorem IsMatch.place {a b : List Char} (h : IsMatch m v) (heq : m ++ v = a ++ b)
    (hlt : a.length < m.length) : ∃ x ∈ [] :: TYPED,
      (∃ r run, a = GEO ++ (x ++ r) ∧ b = run ++ v ∧ (∀ c ∈ r, letterOrDigit c = true) ∧
        (∀ c ∈ run, letterOrDigit c = true) ∧ 10 ≤ r.length + run.length) ∨
      ∃ q, q ≠ [] ∧ GEO ++ x = a ++ q ∧ q <+: b := by
  obtain ⟨⟨x, hx, all, rfl, hall, hlen⟩, hends⟩ := h
  refine ⟨x, hx, ?_⟩
  rcases Nat.lt_or_ge a.length (GEO ++ x).length with ha | ha
  · obtain ⟨q, hq⟩ : a <+: GEO ++ x := List.prefix_of_prefix_length_le
      (heq ▸ List.prefix_append a b) ⟨all ++ v, by simp only [List.append_assoc]⟩ (by omega)
    refine Or.inr ⟨q, ?_, hq.symm, ?_⟩
    · rintro rfl
      rw [← hq, List.append_nil] at ha
      omega
    · rw [← List.append_assoc, ← hq, List.append_assoc, List.append_assoc,
        List.append_cancel_left_eq] at heq
      exact heq ▸ List.prefix_append q _
  · obtain ⟨r, rfl⟩ : GEO ++ x <+: a := List.prefix_of_prefix_length_le
      ⟨all ++ v, by simp only [List.append_assoc]⟩ (heq ▸ List.prefix_append a b) ha
    rw [List.append_assoc, List.append_assoc, List.append_assoc, List.append_assoc,
      List.append_cancel_left_eq, List.append_cancel_left_eq] at heq
    simp only [List.length_append] at hlt
    obtain ⟨run, rfl⟩ : r <+: all := List.prefix_of_prefix_length_le
      (heq ▸ List.prefix_append r b) (List.prefix_append all v) (by omega)
    rw [List.append_assoc, List.append_cancel_left_eq] at heq
    rw [List.length_append] at hlen
    exact Or.inl ⟨r, run, List.append_assoc .., heq.symm,
      fun c hc => hall c (List.mem_append_left run hc),
      fun c hc => hall c (List.mem_append_right r hc), hlen⟩

/-- A `geo_` that begins inside a match is the end of its letters and digits. -/
theorem IsMatch.inside {a b : List Char} (h : IsMatch m v) (heq : m ++ v = a ++ (GEO ++ b))
    (hpos : a ≠ []) (hlt : a.length < m.length) : ∃ x r, a = GEO ++ (x ++ r) ∧
      x ∈ [] :: TYPED ∧ (∀ c ∈ r, letterOrDigit c = true) ∧ 7 ≤ r.length := by
  obtain ⟨x, hx, hplace⟩ := h.place heq hlt
  rcases hplace with ⟨r, run, ha, hb, hr, hrun, hlen⟩ | ⟨q, hne, hq, hfront⟩
  · have htake := congrArg (List.takeWhile letterOrDigit) hb
    rw [takeWhile_geo, (takeWhile_run hrun h.ends).1] at htake
    have hthree : run.length = 3 := by rw [← htake]; rfl
    exact ⟨x, r, ha, hx, hr, by omega⟩
  · cases q with
    | nil => exact absurd rfl hne
    | cons c q =>
      -- Only the first letter of the beginning is a `g`.
      have hg : c = 'g' := (List.cons_prefix_cons.mp hfront).1
      have hnone : ∀ x ∈ [] :: TYPED, 'g' ∉ (GEO ++ x).tail := by decide
      apply absurd _ (hnone x hx)
      rw [hq, List.tail_append_of_ne_nil hpos, hg]
      exact List.mem_append_right _ (List.mem_cons_self ..)

/-- Ten letters and digits that begin inside a match are among its last. -/
theorem IsMatch.covers {a b : List Char} (h : IsMatch m v) (heq : m ++ v = a ++ (s ++ b))
    (hs : ∀ c ∈ s, letterOrDigit c = true) (hlen : 10 ≤ s.length) (hlt : a.length < m.length) :
    ∃ x r, a = GEO ++ (x ++ r) ∧ x ∈ [] :: TYPED ∧ ∀ c ∈ r, letterOrDigit c = true := by
  obtain ⟨x, hx, hplace⟩ := h.place heq hlt
  rcases hplace with ⟨r, run, ha, -, hr, -, -⟩ | ⟨q, hne, hq, hfront⟩
  · exact ⟨x, r, ha, hx, hr⟩
  · -- The rest of the beginning ends in an underscore, and is too short for ten letters.
    have hlast : ∀ x ∈ [] :: TYPED, (GEO ++ x).getLast? = some '_' ∧ (GEO ++ x).length ≤ 9 := by
      decide
    obtain ⟨hunder, hshort⟩ := hlast x hx
    rw [hq, List.getLast?_append_of_ne_nil a hne] at hunder
    rw [hq, List.length_append] at hshort
    have hqs : q <+: s :=
      List.prefix_of_prefix_length_le hfront (List.prefix_append s b) (by omega)
    have hbad := hs '_' (hqs.subset (List.mem_of_getLast? hunder))
    exact absurd hbad (by decide)

theorem clear_nil (rest : List Char) : Clear [] rest := nofun

theorem Clear.miss {c : Char} (h : Clear y (c :: rest))
    (hfirst : CREDENTIALS.pattern.first prev (c :: rest) = none) : Clear (y ++ [c]) rest := by
  intro z m v heq hm hlt hgt
  rw [List.append_assoc, List.singleton_append] at heq
  rw [List.length_append, List.length_singleton] at hlt hgt
  rcases Nat.lt_or_ge z.length y.length with hz | hz
  · exact h z m v heq hm hz (by omega)
  · obtain ⟨-, hrest⟩ := List.append_inj heq (by omega)
    rw [hrest, hm.first] at hfirst
    cases hfirst

theorem Clear.hit (h : Clear y rest) (hfirst : CREDENTIALS.pattern.first prev rest = some w) :
    Clear (y ++ w.taken) w.rest := by
  obtain ⟨-, hsplit, hw⟩ := first_iff.mp hfirst
  intro z m v heq hm hlt hgt
  rw [List.append_assoc, ← hsplit] at heq
  rw [List.length_append] at hlt hgt
  rcases Nat.lt_trichotomy z.length y.length with hz | hz | hz
  · exact h z m v heq hm hz (by omega)
  · obtain ⟨rfl, hrest⟩ := List.append_inj heq hz.symm
    obtain ⟨rfl, -⟩ := hw.unique hm (hsplit ▸ hrest)
    omega
  · obtain ⟨a, rfl⟩ : y <+: z := List.prefix_of_prefix_length_le (heq ▸ List.prefix_append y rest)
      (List.prefix_append z _) (by omega)
    rw [List.append_assoc, List.append_cancel_left_eq, hsplit] at heq
    rw [List.length_append] at hz hlt
    have hgeo : ∃ b, m ++ v = GEO ++ b := by
      obtain ⟨x, -, run, rfl, -, -⟩ := hm.shape
      exact ⟨_, List.append_assoc ..⟩
    obtain ⟨b, hb⟩ := hgeo
    obtain ⟨x, r, rfl, hx, hr, hlen⟩ := hw.inside (hb ▸ heq)
      (List.length_pos_iff.mp (by omega)) (by omega)
    have hy : ¬ Swallowed y := by
      obtain ⟨x', -, run', htaken, -, -⟩ := hw.shape
      rw [hsplit, htaken, List.append_assoc] at h
      exact h.not_swallowed
    rw [Swallowed]
    exact ⟨y, x, r, rfl, hx, hr, hlen, hy⟩

theorem Clear.not_covered (h : Clear y t) (hs : ∀ c ∈ s, letterOrDigit c = true)
    (hlen : 10 ≤ s.length) (hfront : s <+: t) : ¬ Covered y := by
  rintro ⟨z, x, r, hy, hx, hr, hz⟩
  obtain ⟨v, rfl⟩ := hfront
  have htake : 10 ≤ ((s ++ v).takeWhile letterOrDigit).length := by
    rw [List.takeWhile_append_of_pos hs, List.length_append]
    omega
  exact hz (h.swallowed hy hx hr (by omega) (List.length_pos_iff.mp (by omega)))

/-- The place of a credential's secret is covered unless its own beginning is swallowed. -/
theorem covered_credential_iff (hx : x ∈ [] :: TYPED) :
    Covered (y ++ (GEO ++ x)) ↔ ¬ Swallowed y := by
  constructor
  · rintro ⟨z, x', r, heq, hx', hr, hz⟩
    have hlast : ∀ x ∈ [] :: TYPED, (GEO ++ x).getLast? = some '_' := by decide
    have hends := congrArg List.getLast? heq
    rw [List.getLast?_append_of_ne_nil y (by simp [GEO]), hlast x hx] at hends
    have hnil : r = [] := by
      by_contra hne
      rw [← List.append_assoc, ← List.append_assoc, List.getLast?_append_of_ne_nil _ hne] at hends
      exact absurd (hr '_' (List.mem_of_getLast? hends.symm)) (by decide)
    subst hnil
    rw [List.append_nil] at heq
    have hsame : ∀ x ∈ [] :: TYPED, ∀ x' ∈ [] :: TYPED, GEO ++ x <:+ GEO ++ x' → x = x' := by
      decide
    have hxx : x = x' := by
      rcases Nat.le_total (GEO ++ x).length (GEO ++ x').length with hle | hle
      · exact hsame x hx x' hx' (List.suffix_of_suffix_length_le ⟨y, rfl⟩ ⟨z, heq.symm⟩ hle)
      · exact (hsame x' hx' x hx
          (List.suffix_of_suffix_length_le ⟨z, heq.symm⟩ ⟨y, rfl⟩ hle)).symm
    subst hxx
    rwa [List.append_cancel_right heq]
  · exact fun h => ⟨y, x, [], by rw [List.append_nil], hx, nofun, h⟩

/-! ### The first pass -/

/-- The first pattern leaves `geo_` of each match. -/
def credentials : Redaction Char where
  pattern := CREDENTIALS.pattern
  fill := CREDENTIALS.fill
  kept _ := GEO
  mark := "[REDACTED]".toList
  kept_front := by
    intro prev t w h
    obtain ⟨x, -, run, htaken, -, -⟩ := (first_iff.mp h).2.2.shape
    exact htaken ▸ List.prefix_append GEO _
  fill_eq _ _ _ _ := rfl

/-- Letters and digits in front of the text stay there: a match can only begin with `geo` of them,
which is kept. -/
theorem scan_of_front {β : Type} {keep : Char → β} {fill : Way Char → List β}
    (hfill : ∀ w, GEO.map keep <+: fill w) (hs : ∀ c ∈ s, letterOrDigit c = true) (v : List Char) :
    s.map keep <+: credentials.pattern.scan keep fill 0 prev (s ++ v) := by
  apply Pattern.prefix_scan
  intro a b w hab _ hfirst
  obtain ⟨-, hsplit, hw⟩ := first_iff.mp hfirst
  obtain ⟨x, -, run, htaken, -, -⟩ := hw.shape
  have hunder : '_' ∉ b := fun hm =>
    absurd (hs '_' (hab ▸ List.mem_append_right a hm)) (by decide)
  have hfront : b <+: GEO ++ (x ++ run ++ w.rest) := by
    rw [htaken, List.append_assoc] at hsplit
    exact hsplit ▸ List.prefix_append b v
  have hgeo : b <+: ['g', 'e', 'o'] := (prefix_split hunder).mp hfront
  exact ((hgeo.trans (List.prefix_append _ ['_'])).map keep).trans (hfill w)

/-- A secret that no match covers stands behind the match. -/
theorem behind_match (hs : ∀ c ∈ s, letterOrDigit c = true) (hlen : 10 ≤ s.length)
    (hy : Clear y t) (hfirst : CREDENTIALS.pattern.first prev t = some w)
    (ht : t = u ++ (s ++ v)) (hu : ¬ Covered (y ++ u)) :
    ∃ u', u = w.taken ++ u' ∧ w.rest = u' ++ (s ++ v) := by
  obtain ⟨-, hsplit, hw⟩ := first_iff.mp hfirst
  rw [hsplit] at ht
  rcases Nat.lt_or_ge u.length w.taken.length with hlt | hge
  · obtain ⟨x, r, rfl, hx, hr⟩ := hw.covers ht hs hlen hlt
    have hclear : ¬ Swallowed y := by
      obtain ⟨x', -, run, htaken, -, -⟩ := hw.shape
      rw [hsplit, htaken, List.append_assoc] at hy
      exact hy.not_swallowed
    exact absurd ⟨y, x, r, rfl, hx, hr, hclear⟩ hu
  · obtain ⟨u, rfl⟩ : w.taken <+: u := List.prefix_of_prefix_length_le
      (List.prefix_append w.taken w.rest) (ht ▸ List.prefix_append u _) hge
    rw [List.append_assoc, List.append_cancel_left_eq] at ht
    exact ⟨u, rfl, ht⟩

theorem leaves_from (hs : ∀ c ∈ s, letterOrDigit c = true) (hlen : 10 ≤ s.length)
    (prev : Option Char) (t : List Char) : ∀ y, Clear y t →
      (s.map some <:+: credentials.pattern.scan some credentials.cut 0 prev t ↔
        ∃ u v, t = u ++ (s ++ v) ∧ ¬ Covered (y ++ u)) := by
  induction prev, t using Pattern.scan_induction credentials.pattern with
  | nil prev =>
    intro y _
    have hne : s ≠ [] := List.length_pos_iff.mp (by omega)
    simp [Pattern.scan, hne]
  | miss prev c t hfirst ih =>
    intro y hy
    have hfront : s.map some <+: credentials.pattern.scan some credentials.cut 0 prev (c :: t) ↔
        s <+: c :: t := by
      refine ⟨Redaction.prefix_of_scan prev (c :: t) s, ?_⟩
      rintro ⟨v, hv⟩
      exact hv ▸ scan_of_front (fun _ => List.prefix_append ..) hs v
    rw [Pattern.scan_miss hfirst] at hfront ⊢
    rw [List.infix_cons_iff, hfront, ih (y ++ [c]) (hy.miss hfirst)]
    constructor
    · rintro (h | ⟨u, v, rfl, hu⟩)
      · obtain ⟨v, hv⟩ := id h
        exact ⟨[], v, hv.symm, by simpa using hy.not_covered hs hlen h⟩
      · exact ⟨c :: u, v, rfl, by simpa using hu⟩
    · rintro ⟨u, v, hsplit, hu⟩
      cases u with
      | nil => exact Or.inl ⟨v, hsplit.symm⟩
      | cons d u =>
        obtain ⟨rfl, rfl⟩ := List.cons.inj hsplit
        exact Or.inr ⟨u, v, rfl, by simpa using hu⟩
  | hit prev t w hfirst ih =>
    intro y hy
    obtain ⟨-, hsplit, hw⟩ := first_iff.mp hfirst
    have hgeo : ¬ s <:+: credentials.kept w := by
      intro h
      have hle := h.length_le
      have hfour : (credentials.kept w).length = 4 := rfl
      omega
    rw [Pattern.scan_hit hfirst, Redaction.infix_cut_iff, ih (y ++ w.taken) (hy.hit hfirst)]
    simp only [hgeo, false_or]
    constructor
    · rintro ⟨u, v, hrest, hu⟩
      refine ⟨w.taken ++ u, v, ?_, ?_⟩
      · rw [List.append_assoc, ← hrest]
        exact hsplit
      · rwa [← List.append_assoc]
    · rintro ⟨u, v, ht, hu⟩
      obtain ⟨u, rfl, hrest⟩ := behind_match hs hlen hy hfirst ht hu
      exact ⟨u, v, hrest, by rwa [List.append_assoc]⟩

/-- What stands in front of a secret that the first pass leaves holds no new words. -/
theorem front_of_leaves (hs : ∀ c ∈ s, letterOrDigit c = true) (hlen : 10 ≤ s.length)
    (prev : Option Char) (t : List Char) : ∀ y u v, Clear y t → t = u ++ (s ++ v) →
      ¬ Covered (y ++ u) →
      ∃ u', u' ++ s <+: credentials.pattern.scan id credentials.fill 0 prev t ∧
        ∀ x, Separates credentials.mark x → ∀ a, x <:+: a ++ (u' ++ s) → x <:+: a ++ (u ++ s) := by
  induction prev, t using Pattern.scan_induction credentials.pattern with
  | nil prev =>
    intro y u v _ ht _
    have hnil : s = [] := by
      simp only [List.nil_eq, List.append_eq_nil_iff] at ht
      exact ht.2.1
    simp [hnil] at hlen
  | miss prev c t hfirst ih =>
    intro y u v hy ht hu
    cases u with
    | nil =>
      have hstay : s.map id <+: credentials.pattern.scan id credentials.fill 0 prev (s ++ v) :=
        scan_of_front (fun _ => List.prefix_append ..) hs v
      rw [List.map_id] at hstay
      exact ⟨[], ht ▸ hstay, fun x _ a h => h⟩
    | cons d u =>
      obtain ⟨rfl, rfl⟩ := List.cons.inj ht
      obtain ⟨u', hfront, hwords⟩ := ih (y ++ [c]) u v (hy.miss hfirst) rfl (by simpa using hu)
      refine ⟨c :: u', ?_, fun x hx a h => ?_⟩
      · rw [Pattern.scan_miss hfirst]
        exact (List.prefix_cons_inj c).mpr hfront
      · have hmore := hwords x hx (a ++ [c])
        simp only [List.append_assoc, List.singleton_append] at hmore
        exact hmore h
  | hit prev t w hfirst ih =>
    intro y u v hy ht hu
    obtain ⟨u, rfl, hrest⟩ := behind_match hs hlen hy hfirst ht hu
    rw [← List.append_assoc] at hu
    obtain ⟨u', hfront, hwords⟩ := ih (y ++ w.taken) u v (hy.hit hfirst) hrest hu
    refine ⟨credentials.fill w ++ u', ?_, fun x hx a h => ?_⟩
    · rw [Pattern.scan_hit hfirst, List.append_assoc]
      exact (List.prefix_append_right_inj _).mpr hfront
    · obtain ⟨k, hk⟩ : GEO <+: w.taken := credentials.kept_front _ _ _ hfirst
      have hfill : credentials.fill w = GEO ++ credentials.mark := credentials.fill_eq _ _ _ hfirst
      rw [hfill, List.append_assoc, List.append_assoc, ← List.append_assoc,
        hx.infix_append_iff] at h
      rw [List.append_assoc]
      rcases h with h | h
      · rw [← hk]
        exact h.trans ⟨[], k ++ (u ++ s), by simp⟩
      · have hin : x <:+: [] ++ (u ++ s) := hwords x hx [] h
        exact hin.trans ⟨a ++ w.taken, [], by simp⟩

/-- The first pass leaves a secret exactly if it stands at a place that no match covers. -/
theorem credentials_leave_iff (hs : ∀ c ∈ s, letterOrDigit c = true) (hlen : 10 ≤ s.length) :
    credentials.Leaves t s ↔ ∃ u v, t = u ++ (s ++ v) ∧ ¬ Covered u :=
  leaves_from hs hlen none t [] (clear_nil t)

end GeoPlatform.Api
