import GeoPlatform.Library.Regex

/-! Which texts an expression takes, put together from its parts. The order of the ways does not
matter here, and for `Reads` what comes before the text neither. -/
namespace Regex
variable {α : Type} {r s : Regex α} {L M : List α → List α → Prop}

/-- The expression takes the texts of which `L` holds together with what follows them. -/
def Reads (r : Regex α) (L : List α → List α → Prop) : Prop :=
  ∀ prev t w, w ∈ r.ways prev t ↔ w.taken ++ w.rest = t ∧ w.group = none ∧ L w.taken w.rest

theorem Reads.congr (h : r.Reads L) (hLM : ∀ a rest, L a rest ↔ M a rest) : r.Reads M := by
  intro prev t w
  rw [h prev t w, hLM]

theorem reads_assert (p : List α → Bool) :
    (assert fun _ t => p t).Reads fun a rest => a = [] ∧ p rest = true := by
  intro prev t w
  obtain ⟨taken, group, rest⟩ := w
  rw [mem_ways_assert, Way.mk.injEq]
  constructor
  · rintro ⟨hp, rfl, rfl, rfl⟩
    exact ⟨rfl, rfl, rfl, hp⟩
  · rintro ⟨rfl, rfl, rfl, hp⟩
    exact ⟨hp, rfl, rfl, rfl⟩

theorem reads_lit [DecidableEq α] (word : List α) : (lit word).Reads fun a _ => a = word := by
  intro prev t w
  obtain ⟨taken, group, rest⟩ := w
  rw [ways_lit]
  constructor
  · intro h
    split at h
    next hprefix =>
      rw [List.mem_singleton] at h
      cases h
      exact ⟨List.prefix_iff_eq_append.mp hprefix, rfl, rfl⟩
    next => cases h
  · rintro ⟨rfl, rfl, rfl⟩
    simp

/-- Every beginning of a text that belongs to the class is one of the runs. -/
theorem run_mem {p : α → Bool} {run : List α} (hall : ∀ c ∈ run, p c = true) {n : ℕ}
    (hlen : run.length ≤ n) (rest : List α) : (run, rest) ∈ runs p n (run ++ rest) := by
  induction run generalizing n with
  | nil =>
    rw [List.nil_append]
    cases n with
    | zero => simp [runs]
    | succ n =>
      cases rest with
      | nil => simp [runs]
      | cons c rest =>
        rw [runs]
        split <;> simp
  | cons c run ih =>
    obtain ⟨n, rfl⟩ : ∃ m, n = m + 1 := ⟨n - 1, by rw [List.length_cons] at hlen; omega⟩
    have hrest := ih (fun d hd => hall d (List.mem_cons_of_mem _ hd)) (Nat.le_of_succ_le_succ hlen)
    rw [List.cons_append, runs, if_pos (hall c (List.mem_cons_self ..))]
    exact List.mem_append_left _ (List.mem_map.mpr ⟨_, hrest, rfl⟩)

theorem reads_rep (p : α → Bool) (least most : ℕ) : (rep p least (some most)).Reads fun a _ =>
    (∀ c ∈ a, p c = true) ∧ least ≤ a.length ∧ a.length ≤ most := by
  intro prev t w
  constructor
  · intro h
    obtain ⟨hsplit, hall, hgroup, hleast, hmost⟩ := mem_ways_rep h
    exact ⟨hsplit, hgroup, hall, hleast, hmost⟩
  · obtain ⟨taken, group, rest⟩ := w
    rintro ⟨rfl, rfl, hall, hleast, hmost⟩
    rw [ways_rep, Option.getD_some, List.mem_map]
    exact ⟨(taken, rest), List.mem_filter.mpr ⟨run_mem hall hmost rest, by simpa using hleast⟩, rfl⟩

theorem Reads.alt (hr : r.Reads L) (hs : s.Reads M) :
    (Regex.alt r s).Reads fun a rest => L a rest ∨ M a rest := by
  intro prev t w
  rw [mem_ways_alt, hr prev t w, hs prev t w]
  tauto

theorem Reads.opt (hr : r.Reads L) : (opt r).Reads fun a rest => L a rest ∨ a = [] := by
  have hempty : empty.Reads fun (a rest : List α) => a = [] := by
    have h := reads_assert fun _ : List α => true
    exact h.congr fun a rest => by simp
  exact hr.alt hempty

/-- The first part is followed by the second, and the second by the rest. -/
theorem Reads.seq (hr : r.Reads L) (hs : s.Reads M) : (Regex.seq r s).Reads fun a rest =>
    ∃ b c, a = b ++ c ∧ L b (c ++ rest) ∧ M c rest := by
  intro prev t w
  obtain ⟨taken, group, rest⟩ := w
  rw [mem_ways_seq]
  constructor
  · rintro ⟨a, ha, b, hb, heq⟩
    obtain ⟨hsplit, hgroup, hL⟩ := (hr _ _ _).mp ha
    obtain ⟨hsplit', hgroup', hM⟩ := (hs _ _ _).mp hb
    cases heq
    rw [← hsplit'] at hsplit hL
    exact ⟨by rw [List.append_assoc, hsplit], by simp [hgroup, hgroup'], _, _, rfl, hL, hM⟩
  · rintro ⟨hsplit, hgroup, b, c, hbc, hL, hM⟩
    dsimp only at hsplit hgroup hbc hL hM
    subst hsplit hgroup hbc
    refine ⟨⟨b, none, c ++ rest⟩, (hr _ _ _).mpr ⟨by simp, rfl, hL⟩, ⟨c, none, rest⟩,
      (hs _ _ _).mpr ⟨rfl, rfl, hM⟩, rfl⟩

/-! ### What all matches have in common -/

/-- `K` holds of whatever the expression takes. -/
def Takes (r : Regex α) (K : List α → Prop) : Prop :=
  ∀ prev t w, w ∈ r.ways prev t → K w.taken

variable {K K' : List α → Prop}

theorem Takes.mono (hr : r.Takes K) (hK : ∀ a, K a → K' a) : r.Takes K' :=
  fun prev t w hw => hK _ (hr prev t w hw)

theorem takes_lit [DecidableEq α] (word : List α) : (lit word).Takes (· = word) :=
  fun prev t w hw => ((reads_lit word prev t w).mp hw).2.2

theorem takes_comap_lit [DecidableEq α] (f : α → α) (word : List α) :
    ((lit word).comap f).Takes fun a => a.map f = word := by
  induction word with
  | nil =>
    intro prev t w hw
    rw [(mem_ways_assert.mp hw).2]
    rfl
  | cons c word ih =>
    intro prev t w hw
    obtain ⟨a, ha, b, hb, rfl⟩ := mem_ways_seq.mp hw
    obtain ⟨d, rest, -, hd, rfl⟩ := mem_ways_one.mp ha
    have hdc : f d = c := of_decide_eq_true hd
    show (d :: b.taken).map f = c :: word
    rw [List.map_cons, hdc, ih _ _ _ hb]

theorem Takes.alt (hr : r.Takes K) (hs : s.Takes K) : (Regex.alt r s).Takes K :=
  fun prev t w hw => (mem_ways_alt.mp hw).elim (hr prev t w) (hs prev t w)

theorem Takes.group (hr : r.Takes K) : (Regex.group r).Takes K := by
  intro prev t w hw
  obtain ⟨a, ha, rfl⟩ := mem_ways_group.mp hw
  exact hr prev t a ha

theorem Takes.seq (hr : r.Takes K) (hs : s.Takes K') :
    (Regex.seq r s).Takes fun a => ∃ b c, a = b ++ c ∧ K b ∧ K' c := by
  intro prev t w hw
  obtain ⟨a, ha, b, hb, rfl⟩ := mem_ways_seq.mp hw
  exact ⟨a.taken, b.taken, rfl, hr _ _ _ ha, hs _ _ _ hb⟩

/-- An assertion takes nothing. -/
theorem Takes.behind (hr : r.Takes K) (p : Option α → List α → Bool) :
    (Regex.seq (assert p) r).Takes K := by
  intro prev t w hw
  obtain ⟨a, ha, b, hb, rfl⟩ := mem_ways_seq.mp hw
  obtain ⟨-, rfl⟩ := mem_ways_assert.mp ha
  exact hr _ _ b hb

/-- `K` holds of a beginning of whatever the expression takes. -/
def TakesFirst (r : Regex α) (K : List α → Prop) : Prop :=
  r.Takes fun a => ∃ x, x <+: a ∧ K x

theorem Takes.first (hr : r.Takes K) : r.TakesFirst K :=
  hr.mono fun a ha => ⟨a, List.prefix_rfl, ha⟩

theorem TakesFirst.mono (hr : r.TakesFirst K) (hK : ∀ a, K a → K' a) : r.TakesFirst K' :=
  Takes.mono hr fun _ ⟨x, hx, h⟩ => ⟨x, hx, hK x h⟩

theorem TakesFirst.before (hr : r.TakesFirst K) (s : Regex α) : (Regex.seq r s).TakesFirst K := by
  intro prev t w hw
  obtain ⟨a, ha, b, hb, rfl⟩ := mem_ways_seq.mp hw
  obtain ⟨x, hx, hK⟩ := hr _ _ _ ha
  exact ⟨x, hx.trans (List.prefix_append ..), hK⟩

theorem Takes.then_first (hr : r.Takes K) (hs : s.TakesFirst K') :
    (Regex.seq r s).TakesFirst fun x => ∃ b c, x = b ++ c ∧ K b ∧ K' c := by
  intro prev t w hw
  obtain ⟨b, c, heq, hb, x, hx, hc⟩ := hr.seq hs prev t w hw
  exact ⟨b ++ x, heq ▸ (List.prefix_append_right_inj b).mpr hx, b, x, rfl, hb, hc⟩

/-! ### Expressions that begin with `^` -/

/-- The beginning of the text. -/
def atStart : Regex α := assert fun prev _ => prev.isNone

theorem ways_atStart (r : Regex α) (t : List α) :
    (seq atStart r).ways none t = r.ways none t := by
  have hthen (w : Way α) : Way.then ⟨[], none, t⟩ w = w := by
    simp [Way.then]
  rw [ways_seq, atStart, ways_assert]
  simp [funext hthen]

theorem search_atStart (r : Regex α) (t : List α) :
    (seq atStart r).search none t = (r.ways none t).head? := by
  rw [search_anchored, ways_atStart]
  intro c t
  rw [ways_seq, atStart, ways_assert]
  rfl

theorem Reads.fullmatch (h : r.Reads L) (t : List α) :
    (Regex.seq atStart r).fullmatch t = true ↔ L t [] := by
  rw [Regex.fullmatch, ways_atStart, List.any_eq_true]
  constructor
  · rintro ⟨⟨taken, group, rest⟩, hw, hend⟩
    obtain ⟨hsplit, -, hL⟩ := (h none t _).mp hw
    obtain rfl : rest = [] := List.isEmpty_iff.mp hend
    rw [← hsplit, List.append_nil]
    exact hL
  · intro hL
    exact ⟨⟨t, none, []⟩, (h none t _).mpr ⟨List.append_nil t, rfl, hL⟩, rfl⟩

/-- Some beginning of the text is taken. -/
theorem Reads.test (h : r.Reads L) (t : List α) :
    (Regex.seq atStart r).test t = true ↔ ∃ a rest, a ++ rest = t ∧ L a rest := by
  rw [Regex.test, search_atStart, List.isSome_head?]
  constructor
  · intro hne
    obtain ⟨w, hw⟩ := List.exists_mem_of_ne_nil _ hne
    obtain ⟨hsplit, -, hL⟩ := (h none t w).mp hw
    exact ⟨_, _, hsplit, hL⟩
  · rintro ⟨a, rest, hsplit, hL⟩
    exact List.ne_nil_of_mem ((h none t ⟨a, none, rest⟩).mpr ⟨hsplit, rfl, hL⟩)

end Regex
