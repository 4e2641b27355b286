import GeoPlatform.Api.LogRedaction
import GeoPlatform.Library.RegexTexts

/-! Where the six patterns behind the first one match. Each of their matches begins with a word of
theirs, so text that holds none of the words stays as it is in front of the first one. -/
namespace GeoPlatform.Api
open GeoPlatform.ArcGIS Regex

/-! ### Words -/

/-- How the six patterns begin, without regard to case. In URLs a scheme stands in front. -/
def LATER_WORDS : List (List Char) :=
  ["bearer", "basic", "set-cookie", "cookie", "://"].map String.toList ++
    (SECRET_NAMES ++ ["code"]).map (fun name => name.toList ++ ['=']) ++
    SECRET_NAMES.map fun name => '"' :: (name.toList ++ ['"'])

def LaterWord (x : List Char) : Prop := x = "AAP".toList ∨ x.map foldCase ∈ LATER_WORDS

/-- None of the words stands in the text. -/
def WordFree (t : List Char) : Prop := ∀ x, x <:+: t → ¬ LaterWord x

theorem wordFree_iff {t : List Char} : WordFree t ↔
    ¬ "AAP".toList <:+: t ∧ ∀ y ∈ LATER_WORDS, ¬ y <:+: t.map foldCase := by
  constructor
  · refine fun h => ⟨fun hm => h _ hm (Or.inl rfl), fun y hy hm => ?_⟩
    obtain ⟨x, hx, rfl⟩ := List.infix_map_iff.mp hm
    exact h x hx (Or.inr hy)
  · rintro ⟨harcgis, hwords⟩ x hx (rfl | hy)
    · exact harcgis hx
    · exact hwords _ hy (hx.map foldCase)

instance (t : List Char) : Decidable (WordFree t) := decidable_of_iff' _ wordFree_iff

variable {x : List Char}

theorem LaterWord.length_le (h : LaterWord x) : x.length ≤ 32 := by
  rcases h with rfl | h
  · decide
  · have hall : ∀ y ∈ LATER_WORDS, y.length ≤ 32 := by decide
    simpa using hall _ h

/-- The mark of the first pattern holds no part of a word. -/
theorem LaterWord.separates (h : LaterWord x) : Separates "[REDACTED]".toList x := by
  refine ⟨'[', "REDACTED".toList, ']', rfl, ?_⟩
  rcases h with rfl | h
  · decide
  · have hall : ∀ y ∈ LATER_WORDS,
        '[' ∉ y ∧ ']' ∉ y ∧ ¬ y <:+: "REDACTED".toList.map foldCase := by decide
    obtain ⟨hopen, hclose, hinner⟩ := hall _ h
    exact ⟨fun hm => hopen (List.mem_map_of_mem hm), fun hm => hclose (List.mem_map_of_mem hm),
      fun hm => hinner (hm.map foldCase)⟩

theorem takes_anyOf (words : List String) :
    ((anyOf words).comap foldCase).Takes fun a => ∃ s ∈ words, a.map foldCase = s.toList := by
  induction words with
  | nil =>
    intro prev t w hw
    exact absurd (mem_ways_assert.mp hw).1 Bool.false_ne_true
  | cons s words ih =>
    apply Takes.alt
    · exact (takes_comap_lit foldCase s.toList).mono fun a ha => ⟨s, List.mem_cons_self .., ha⟩
    · exact ih.mono fun a ⟨s', hs', ha⟩ => ⟨s', List.mem_cons_of_mem s hs', ha⟩

theorem takes_word (s : String) : (ignoreCase (word s)).Takes fun a => a.map foldCase = s.toList :=
  takes_comap_lit foldCase s.toList

variable (P : PyText)

theorem arcgis_first : (ARCGIS_TOKENS P).pattern.regex.TakesFirst LaterWord := by
  apply Takes.behind
  apply TakesFirst.before
  exact ((takes_lit "AAP".toList).mono fun a ha => Or.inl ha).first

theorem authorization_first : (AUTHORIZATION P).pattern.regex.TakesFirst LaterWord := by
  apply Takes.behind
  apply TakesFirst.before
  apply Takes.first
  apply Takes.group
  refine (takes_anyOf ["bearer", "basic"]).mono ?_
  rintro a ⟨s, hs, ha⟩
  have hall : ∀ s ∈ ["bearer", "basic"], s.toList ∈ LATER_WORDS := by decide
  exact Or.inr (ha ▸ hall s hs)

theorem cookies_first : (COOKIES P).pattern.regex.TakesFirst LaterWord := by
  apply Takes.behind
  apply TakesFirst.before
  apply Takes.group
  have hset : (ignoreCase (opt (word "set-"))).Takes fun a =>
      a.map foldCase = "set-".toList ∨ a = [] := by
    apply Takes.alt
    · exact (takes_word "set-").mono fun a ha => Or.inl ha
    · intro prev t w hw
      exact Or.inr (congrArg Way.taken (mem_ways_assert.mp hw).2)
  refine (hset.then_first ((takes_word "cookie").first.before _)).mono ?_
  rintro x ⟨b, c, rfl, hb, hc⟩
  apply Or.inr
  rcases hb with hb | rfl
  · rw [List.map_append, hb, hc]
    decide
  · rw [List.nil_append, hc]
    decide

theorem formValues_first : (FORM_VALUES P).pattern.regex.TakesFirst LaterWord := by
  apply Takes.behind
  refine ((takes_anyOf (SECRET_NAMES ++ ["code"])).group.then_first
    ((takes_word "=").first.before _)).mono ?_
  rintro x ⟨b, c, rfl, ⟨s, hs, hb⟩, hc⟩
  apply Or.inr
  rw [List.map_append, hb, hc]
  have hall : ∀ s ∈ SECRET_NAMES ++ ["code"], s.toList ++ "=".toList ∈ LATER_WORDS := by decide
  exact hall s hs

theorem jsonValues_first : (JSON_VALUES P).pattern.regex.TakesFirst LaterWord := by
  apply TakesFirst.before
  apply Takes.group
  refine ((takes_word "\"").then_first ((takes_anyOf SECRET_NAMES).then_first
    ((takes_word "\"").first.before _))).mono ?_
  rintro x ⟨b, c, rfl, hb, d, e, rfl, ⟨s, hs, hd⟩, he⟩
  apply Or.inr
  rw [List.map_append, List.map_append, hb, hd, he]
  have hall : ∀ s ∈ SECRET_NAMES, "\"".toList ++ (s.toList ++ "\"".toList) ∈ LATER_WORDS := by
    decide
  exact hall s hs

/-- A match in a URL begins with the scheme and `://`, and both are kept. -/
theorem urlCredentials_first {prev : Option Char} {t : List Char} {w : Way Char}
    (h : (URL_CREDENTIALS P).pattern.first prev t = some w) :
    ∃ z x, z ++ x <+: w.taken ∧ LaterWord x ∧ z ++ x <+: (URL_CREDENTIALS P).fill w := by
  obtain ⟨a, ha, b, hb, rfl⟩ := mem_ways_seq.mp (List.mem_of_head? h)
  obtain ⟨-, rfl⟩ := mem_ways_assert.mp ha
  obtain ⟨c, hc, d, hd, rfl⟩ := mem_ways_seq.mp hb
  obtain ⟨e, he, rfl⟩ := mem_ways_group.mp hc
  obtain ⟨f, hf, g, hg, rfl⟩ := mem_ways_seq.mp he
  obtain ⟨i, hi, j, hj, rfl⟩ := mem_ways_seq.mp hg
  have hword : j.taken.map foldCase = "://".toList := takes_word "://" _ _ j hj
  have hnone : d.group = none := group_none rfl hd
  have hgroup : f.taken ++ i.taken ++ j.taken = f.taken ++ (i.taken ++ j.taken) :=
    List.append_assoc ..
  refine ⟨f.taken ++ i.taken, j.taken, ?_, Or.inr ?_, ?_⟩
  · rw [hgroup]
    exact List.prefix_append _ d.taken
  · rw [hword]
    decide
  · show _ <+: ((d.group.or (some (f.taken ++ (i.taken ++ j.taken)))).or none).getD [] ++ _
    rw [hnone, hgroup]
    exact List.prefix_append ..

/-- A match of a later pattern begins with a word, or with a part that is kept and ends in one. -/
theorem later_first {p : SecretPattern} (hp : p ∈ (SECRET_PATTERNS P).tail) {prev : Option Char}
    {t : List Char} {w : Way Char} (h : p.pattern.first prev t = some w) :
    ∃ z x, z ++ x <+: w.taken ∧ LaterWord x ∧ (z = [] ∨ z ++ x <+: p.fill w) := by
  have hfront (hr : p.pattern.regex.TakesFirst LaterWord) :
      ∃ z x, z ++ x <+: w.taken ∧ LaterWord x ∧ (z = [] ∨ z ++ x <+: p.fill w) := by
    obtain ⟨x, hx, hword⟩ := hr prev t w (List.mem_of_head? h)
    exact ⟨[], x, hx, hword, Or.inl rfl⟩
  simp only [SECRET_PATTERNS, List.tail_cons, List.mem_cons, List.not_mem_nil, or_false] at hp
  rcases hp with rfl | rfl | rfl | rfl | rfl | rfl
  · exact hfront (arcgis_first P)
  · exact hfront (authorization_first P)
  · exact hfront (cookies_first P)
  · exact hfront (formValues_first P)
  · exact hfront (jsonValues_first P)
  · obtain ⟨z, x, hx, hword, hkept⟩ := urlCredentials_first P h
    exact ⟨z, x, hx, hword, Or.inr hkept⟩

/-! ### Letters and digits -/

theorem foldCase_ne_quote {c : Char} (hc : letterOrDigit c = true) : foldCase c ≠ '"' := by
  have hlower : c.toLower ≠ '"' := by
    by_cases hupper : c.val ≥ 'A'.val ∧ c.val ≤ 'Z'.val
    · have hval : c.toLower.val = c.val + ('a'.val - 'A'.val) :=
        congrArg Char.val (dif_pos hupper)
      intro h
      have hsum := congrArg UInt32.toNat hval
      rw [h, UInt32.toNat_add] at hsum
      change 34 = (c.val.toNat + 32) % 2 ^ 32 at hsum
      have hlow : 65 ≤ c.val.toNat := UInt32.le_iff_toNat_le.mp hupper.1
      have hhigh : c.val.toNat ≤ 90 := UInt32.le_iff_toNat_le.mp hupper.2
      omega
    · have hself : c.toLower = c := dif_neg hupper
      rintro h
      rw [← hself, h] at hc
      exact absurd hc (by decide)
  rw [foldCase]
  split_ifs
  · decide
  · decide
  · decide
  · exact hlower

variable {P} {s u t : List Char}

theorem boundary_within (hword : ∀ c, letterOrDigit c = true → P.word c = true) {r : Regex Char}
    {c d : Char} (hc : letterOrDigit c = true) (hd : letterOrDigit d = true) (t : List Char) :
    (seq (boundary P) r).ways (some c) (d :: t) = [] := by
  have hnone : (boundary P).ways (some c) (d :: t) = [] := by
    rw [boundary, ways_assert]
    simp [hword c hc, hword d hd]
  rw [ways_seq, hnone]
  rfl

/-- Between letters and digits no match begins. -/
theorem later_within (hword : ∀ c, letterOrDigit c = true → P.word c = true) {p : SecretPattern}
    (hp : p ∈ (SECRET_PATTERNS P).tail) {c d : Char} (hc : letterOrDigit c = true)
    (hd : letterOrDigit d = true) (t : List Char) : p.pattern.first (some c) (d :: t) = none := by
  have hboundary {r : Regex Char} (hr : p.pattern.regex = seq (boundary P) r) :
      p.pattern.first (some c) (d :: t) = none := by
    rw [Pattern.first, hr, boundary_within hword hc hd]
    rfl
  simp only [SECRET_PATTERNS, List.tail_cons, List.mem_cons, List.not_mem_nil, or_false] at hp
  rcases hp with rfl | rfl | rfl | rfl | rfl | rfl
  · exact hboundary rfl
  · exact hboundary rfl
  · exact hboundary rfl
  · exact hboundary rfl
  · -- A match in JSON begins with a quotation mark.
    rw [Pattern.first, List.head?_eq_none_iff, List.eq_nil_iff_forall_not_mem]
    intro w hw
    obtain ⟨a, ha, b, hb, rfl⟩ := mem_ways_seq.mp hw
    obtain ⟨e, he, rfl⟩ := mem_ways_group.mp ha
    obtain ⟨f, hf, g, hg, rfl⟩ := mem_ways_seq.mp he
    obtain ⟨i, hi, j, hj, rfl⟩ := mem_ways_seq.mp hf
    obtain ⟨q, rest, hsplit, hq, rfl⟩ := mem_ways_one.mp hi
    obtain ⟨rfl, -⟩ := List.cons.inj hsplit
    exact foldCase_ne_quote hd (of_decide_eq_true hq)
  · exact hboundary rfl

/-! ### Passes -/

/-- Closer to the end than a word is long, letters and digits stand on both sides. -/
theorem split_within (hs : ∀ c ∈ s, letterOrDigit c = true) (hlen : 32 ≤ s.length)
    {a b : List Char} (hab : u ++ s = a ++ b) (hb : b ≠ []) (hshort : b.length < 32) :
    ∃ a' c d b', a = a' ++ [c] ∧ b = d :: b' ∧ letterOrDigit c = true ∧
      letterOrDigit d = true := by
  obtain ⟨a', rfl⟩ : u <+: a := by
    apply List.prefix_of_prefix_length_le (List.prefix_append u s) (hab ▸ List.prefix_append a b)
    have hsum := congrArg List.length hab
    rw [List.length_append, List.length_append] at hsum
    omega
  rw [List.append_assoc, List.append_cancel_left_eq] at hab
  obtain ⟨d, b, rfl⟩ := List.exists_cons_of_ne_nil hb
  rcases List.eq_nil_or_concat a' with rfl | ⟨a', c, rfl⟩
  · rw [hab, List.nil_append] at hlen
    omega
  · rw [List.concat_eq_append] at hab ⊢
    refine ⟨u ++ a', c, d, b, (List.append_assoc ..).symm, rfl, ?_, ?_⟩
    · exact hs c (by rw [hab]; simp)
    · exact hs d (by rw [hab]; simp)

/-- A pass leaves the text in front of the first word, up to the end of a run of letters and digits
that is longer than the words. -/
theorem prefix_sub (hword : ∀ c, letterOrDigit c = true → P.word c = true) {p : SecretPattern}
    (hp : p ∈ (SECRET_PATTERNS P).tail) (hs : ∀ c ∈ s, letterOrDigit c = true)
    (hlen : 32 ≤ s.length) (hfree : WordFree (u ++ s)) (ht : u ++ s <+: t) :
    u ++ s <+: p.pattern.sub p.fill t := by
  obtain ⟨v, rfl⟩ := ht
  suffices h : (u ++ s).map id <+: p.pattern.sub p.fill (u ++ s ++ v) by rwa [List.map_id] at h
  apply Pattern.prefix_scan
  intro a b w hab hb hfirst
  rw [List.map_id]
  obtain ⟨z, x, hx, hlater, hkept⟩ := later_first P hp hfirst
  have hfront : z ++ x <+: b ++ v :=
    hx.trans (Pattern.first_split hfirst ▸ List.prefix_append w.taken w.rest)
  rcases Nat.lt_or_ge b.length (z ++ x).length with hshort | hlong
  · rcases hkept with rfl | hkept
    · -- The word reaches over the end, so the match begins within the letters and digits.
      rw [List.nil_append] at hshort
      obtain ⟨a, c, d, b, rfl, rfl, hc, hd⟩ :=
        split_within hs hlen hab hb (hshort.trans_le hlater.length_le)
      rw [List.getLast?_concat] at hfirst
      have hnone := later_within hword hp hc hd (b ++ v)
      exact absurd (hnone.symm.trans hfirst) (by simp)
    · exact (List.prefix_of_prefix_length_le (List.prefix_append b v) hfront
        (Nat.le_of_lt hshort)).trans hkept
  · have hbx : z ++ x <+: b :=
      List.prefix_of_prefix_length_le hfront (List.prefix_append b v) hlong
    exact absurd hlater (hfree x (hab ▸ ((List.suffix_append z x).isInfix.trans hbx.isInfix).trans
      (List.suffix_append a b).isInfix))

/-- The text in front of the first word stays in all the passes. -/
theorem prefix_later (hword : ∀ c, letterOrDigit c = true → P.word c = true)
    {ps : List SecretPattern} (hps : ps ⊆ (SECRET_PATTERNS P).tail)
    (hs : ∀ c ∈ s, letterOrDigit c = true) (hlen : 32 ≤ s.length) (hfree : WordFree (u ++ s))
    (ht : u ++ s <+: t) : u ++ s <+: ps.foldl (fun t p => p.pattern.sub p.fill t) t := by
  induction ps generalizing t with
  | nil => exact ht
  | cons p ps ih =>
    obtain ⟨hp, hps⟩ := List.cons_subset.mp hps
    exact ih hps (prefix_sub hword hp hs hlen hfree ht)

end GeoPlatform.Api
