import GeoPlatform.Api.LaterPatterns
import GeoPlatform.Api.SwallowedCredentials

/-! Which texts show the secret part of a credential after all seven passes. -/
namespace GeoPlatform.Api
open GeoPlatform.ArcGIS GeoPlatform.Convex Regex

/-! ### The later passes -/

/-- A pattern whose replacement begins with its group. -/
def groupRedaction (p : SecretPattern) (hgroup : p.group1 = true)
    (hfront : p.pattern.regex.groupInFront = true) : Redaction Char where
  pattern := p.pattern
  fill := p.fill
  kept w := w.group.getD []
  mark := p.text.toList
  kept_front _ _ _ h := group_front hfront (List.mem_of_head? h)
  fill_eq _ _ _ _ := by rw [SecretPattern.fill, if_pos hgroup]

variable (P : PyText)

def arcgisTokens : Redaction Char where
  pattern := (ARCGIS_TOKENS P).pattern
  fill := (ARCGIS_TOKENS P).fill
  kept _ := []
  mark := (ARCGIS_TOKENS P).text.toList
  kept_front _ _ _ _ := List.nil_prefix
  fill_eq _ _ _ _ := rfl

def laterRedactions : List (Redaction Char) :=
  [arcgisTokens P, groupRedaction (AUTHORIZATION P) rfl rfl, groupRedaction (COOKIES P) rfl rfl,
    groupRedaction (FORM_VALUES P) rfl rfl, groupRedaction (JSON_VALUES P) rfl rfl,
    groupRedaction (URL_CREDENTIALS P) rfl rfl]

theorem redactText_eq_passes (text : List Char) :
    redactText P text = Redaction.passes (credentials :: laterRedactions P) text := rfl

variable {P} {s : List Char}

/-- The ends of a mark are no letters or digits, and what is between them is short. -/
def isMark : List Char → Bool
  | x :: rest => !letterOrDigit x && rest.getLast?.any (!letterOrDigit ·) && rest.length ≤ 32
  | [] => false

theorem separates_of_isMark (hs : ∀ c ∈ s, letterOrDigit c = true) (hlen : 32 ≤ s.length)
    {mark : List Char} (h : isMark mark = true) : Separates mark s := by
  cases mark with
  | nil => cases h
  | cons x rest =>
    simp only [isMark, Bool.and_eq_true, Option.any_eq_true, Bool.not_eq_true',
      decide_eq_true_eq] at h
    obtain ⟨⟨hx, y, hlast, hy⟩, hshort⟩ := h
    obtain ⟨inner, rfl⟩ := List.getLast?_eq_some_iff.mp hlast
    rw [List.length_append, List.length_singleton] at hshort
    refine ⟨x, inner, y, rfl, fun hm => ?_, fun hm => ?_, fun hm => absurd hm.length_le (by omega)⟩
    · exact absurd (hs x hm) (by simp [hx])
    · exact absurd (hs y hm) (by simp [hy])

theorem later_texts : (SECRET_PATTERNS P).tail.map SecretPattern.text =
    ["[REDACTED_ARCGIS_TOKEN]", " [REDACTED]", "[REDACTED]", "=[REDACTED]", "[REDACTED]\"",
      "[REDACTED]@"] := rfl

theorem later_marks : (laterRedactions P).map Redaction.mark =
    ((SECRET_PATTERNS P).tail.map SecretPattern.text).map String.toList := rfl

/-- No mark contains a secret, and no secret contains an end of a mark. -/
theorem marks_separate (hs : ∀ c ∈ s, letterOrDigit c = true) (hlen : 32 ≤ s.length) :
    ∀ r ∈ credentials :: laterRedactions P, Separates r.mark s := by
  intro r hr
  apply separates_of_isMark hs hlen
  rcases List.mem_cons.mp hr with rfl | hr
  · show isMark "[REDACTED]".toList = true
    decide
  · have hmem : r.mark ∈ (laterRedactions P).map Redaction.mark := List.mem_map_of_mem hr
    rw [later_marks, later_texts] at hmem
    generalize r.mark = mark at hmem
    revert mark
    decide

/-! ### Secrets -/

theorem secret_of_ways {n : ℕ} {prev : Option Char} {t : List Char} {w : Way Char}
    (h : w ∈ (seq (rep letterOrDigit n (some n)) finish).ways prev t) (hw : w.rest = []) :
    (∀ c ∈ t, letterOrDigit c = true) ∧ t.length = n := by
  obtain ⟨a, ha, b, hb, rfl⟩ := mem_ways_seq.mp h
  obtain ⟨-, rfl⟩ := mem_ways_assert.mp hb
  obtain ⟨hsplit, hall, -, hleast, hmost⟩ := mem_ways_rep ha
  have hrest : a.rest = [] := hw
  rw [hrest, List.append_nil] at hsplit
  rw [← hsplit]
  exact ⟨hall, Nat.le_antisymm hmost hleast⟩

theorem Credential.secret_shape (c : Credential) :
    (∀ d ∈ c.secret, letterOrDigit d = true) ∧ c.secret.length = secretLength c.kind := by
  have htail : ∃ t, t <:+ c.token ∧ (∀ d ∈ t, letterOrDigit d = true) ∧
      t.length = secretLength c.kind := by
    have hvalid := c.valid
    unfold credentialKind at hvalid
    split at hvalid
    next hkey =>
      rw [← Option.some.inj hvalid]
      obtain ⟨w, hw, hend⟩ := List.any_eq_true.mp hkey
      obtain ⟨a, ha, w1, hw1, rfl⟩ := mem_ways_seq.mp hw
      obtain ⟨b, hb, w2, hw2, rfl⟩ := mem_ways_seq.mp hw1
      obtain ⟨x, hx, w3, hw3, rfl⟩ := mem_ways_seq.mp hw2
      obtain ⟨hall, hlen⟩ := secret_of_ways hw3 (List.isEmpty_iff.mp hend)
      refine ⟨x.rest, ?_, hall, hlen⟩
      exact ((ways_suffix hx).trans (ways_suffix hb)).trans (ways_suffix ha)
    next =>
      split at hvalid
      next htoken =>
        rw [← Option.some.inj hvalid]
        obtain ⟨w, hw, hend⟩ := List.any_eq_true.mp htoken
        obtain ⟨a, ha, w1, hw1, rfl⟩ := mem_ways_seq.mp hw
        obtain ⟨b, hb, w2, hw2, rfl⟩ := mem_ways_seq.mp hw1
        obtain ⟨hall, hlen⟩ := secret_of_ways hw2 (List.isEmpty_iff.mp hend)
        exact ⟨b.rest, (ways_suffix hb).trans (ways_suffix ha), hall, hlen⟩
      next => cases hvalid
  obtain ⟨t, ⟨u, hu⟩, hall, hlen⟩ := htail
  have hsecret : c.secret = t := by
    rw [Credential.secret, ← hu, List.length_append, hlen, Nat.add_sub_cancel, List.drop_left]
  rw [hsecret]
  exact ⟨hall, hlen⟩

theorem Credential.secret_within (c : Credential) : c.secret <:+: c.token :=
  (List.drop_suffix _ _).isInfix

theorem Credential.secret_length (c : Credential) : 32 ≤ c.secret.length := by
  rw [c.secret_shape.2]
  cases c.kind <;> decide

/-- Where the first pattern covers every place of the secret part, no later pass shows it. -/
theorem hides_of_covered (c : Credential) {text : List Char} (hwithin : c.secret <:+: text)
    (h : ∀ u v, text = u ++ (c.secret ++ v) → Covered u) : ¬ c.secret <:+: redactText P text := by
  obtain ⟨hs, -⟩ := c.secret_shape
  have hlen := c.secret_length
  have hfirst : ¬ credentials.Leaves text c.secret := by
    rw [credentials_leave_iff hs (by omega)]
    rintro ⟨u, v, hsplit, hu⟩
    exact hu (h u v hsplit)
  rw [redactText_eq_passes, Redaction.notInfix_passes_iff (marks_separate hs hlen) hwithin]
  exact ⟨[], credentials, laterRedactions P, rfl, hfirst⟩

/-- A place that the first pattern does not cover shows the secret part, unless a word of a later
pattern stands in front. -/
theorem shows_of_wordFree (hword : ∀ c, letterOrDigit c = true → P.word c = true) (c : Credential)
    {u v : List Char} (hu : ¬ Covered u) (hfree : WordFree (u ++ c.secret)) :
    c.secret <:+: redactText P (u ++ (c.secret ++ v)) := by
  obtain ⟨hs, -⟩ := c.secret_shape
  have hlen := c.secret_length
  obtain ⟨u', hfront, hwords⟩ :=
    front_of_leaves hs (by omega) none _ [] u v (clear_nil _) rfl hu
  have hfree' : WordFree (u' ++ c.secret) := fun x hx hlater =>
    hfree x (hwords x hlater.separates [] hx) hlater
  have hlast := prefix_later hword (List.Subset.refl _) hs hlen hfree' hfront
  exact (List.suffix_append u' c.secret).isInfix.trans hlast.isInfix

/-- The output does not show the secret part of a credential if the first pattern covers every
place of the text where it stands. It does show it if the secret part stands at a place that the
first pattern does not cover and that no word of a later pattern stands in front of. -/
theorem redactText_hides (P : PyText) (c : Credential) (A B : List Char) :
    ((∀ u v, A ++ c.token ++ B = u ++ (c.secret ++ v) → Covered u) →
      ¬ c.secret <:+: redactText P (A ++ c.token ++ B)) ∧
    ((∀ d, letterOrDigit d = true → P.word d = true) →
      ∀ u v, A ++ c.token ++ B = u ++ (c.secret ++ v) → ¬ Covered u → WordFree (u ++ c.secret) →
        c.secret <:+: redactText P (A ++ c.token ++ B)) := by
  constructor
  · exact hides_of_covered c (c.secret_within.trans ⟨A, B, rfl⟩)
  · intro hword u v hsplit hu hfree
    rw [hsplit]
    exact shows_of_wordFree hword c hu hfree

/-! ### One key -/

def keyOfKs : Credential :=
  ⟨"geo_".toList ++ List.replicate 32 'k', .key, by decide +kernel⟩

theorem keyOfKs_secret : keyOfKs.secret = List.replicate 32 'k' := by decide +kernel

/-- Behind a word the secret part stands at its own place only. -/
theorem keyOfKs_place {u v : List Char}
    (h : "key ".toList ++ keyOfKs.token ++ [] = u ++ (keyOfKs.secret ++ v)) :
    u = "key ".toList ++ (GEO ++ []) := by
  rw [keyOfKs_secret] at h
  have hall : ∀ n ∈ List.range 9, List.replicate 32 'k' <+:
      ("key ".toList ++ keyOfKs.token ++ []).drop n → n = 8 := by decide +kernel
  have hplace : u.length = 8 := by
    apply hall
    · have hlen : 40 = (u ++ (List.replicate 32 'k' ++ v)).length := congrArg List.length h
      rw [List.length_append, List.length_append, List.length_replicate] at hlen
      exact List.mem_range.mpr (by omega)
    · rw [h, List.drop_left]
      exact List.prefix_append ..
  have htake := congrArg (List.take 8) h
  rw [List.take_left' hplace] at htake
  exact htake.symm

/-- The key is hidden behind a word, and shown behind a text that takes its beginning. -/
theorem redactText_hides_keyOfKs :
    ¬ keyOfKs.secret <:+: redactText asciiTables ("key ".toList ++ keyOfKs.token ++ []) ∧
      keyOfKs.secret <:+:
        redactText asciiTables ("geo_aaaaaaaaaa".toList ++ keyOfKs.token ++ []) := by
  have hword : ∀ d, letterOrDigit d = true → asciiTables.word d = true := fun d hd => by
    simpa [asciiTables, letterOrDigit] using Or.inl hd
  have hkey := redactText_hides asciiTables keyOfKs
  refine ⟨(hkey "key ".toList []).1 fun u v hsplit => ?_,
    (hkey "geo_aaaaaaaaaa".toList []).2 hword ("geo_aaaaaaaaaa".toList ++ (GEO ++ [])) [] ?_ ?_
      ?_⟩
  · rw [keyOfKs_place hsplit, covered_credential_iff (List.mem_cons_self ..), Swallowed]
    rintro ⟨z, x, r, heq, -, -, hr, -⟩
    have hfour : 4 = (z ++ (GEO ++ (x ++ r))).length := congrArg List.length heq
    simp only [List.length_append] at hfour
    omega
  · rw [keyOfKs_secret]
    rfl
  · rw [covered_credential_iff (List.mem_cons_self ..), not_not, Swallowed]
    have hletters : ∀ d ∈ List.replicate 10 'a', letterOrDigit d = true := by
      intro d hd
      rw [List.eq_of_mem_replicate hd]
      rfl
    refine ⟨[], [], List.replicate 10 'a', rfl, List.mem_cons_self .., hletters, by simp, ?_⟩
    rw [Swallowed]
    rintro ⟨z, x, r, heq, -⟩
    exact absurd (congrArg List.length heq) (by simp [GEO])
  · rw [keyOfKs_secret]
    decide +kernel

/-- A text that ends like a credential takes the beginning of the API key behind it. -/
theorem redactText_swallowed_key : ¬ ∀ (c : Credential) (A B : List Char),
    ¬ c.secret <:+: redactText asciiTables (A ++ c.token ++ B) := by
  intro h
  apply h keyOfKs "geo_aaaaaaaaaa".toList []
  decide +kernel

end GeoPlatform.Api
