import GeoPlatform.Api.LogRedaction
import GeoPlatform.Library.RegexTexts
import GeoPlatform.Library.Rejection

/-! The formats of credentials on both sides: how the Convex functions make and check them
(`lib/keys.ts`, `lib/crypto.ts`), and how the API tells them apart (`core/security.py`). -/
namespace GeoPlatform.Api
open GeoPlatform.Convex Regex

/-! ### Making credentials -/

def BASE62 : List Char := "ABCDEFGHIJKLMNOPQRSTUVWXYZabcdefghijklmnopqrstuvwxyz0123456789".toList

/-- Bytes from 248 = 62 * 4 on are rejected. -/
def UNBIASED_LIMIT : ℕ := 248

def byteLimit (alphabet : List Char) : ℕ :=
  if alphabet = BASE62 then UNBIASED_LIMIT else 256 - 256 % alphabet.length

/-- The character of a byte, if it is not rejected. -/
def charOf (alphabet : List Char) (byte : UInt8) : Option Char :=
  if byte.toNat < byteLimit alphabet then alphabet[byte.toNat % alphabet.length]? else none

/-- What the `k`th call of `getRandomValues` writes into a buffer of `size` bytes. -/
def getRandomValues (bytes : ℕ → UInt8) (size k : ℕ) : List UInt8 :=
  (List.range size).map fun i => bytes (size * k + i)

/-- The loop ends within that many turns, or not. -/
def randomString (length : ℕ) (alphabet : List Char) (bytes : ℕ → UInt8) (turns : ℕ) :
    Option (List Char) :=
  Rejection.rounds (charOf alphabet) length (getRandomValues bytes (length * 2)) turns 0 []

def KEY_PREFIX : List Char := "geo_".toList
def KEY_SECRET_LENGTH : ℕ := 32
def KEY_VISIBLE_CHARS : ℕ := 4
def PLAYGROUND_TOKEN_PREFIX : List Char := "geo_pt_".toList
def PLAYGROUND_TOKEN_LENGTH : ℕ := 40

def generateApiKey (bytes : ℕ → UInt8) (turns : ℕ) : Option (List Char) :=
  (randomString KEY_SECRET_LENGTH BASE62 bytes turns).map (KEY_PREFIX ++ ·)

def generatePlaygroundToken (bytes : ℕ → UInt8) (turns : ℕ) : Option (List Char) :=
  (randomString PLAYGROUND_TOKEN_LENGTH BASE62 bytes turns).map (PLAYGROUND_TOKEN_PREFIX ++ ·)

/-! ### Reading credentials -/

/-- `$` matches at the end of the text only. -/
def atEnd : Regex Char := assert fun _ t => t = []

def LEGACY_TYPE_PREFIX : Regex Char :=
  seq start (seq (word "geo_") (opt (anyOf ["live_", "test_"])))

def VALID_API_KEY : Regex Char :=
  seq start (seq (word "geo_") (seq (opt (seq (anyOf ["live", "test"]) (word "_")))
    (seq (rep letterOrDigit 32 (some 32)) atEnd)))

def isValidApiKey (secret : List Char) : Bool := VALID_API_KEY.test secret

/-- Characters count as one, as they do in texts within UTF-16's basic plane. -/
def keyPrefix (secret : List Char) : List Char :=
  let head := ((LEGACY_TYPE_PREFIX.search none secret).map Way.taken).getD []
  secret.take (head.length + KEY_VISIBLE_CHARS)

/-! ### What the expressions accept -/

/-- The marks of older keys; newer ones have none. -/
def TYPE_MARKS : List (List Char) := ["live_".toList, "test_".toList, []]

/-- `n` letters or digits. -/
structure IsSecret (n : ℕ) (s : List Char) : Prop where
  alphanumeric : ∀ c ∈ s, letterOrDigit c = true
  length : s.length = n

theorem reads_secret (n : ℕ) (p : List Char → Bool) :
    (seq (rep letterOrDigit n (some n)) (assert fun _ t => p t)).Reads fun a rest =>
      IsSecret n a ∧ p rest = true := by
  refine ((reads_rep letterOrDigit n n).seq (reads_assert p)).congr fun a rest => ?_
  constructor
  · rintro ⟨b, c, rfl, ⟨hall, hleast, hmost⟩, rfl, hp⟩
    rw [List.append_nil]
    exact ⟨⟨hall, Nat.le_antisymm hmost hleast⟩, hp⟩
  · rintro ⟨h, hp⟩
    exact ⟨a, [], by simp, ⟨h.alphanumeric, h.length.ge, h.length.le⟩, rfl, hp⟩

theorem reads_mark : (opt (seq (anyOf ["live", "test"]) (word "_"))).Reads fun a _ =>
    a ∈ TYPE_MARKS := by
  have hnone : (assert fun _ _ => false : Regex Char).Reads fun _ _ => False :=
    (reads_assert fun _ => false).congr fun a rest => by simp
  have hany := (reads_lit "live".toList).alt ((reads_lit "test".toList).alt hnone)
  refine (hany.seq (reads_lit "_".toList)).opt.congr fun a rest => ?_
  simp only [TYPE_MARKS, List.mem_cons, List.not_mem_nil, or_false]
  constructor
  · rintro (⟨b, c, rfl, rfl | rfl, rfl⟩ | rfl)
    · exact Or.inl rfl
    · exact Or.inr (Or.inl rfl)
    · exact Or.inr (Or.inr rfl)
  · rintro (rfl | rfl | rfl)
    · exact Or.inl ⟨_, _, rfl, Or.inl rfl, rfl⟩
    · exact Or.inl ⟨_, _, rfl, Or.inr rfl, rfl⟩
    · exact Or.inr rfl

/-- A key behind a mark, and what may follow it. -/
def IsKey (token : List Char) : Prop :=
  ∃ mark ∈ TYPE_MARKS, ∃ s, IsSecret KEY_SECRET_LENGTH s ∧ token = KEY_PREFIX ++ (mark ++ s)

theorem reads_key (p : List Char → Bool) :
    (seq (word "geo_") (seq (opt (seq (anyOf ["live", "test"]) (word "_")))
      (seq (rep letterOrDigit 32 (some 32)) (assert fun _ t => p t)))).Reads fun a rest =>
        IsKey a ∧ p rest = true := by
  refine ((reads_lit "geo_".toList).seq (reads_mark.seq (reads_secret 32 p))).congr
    fun a rest => ?_
  constructor
  · rintro ⟨b, c, rfl, rfl, mark, s, rfl, hmark, hs, hp⟩
    exact ⟨⟨mark, hmark, s, hs, rfl⟩, hp⟩
  · rintro ⟨⟨mark, hmark, s, hs, rfl⟩, hp⟩
    exact ⟨_, _, rfl, rfl, mark, s, rfl, hmark, hs, hp⟩

theorem fullmatch_key (token : List Char) :
    API_KEY_PATTERN.fullmatch token = true ↔ IsKey token := by
  have h := (reads_key fun t => t = [] || t = ['\n']).fullmatch token
  exact h.trans (by simp)

theorem isValidApiKey_iff (secret : List Char) : isValidApiKey secret = true ↔ IsKey secret := by
  have h := (reads_key fun t => t = []).test secret
  refine h.trans ⟨?_, fun hkey => ⟨secret, [], by simp, hkey, rfl⟩⟩
  rintro ⟨a, rest, rfl, hkey, hend⟩
  obtain rfl : rest = [] := by simpa using hend
  rwa [List.append_nil]

theorem fullmatch_token (token : List Char) : PLAYGROUND_TOKEN_PATTERN.fullmatch token = true ↔
    ∃ s, IsSecret PLAYGROUND_TOKEN_LENGTH s ∧ token = PLAYGROUND_TOKEN_PREFIX ++ s := by
  have h := ((reads_lit "geo_pt_".toList).seq
    (reads_secret 40 fun t => t = [] || t = ['\n'])).fullmatch token
  refine h.trans ⟨?_, ?_⟩
  · rintro ⟨b, s, rfl, rfl, hs, -⟩
    exact ⟨s, hs, rfl⟩
  · rintro ⟨s, hs, rfl⟩
    exact ⟨_, s, rfl, rfl, hs, rfl⟩

theorem mark_short : ∀ mark ∈ TYPE_MARKS, mark.length ≤ 5 := by decide

theorem length_KEY_PREFIX : KEY_PREFIX.length = 4 := by decide +kernel

theorem length_PLAYGROUND_TOKEN_PREFIX : PLAYGROUND_TOKEN_PREFIX.length = 7 := by decide +kernel

/-- Keys are shorter than tokens. -/
theorem not_both (token : List Char) : ¬ (API_KEY_PATTERN.fullmatch token = true ∧
    PLAYGROUND_TOKEN_PATTERN.fullmatch token = true) := by
  rw [fullmatch_key, fullmatch_token]
  rintro ⟨⟨mark, hmark, s, hs, hkey⟩, s', hs', htoken⟩
  have hlength := congrArg List.length (hkey.symm.trans htoken)
  have hshort := mark_short mark hmark
  simp only [List.length_append, hs.length, hs'.length, length_KEY_PREFIX,
    length_PLAYGROUND_TOKEN_PREFIX, KEY_SECRET_LENGTH, PLAYGROUND_TOKEN_LENGTH] at hlength
  omega

theorem credentialKind_key (token : List Char) :
    credentialKind token = some .key ↔ IsKey token := by
  rw [← fullmatch_key, credentialKind]
  split_ifs <;> simp_all

theorem credentialKind_playground (token : List Char) : credentialKind token = some .playground ↔
    ∃ s, IsSecret PLAYGROUND_TOKEN_LENGTH s ∧ token = PLAYGROUND_TOKEN_PREFIX ++ s := by
  rw [← fullmatch_token, credentialKind]
  have hboth := not_both token
  split_ifs <;> simp_all

/-! ### The part of a key that is shown -/

/-- The first of the marks with which the text begins. -/
theorem mark_head (prev : Option Char) (t : List Char) :
    ((opt (anyOf ["live_", "test_"])).ways prev t).head? =
      (TYPE_MARKS.find? (· <+: t)).map fun mark =>
        (⟨mark, none, t.drop mark.length⟩ : Way Char) := by
  show (((lit "live_".toList).ways prev t ++ ((lit "test_".toList).ways prev t ++ [])) ++
    [(⟨[], none, t⟩ : Way Char)]).head? = _
  rw [ways_lit, ways_lit, TYPE_MARKS]
  generalize "live_".toList = live
  generalize "test_".toList = test
  by_cases hlive : live <+: t
  · simp [hlive]
  · by_cases htest : test <+: t <;> simp [hlive, htest]

/-- A secret does not begin with a mark: there is no underscore in it. -/
theorem find_mark {mark s : List Char} (hmark : mark ∈ TYPE_MARKS) {n : ℕ} (hs : IsSecret n s) :
    TYPE_MARKS.find? (· <+: mark ++ s) = some mark := by
  have hunderscore {m : List Char} (hm : '_' ∈ m) : ¬ m <+: s := by
    intro hfront
    have hbad := hs.alphanumeric '_' (hfront.subset hm)
    exact absurd hbad (by decide)
  have hlive : ¬ "live_".toList <+: s := hunderscore (by decide)
  have htest : ¬ "test_".toList <+: s := hunderscore (by decide)
  have hapart : ¬ "live_".toList <+: "test_".toList ++ s := fun h =>
    absurd (List.prefix_of_prefix_length_le h (List.prefix_append ..) (by decide)) (by decide)
  simp only [TYPE_MARKS, List.mem_cons, List.not_mem_nil, or_false] at hmark ⊢
  generalize "live_".toList = live at *
  generalize "test_".toList = test at *
  rcases hmark with rfl | rfl | rfl
  · simp
  · simp [hapart]
  · simp [hlive, htest]

theorem keyPrefix_eq {mark s : List Char} (hmark : mark ∈ TYPE_MARKS) {n : ℕ}
    (hs : IsSecret n s) :
    keyPrefix (KEY_PREFIX ++ (mark ++ s)) = KEY_PREFIX ++ (mark ++ s.take KEY_VISIBLE_CHARS) := by
  have hgeo : (word "geo_").ways none (KEY_PREFIX ++ (mark ++ s)) =
      [⟨KEY_PREFIX, none, mark ++ s⟩] := by
    show (lit KEY_PREFIX).ways none (KEY_PREFIX ++ (mark ++ s)) = _
    rw [ways_lit, if_pos (List.prefix_append ..), List.drop_left]
  have hfound : LEGACY_TYPE_PREFIX.search none (KEY_PREFIX ++ (mark ++ s)) =
      some ⟨KEY_PREFIX ++ mark, none, s⟩ := by
    refine (search_atStart _ _).trans ?_
    rw [ways_seq_head, hgeo, List.findSome?_singleton, mark_head, find_mark hmark hs]
    simp [Way.then]
  rw [keyPrefix, hfound, Option.map_some, Option.getD_some, ← List.append_assoc,
    List.take_length_add_append, List.append_assoc]

/-! ### What the generators make -/

/-- How many of the first `n` bytes are not rejected. -/
def usableBytes (bytes : ℕ → UInt8) (n : ℕ) : ℕ :=
  (List.range n).countP fun i => (bytes i).toNat < UNBIASED_LIMIT

theorem base62_alphanumeric : BASE62.all letterOrDigit = true := by decide

theorem charOf_mem {byte : UInt8} {c : Char} (h : charOf BASE62 byte = some c) : c ∈ BASE62 := by
  unfold charOf at h
  split at h
  · exact List.mem_of_getElem? h
  · cases h

theorem charOf_isSome (byte : UInt8) : (charOf BASE62 byte).isSome =
    decide (byte.toNat < UNBIASED_LIMIT) := by
  have hlimit : byteLimit BASE62 = UNBIASED_LIMIT := if_pos rfl
  have hindex : byte.toNat % BASE62.length < BASE62.length := Nat.mod_lt _ (by decide)
  rw [charOf, hlimit]
  split_ifs with h <;> simp [h, hindex]

/-- Buffer after buffer, the bytes come in their order. -/
theorem flatMap_getRandomValues (bytes : ℕ → UInt8) (size turns : ℕ) :
    (List.range turns).flatMap (getRandomValues bytes size) =
      (List.range (size * turns)).map bytes := by
  induction turns with
  | zero => simp
  | succ turns ih =>
    rw [List.range_succ, List.flatMap_append, ih, List.flatMap_singleton, Nat.mul_succ,
      List.range_add, List.map_append, List.map_map]
    rfl

theorem length_accepted (bytes : ℕ → UInt8) (size turns : ℕ) :
    (Rejection.accepted (charOf BASE62) (getRandomValues bytes size) turns).length =
      usableBytes bytes (size * turns) := by
  rw [Rejection.accepted, flatMap_getRandomValues, List.length_filterMap_eq_countP, List.countP_map,
    usableBytes]
  exact List.countP_congr fun i _ => by simp [charOf_isSome]

theorem randomString_eq (length : ℕ) (bytes : ℕ → UInt8) (turns : ℕ) :
    randomString length BASE62 bytes turns =
      if length ≤ usableBytes bytes (length * 2 * turns) then
        some ((Rejection.accepted (charOf BASE62) (getRandomValues bytes (length * 2)) turns).take
          length)
      else none := by
  rw [randomString, Rejection.rounds_from_nothing, length_accepted]

theorem randomString_secret {length turns : ℕ} {bytes : ℕ → UInt8} {s : List Char}
    (h : randomString length BASE62 bytes turns = some s) : IsSecret length s := by
  rw [randomString_eq] at h
  split_ifs at h with henough
  cases h
  constructor
  · intro c hc
    obtain ⟨byte, -, hbyte⟩ := List.mem_filterMap.mp (List.mem_of_mem_take hc)
    exact List.all_eq_true.mp base62_alphanumeric c (charOf_mem hbyte)
  · rw [List.length_take, length_accepted]
    omega

theorem usableBytes_mono (bytes : ℕ → UInt8) {m n : ℕ} (h : m ≤ n) :
    usableBytes bytes m ≤ usableBytes bytes n :=
  (List.range_sublist.mpr h).countP_le

/-- The loop ends exactly if the source has enough usable bytes. It ends for good, and what it
makes is of its kind. -/
theorem generated_iff {length : ℕ} (hlength : 0 < length) {front : List Char}
    {kind : CredentialKind}
    (hkind : ∀ s, IsSecret length s → credentialKind (front ++ s) = some kind)
    (bytes : ℕ → UInt8) : (∃ n, length ≤ usableBytes bytes n) ↔ ∃ turns made,
      (∀ more ≥ turns, (randomString length BASE62 bytes more).map (front ++ ·) = some made) ∧
        credentialKind made = some kind := by
  constructor
  · rintro ⟨n, hn⟩
    have hturns : n ≤ length * 2 * n := Nat.le_mul_of_pos_left n (by omega)
    have henough : length ≤ usableBytes bytes (length * 2 * n) :=
      hn.trans (usableBytes_mono bytes hturns)
    have hend := randomString_eq length bytes n
    rw [if_pos henough] at hend
    refine ⟨n, _, fun more hmore => ?_, hkind _ (randomString_secret hend)⟩
    rw [randomString, Rejection.rounds_more hend hmore, Option.map_some]
  · rintro ⟨turns, made, hend, -⟩
    obtain ⟨s, hs, -⟩ := Option.map_eq_some_iff.mp (hend turns le_rfl)
    rw [randomString_eq] at hs
    split_ifs at hs with henough
    exact ⟨_, henough⟩

/-- Both sides agree on the formats: on what a key is, on what is shown of it, and on the kinds of
what is made. A source with too few usable bytes makes nothing. -/
theorem formats_agree :
    (∀ s, isValidApiKey s = true ↔ credentialKind s = some .key) ∧
      (∀ bytes, (∃ n, KEY_SECRET_LENGTH ≤ usableBytes bytes n) ↔ ∃ turns key,
        (∀ more ≥ turns, generateApiKey bytes more = some key) ∧
          credentialKind key = some .key) ∧
      (∀ bytes, (∃ n, PLAYGROUND_TOKEN_LENGTH ≤ usableBytes bytes n) ↔ ∃ turns token,
        (∀ more ≥ turns, generatePlaygroundToken bytes more = some token) ∧
          credentialKind token = some .playground) ∧
      (∀ s, ¬ (API_KEY_PATTERN.fullmatch s = true ∧
        PLAYGROUND_TOKEN_PATTERN.fullmatch s = true)) ∧
      ∀ secret, isValidApiKey secret = true → ∃ mark ∈ TYPE_MARKS, ∃ s,
        IsSecret KEY_SECRET_LENGTH s ∧ secret = KEY_PREFIX ++ (mark ++ s) ∧
          keyPrefix secret = KEY_PREFIX ++ (mark ++ s.take 4) := by
  refine ⟨fun s => ?_, fun bytes => ?_, fun bytes => ?_, not_both, fun secret h => ?_⟩
  · rw [isValidApiKey_iff, credentialKind_key]
  · refine generated_iff (by decide) (fun s hs => ?_) bytes
    exact (credentialKind_key _).mpr ⟨[], by decide, s, hs, rfl⟩
  · refine generated_iff (by decide) (fun s hs => ?_) bytes
    exact (credentialKind_playground _).mpr ⟨s, hs, rfl⟩
  · obtain ⟨mark, hmark, s, hs, rfl⟩ := (isValidApiKey_iff secret).mp h
    exact ⟨mark, hmark, s, hs, rfl, keyPrefix_eq hmark hs⟩

/-- A source whose bytes are all rejected. -/
theorem generateApiKey_rejected : ¬ ∀ bytes : ℕ → UInt8, ∃ turns key,
    generateApiKey bytes turns = some key ∧ credentialKind key = some .key := by
  intro h
  obtain ⟨turns, key, hkey, -⟩ := h fun _ => 255
  obtain ⟨s, hs, -⟩ := Option.map_eq_some_iff.mp hkey
  rw [randomString_eq, usableBytes, List.countP_eq_zero.mpr fun i _ => by decide] at hs
  cases hs

end GeoPlatform.Api
