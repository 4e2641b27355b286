import GeoPlatform.Convex.Keys
import Mathlib.Data.List.Infix

/-! Passwords that are too easy to guess (`lib/commonPasswords.ts`, `auth.ts`). -/
namespace GeoPlatform.Convex

/-! ### Checks of the password alone -/

def COMMON : List String :=
  ["1234567890", "12345678910", "123456789012", "0123456789", "0987654321", "9876543210",
    "1111111111", "0000000000", "1234512345", "1122334455", "123123123123", "1q2w3e4r5t",
    "1qaz2wsx3edc", "qwertyuiop", "qwertyuiop123", "asdfghjkl1", "zxcvbnm123", "qwerty12345",
    "qwerty123456", "password12", "password123", "password1234", "password12345", "passw0rd123",
    "p@ssword123", "p@ssw0rd123", "iloveyou123", "princess123", "sunshine123", "football123",
    "baseball123", "superman123", "trustno1234", "letmein1234", "welcome123", "welcome1234",
    "changeme123", "administrator", "admin123456", "abcdefghij", "abcd123456", "abc1234567",
    "a1b2c3d4e5", "qazwsxedcrfv", "mongolia123", "ulaanbaatar", "ulaanbaatar1", "ulaanbaatar123",
    "geoplatform", "geoplatform1", "geoplatform123",
    "ubhub", "ubhubdev", "ubhubdev1", "ubhubdev123", "ubhublocation", "ubhublocationservice",
    "monmap", "monmap123"]

def SEQUENCES : List String :=
  ["0123456789012345", "9876543210987654", "abcdefghijklmnopqrstuvwxyz",
    "qwertyuiopasdfghjklzxcvbnm"]

/-- What `.` does not match. -/
def lineTerminator (c : Char) : Bool :=
  c = '\n' || c = '\r' || c.toNat = 0x2028 || c.toNat = 0x2029

/-- `/^(.{1,3})\1+$/u`. -/
def repeatsChunk (t : List Char) : Bool :=
  [3, 2, 1].any fun n =>
    let chunk := t.take n
    chunk.all (!lineTerminator ·) && 2 * n ≤ t.length &&
      t = (List.replicate (t.length / n) chunk).flatten

/-- The checks that do not look at the email address. -/
def guessable (lower : String) : Bool :=
  COMMON.contains lower || repeatsChunk lower.toList ||
    SEQUENCES.any fun s => lower.toList <:+: s.toList

/-- A chunk of one to three characters, repeated at least once. -/
theorem repeatsChunk_iff (t : List Char) : repeatsChunk t = true ↔
    ∃ chunk k, chunk ≠ [] ∧ chunk.length ≤ 3 ∧ (∀ c ∈ chunk, lineTerminator c = false) ∧
      2 ≤ k ∧ t = (List.replicate k chunk).flatten := by
  have hlength (k : ℕ) (chunk : List Char) :
      (List.replicate k chunk).flatten.length = k * chunk.length := by
    simp
  constructor
  · intro h
    obtain ⟨n, hn, hchunk⟩ := List.any_eq_true.mp h
    simp only [Bool.and_eq_true, decide_eq_true_eq] at hchunk
    obtain ⟨⟨hall, hlong⟩, ht⟩ := hchunk
    have hbound : 1 ≤ n ∧ n ≤ 3 := by
      simp only [List.mem_cons, List.not_mem_nil, or_false] at hn
      omega
    have htake : (t.take n).length = n := by
      rw [List.length_take]
      omega
    refine ⟨t.take n, t.length / n, ?_, by omega, fun c hc => ?_, ?_, ht⟩
    · rw [← List.length_pos_iff]
      omega
    · simpa using List.all_eq_true.mp hall c hc
    · exact (Nat.le_div_iff_mul_le (by omega)).mpr hlong
  · rintro ⟨chunk, k, hne, hshort, hall, hk, rfl⟩
    have hpos : 0 < chunk.length := List.length_pos_iff.mpr hne
    obtain ⟨k, rfl⟩ := Nat.exists_eq_add_of_le' hk
    have htake : (List.replicate (k + 2) chunk).flatten.take chunk.length = chunk := by
      rw [List.replicate_succ, List.flatten_cons, List.take_left]
    refine List.any_eq_true.mpr ⟨chunk.length, ?_, ?_⟩
    · simp only [List.mem_cons, List.not_mem_nil, or_false]
      omega
    · simp only [htake, hlength, Bool.and_eq_true, decide_eq_true_eq]
      refine ⟨⟨List.all_eq_true.mpr fun c hc => by simp [hall c hc], ?_⟩, ?_⟩
      · exact Nat.mul_le_mul_right _ (by omega)
      · rw [Nat.mul_div_cancel _ hpos]

/-! ### Passwords built from the email address -/

/-- `s.replace(/[^a-z]/g, "")`. -/
def latinLetters (s : String) : List Char := s.toList.filter fun c => 'a' ≤ c && c ≤ 'z'

section Passwords
variable (toLowerCase : String → String)

/-- What stands before the first `@`. -/
def localPart (email : String) : String :=
  toLowerCase (String.ofList (email.toList.takeWhile (· ≠ '@')))

def derivedFrom (email lower : String) : Bool :=
  lower = toLowerCase email ||
    (4 ≤ jsLength (localPart toLowerCase email).toList &&
      latinLetters lower = latinLetters (localPart toLowerCase email))

/-- An empty address counts as none. -/
def isCommonPassword (password : String) (email : Option String) : Bool :=
  let lower := toLowerCase password
  guessable lower || (email.filter (· ≠ "")).any fun email => derivedFrom toLowerCase email lower

def MIN_PASSWORD_LENGTH : ℕ := 10
def MAX_PASSWORD_LENGTH : ℕ := 128

def validatePassword (password : String) (email : Option String) : Except TxError Unit :=
  let length := password.toList.length
  if length < MIN_PASSWORD_LENGTH ∨ MAX_PASSWORD_LENGTH < length then
    .error (.convex "Password must be between 10 and 128 characters.")
  else if isCommonPassword toLowerCase password email then
    .error (.convex "This password is too common or easy to guess. Choose a different one.")
  else .ok ()

theorem isCommonPassword_none (password : String) :
    isCommonPassword toLowerCase password none = guessable (toLowerCase password) := by
  simp [isCommonPassword]

theorem isCommonPassword_some (password email : String) :
    isCommonPassword toLowerCase password (some email) = true ↔
      guessable (toLowerCase password) = true ∨
        email ≠ "" ∧ derivedFrom toLowerCase email (toLowerCase password) = true := by
  by_cases hempty : email = "" <;> simp [isCommonPassword, hempty]

theorem derivedFrom_iff (email lower : String) : derivedFrom toLowerCase email lower = true ↔
    lower = toLowerCase email ∨ (4 ≤ jsLength (localPart toLowerCase email).toList ∧
      latinLetters lower = latinLetters (localPart toLowerCase email)) := by
  simp [derivedFrom]

/-- The address refuses a password that passes without it only where the two agree. -/
theorem validatePassword_some {password email : String}
    (h : validatePassword toLowerCase password none = .ok ()) :
    validatePassword toLowerCase password (some email) = .ok () ↔
      (email ≠ "" → derivedFrom toLowerCase email (toLowerCase password) = false) := by
  unfold validatePassword at h ⊢
  simp only [isCommonPassword_none] at h
  split at h
  · cases h
  · case isFalse hlength =>
    rw [if_neg hlength]
    split at h
    · cases h
    · case isFalse hguess =>
      have hsome := isCommonPassword_some toLowerCase password email
      by_cases hcommon : isCommonPassword toLowerCase password (some email) = true
      · have hderived := (hsome.mp hcommon).resolve_left hguess
        simp [hcommon, hderived]
      · rw [if_neg hcommon]
        simp only [true_iff]
        intro hemail
        by_contra hderived
        exact hcommon (hsome.mpr (Or.inr ⟨hemail, by simpa using hderived⟩))

/-- Only passwords derived from the address are refused because of it, but for two texts without
Latin letters, which agree in having none. -/
theorem isCommonPassword_email_iff (password email : String) :
    (isCommonPassword toLowerCase password (some email) = true →
        isCommonPassword toLowerCase password none = false →
        toLowerCase password = toLowerCase email ∨
          latinLetters (localPart toLowerCase email) ≠ [] ∧
            latinLetters (localPart toLowerCase email) = latinLetters (toLowerCase password)) ↔
      guessable (toLowerCase password) = true ∨ email = "" ∨
        toLowerCase password = toLowerCase email ∨
        jsLength (localPart toLowerCase email).toList < 4 ∨
        latinLetters (toLowerCase password) ≠ [] ∨
        latinLetters (localPart toLowerCase email) ≠ [] := by
  rw [isCommonPassword_none, isCommonPassword_some, derivedFrom_iff]
  constructor
  · intro h
    by_contra hnone
    simp only [not_or, Bool.not_eq_true, not_lt, not_not] at hnone
    obtain ⟨hguess, hemail, hequal, hlong, hpassword, hlocal⟩ := hnone
    rcases h (Or.inr ⟨hemail, Or.inr ⟨hlong, by rw [hpassword, hlocal]⟩⟩) hguess with h | h
    · exact hequal h
    · exact h.1 hlocal
  · intro hcondition hcommon hguess
    obtain ⟨hemail, hequal | ⟨hlong, hletters⟩⟩ := hcommon.resolve_left (by simp [hguess])
    · exact Or.inl hequal
    · rcases hcondition with h | h | h | h | h | h
      · exact absurd h (by simp [hguess])
      · exact absurd h hemail
      · exact Or.inl h
      · omega
      · exact Or.inr ⟨hletters ▸ h, hletters.symm⟩
      · exact Or.inr ⟨h, hletters.symm⟩

end Passwords

/-- Digits only, on both sides of the comparison. -/
theorem isCommonPassword_digits : ¬ ∀ (toLowerCase : String → String) (password email : String),
    isCommonPassword toLowerCase password (some email) = true →
      isCommonPassword toLowerCase password none = false →
      toLowerCase password = toLowerCase email ∨
        latinLetters (localPart toLowerCase email) ≠ [] ∧
          latinLetters (localPart toLowerCase email) = latinLetters (toLowerCase password) := by
  intro h
  have hlower := h (fun s => String.ofList (s.toList.map Char.toLower)) "9182736450"
    "99112233@mail.mn" (by decide) (by decide)
  revert hlower
  decide

end GeoPlatform.Convex
