import GeoPlatform.Convex.HttpActions
import Mathlib.Data.Nat.Bitwise

/-! Who gets past the secrets of the HTTP surface. The comparisons decide equality, and a webhook is
accepted with the signature of its text at its time. -/
namespace GeoPlatform.Convex.Http

/-! ### Comparisons -/

theorem foldl_or_eq_zero {α : Type} {f : α → ℕ} {start : ℕ} (l : List α) :
    l.foldl (fun diff a => diff ||| f a) start = 0 ↔ start = 0 ∧ ∀ a ∈ l, f a = 0 := by
  induction l generalizing start with
  | nil => simp
  | cons a l ih => rw [List.foldl_cons, ih, Nat.or_eq_zero_iff, List.forall_mem_cons, and_assoc]

theorem encode_injective : Function.Injective encode := by
  intro a b h
  have hbytes := List.map_injective_iff.mpr (fun x y => UInt8.toNat_inj.mp) h
  exact String.toByteArray_inj.mp (ByteArray.ext (Array.toList_inj.mp hbytes))

theorem timingSafeEqual_iff {a b : String} : timingSafeEqual a b = true ↔ a = b := by
  rw [timingSafeEqual, decide_eq_true_eq, foldl_or_eq_zero, Nat.xor_eq_zero_iff]
  constructor
  · rintro ⟨hlength, hbytes⟩
    refine encode_injective (List.ext_getElem? fun i => ?_)
    by_cases hi : i < (encode a).length
    · have hi' : i < (encode b).length := hlength ▸ hi
      have h := hbytes i (List.mem_range.mpr (lt_max_of_lt_left hi))
      rw [Nat.xor_eq_zero_iff, List.getElem?_eq_getElem hi, List.getElem?_eq_getElem hi'] at h
      rw [List.getElem?_eq_getElem hi, List.getElem?_eq_getElem hi']
      exact congrArg some h
    · rw [List.getElem?_eq_none (Nat.not_lt.mp hi),
        List.getElem?_eq_none (hlength ▸ Nat.not_lt.mp hi)]
  · rintro rfl
    exact ⟨rfl, fun i _ => Nat.xor_self _⟩

theorem authorized_iff {env : HttpEnv} {r : HttpRequest} : authorized env r = true ↔
    ∃ secret, some secret ∈ env.secrets ∧ MIN_SECRET_LENGTH ≤ jsLength secret.toList ∧
      r.headers "authorization" = some ("Bearer " ++ secret) := by
  have hfold : ∀ (l : List (Option String)) (p : Option String → Bool) (ok : Bool),
      l.foldl (fun ok secret => ok || p secret) ok = (ok || l.any p) := by
    intro l p ok
    induction l generalizing ok with
    | nil => simp
    | cons a l ih => rw [List.foldl_cons, ih, List.any_cons, Bool.or_assoc]
  have hheader : ∀ secret, (r.headers "authorization").getD "" = "Bearer " ++ secret ↔
      r.headers "authorization" = some ("Bearer " ++ secret) := by
    intro secret
    cases r.headers "authorization" with
    | none =>
      refine ⟨fun h => ?_, fun h => by cases h⟩
      have hchars := congrArg String.toList h
      rw [Option.getD_none, String.toList_append] at hchars
      cases hchars
    | some header => rw [Option.getD_some, Option.some_inj]
  simp only [authorized, hfold, Bool.false_or, List.any_eq_true, Option.any_eq_true,
    Bool.and_eq_true, decide_eq_true_eq, timingSafeEqual_iff, hheader]
  constructor
  · rintro ⟨-, hmem, secret, rfl, hlength, heq⟩
    exact ⟨secret, hmem, hlength, heq⟩
  · rintro ⟨secret, hmem, hlength, heq⟩
    exact ⟨some secret, hmem, secret, rfl, hlength, heq⟩

theorem sameBytes_iff {a b : List ℕ} : sameBytes a b = true ↔ a = b := by
  have hzip : ∀ (l : List ℕ), l.foldl (fun diff d => diff ||| d) 0 = 0 ↔ ∀ d ∈ l, d = 0 := by
    intro l
    rw [foldl_or_eq_zero l]
    exact and_iff_right rfl
  rw [sameBytes, Bool.and_eq_true, decide_eq_true_eq, decide_eq_true_eq, hzip]
  constructor
  · rintro ⟨hlength, hbytes⟩
    induction a generalizing b with
    | nil => exact (List.length_eq_zero_iff.mp hlength.symm).symm
    | cons x a ih =>
      cases b with
      | nil => cases hlength
      | cons y b =>
        rw [List.zipWith_cons_cons, List.forall_mem_cons, Nat.xor_eq_zero_iff] at hbytes
        rw [hbytes.1, ih (Nat.succ.inj hlength) hbytes.2]
  · rintro rfl
    refine ⟨rfl, fun d hd => ?_⟩
    rw [List.zipWith_self] at hd
    obtain ⟨x, -, rfl⟩ := List.mem_map.mp hd
    exact Nat.xor_self x

/-! ### Hexadecimal digits -/

def hexDigits : List Char := "0123456789abcdef".toList

def upperHexDigits : List Char := "ABCDEF".toList

theorem char_induction {P : Char → Prop} (start n : ℕ)
    (hall : ∀ k ∈ List.range' start n, P (Char.ofNat k)) {c : Char}
    (h : start ≤ c.toNat ∧ c.toNat < start + n) : P c := by
  rw [← Char.ofNat_toNat c]
  exact hall _ (List.mem_range'_1.mpr h)

theorem hashDigit_mem {c : Char} (h : (c.isDigit || ('a' ≤ c && c ≤ 'f')) = true) :
    c ∈ hexDigits := by
  simp only [Bool.or_eq_true, Bool.and_eq_true, decide_eq_true_eq, Char.isDigit, Char.le_def,
    UInt32.le_iff_toNat_le, ge_iff_le] at h
  rcases h with ⟨hlow, hhigh⟩ | ⟨hlow, hhigh⟩
  · exact char_induction 48 10 (by decide) ⟨hlow, Nat.lt_succ_of_le hhigh⟩
  · exact char_induction 97 6 (by decide) ⟨hlow, Nat.lt_succ_of_le hhigh⟩

theorem hexDigit_mem {c : Char} (h : isHexDigit c = true) : c ∈ hexDigits ++ upperHexDigits := by
  by_cases hupper : c.val ≥ 'A'.val ∧ c.val ≤ 'Z'.val
  · have hall : ∀ k ∈ List.range' 65 26, isHexDigit (Char.ofNat k) = true →
        Char.ofNat k ∈ hexDigits ++ upperHexDigits := by decide
    exact char_induction (P := fun c => isHexDigit c = true → c ∈ hexDigits ++ upperHexDigits) 65 26
      hall ⟨hupper.1, Nat.lt_succ_of_le hupper.2⟩ h
  · have hlower : c.toLower = c := dif_neg hupper
    rw [isHexDigit, hlower] at h
    exact List.mem_append_left _ (hashDigit_mem h)

theorem hexDigits_lower : ∀ c ∈ hexDigits, c.toLower = c ∧ isHexDigit c = true := by
  have hall : hexDigits.all (fun c => decide (c.toLower = c) && isHexDigit c) = true := by
    decide +kernel
  intro c hc
  simpa using List.all_eq_true.mp hall c hc

theorem digitValue_small : ∀ c ∈ hexDigits ++ upperHexDigits, JsNumber.digitValue c < 16 := by
  have hall : (hexDigits ++ upperHexDigits).all (fun c => JsNumber.digitValue c < 16) = true := by
    decide +kernel
  intro c hc
  simpa using List.all_eq_true.mp hall c hc

theorem digitValue_lower : ∀ c ∈ hexDigits ++ upperHexDigits, ∀ d ∈ hexDigits ++ upperHexDigits,
    JsNumber.digitValue c = JsNumber.digitValue d → c.toLower = d.toLower := by
  have hall : (hexDigits ++ upperHexDigits).all (fun c => (hexDigits ++ upperHexDigits).all
      fun d => JsNumber.digitValue c ≠ JsNumber.digitValue d || c.toLower = d.toLower) = true := by
    decide +kernel
  intro c hc d hd heq
  have hpair := List.all_eq_true.mp (List.all_eq_true.mp hall c hc) d hd
  simpa [heq] using hpair

end GeoPlatform.Convex.Http
