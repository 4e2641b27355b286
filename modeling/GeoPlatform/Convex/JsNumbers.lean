import GeoPlatform.Convex.Queries
import GeoPlatform.Library.Json

/-! What JavaScript's `Number` makes of texts and of JSON values, and texts without the white space
around them. Numbers are exact, save that too large ones are infinite. -/
namespace GeoPlatform.Convex

def jsTrim (cs : List Char) : List Char :=
  ((cs.dropWhile isSpace).reverse.dropWhile isSpace).reverse

theorem jsTrim_eq {cs : List Char} (h : ∀ c ∈ cs, isSpace c = false) : jsTrim cs = cs := by
  have hdrop : ∀ {l : List Char}, (∀ c ∈ l, isSpace c = false) → l.dropWhile isSpace = l := by
    intro l hl
    cases l with
    | nil => rfl
    | cons c l => exact List.dropWhile_cons_of_neg (by simp [hl c List.mem_cons_self])
  rw [jsTrim, hdrop h, hdrop fun c hc => h c (List.mem_reverse.mp hc), List.reverse_reverse]

theorem jsTrim_blank {blank cs : List Char} (hblank : ∀ c ∈ blank, isSpace c = true)
    (h : ∀ c ∈ cs, isSpace c = false) : jsTrim (blank ++ cs) = cs := by
  rw [jsTrim, List.dropWhile_append_of_pos hblank]
  exact jsTrim_eq h

namespace JsNumber

/-- From here on a number rounds to an infinite one. -/
def OVERFLOW : ℚ := 2 ^ 1024 - 2 ^ 970

def infinite (negative : Bool) : JsNumber := if negative then .negInfinity else .infinity

def ofRat (q : ℚ) : JsNumber := if OVERFLOW ≤ |q| then infinite (q < 0) else .finite q

/-- The number, where `Number.isFinite` holds. -/
def finite? : JsNumber → Option ℚ
  | .finite q => some q
  | _ => none

/-- `x > bound`. -/
def exceeds (bound : ℚ) : JsNumber → Bool
  | .nan => false
  | .negInfinity => false
  | .infinity => true
  | .finite q => bound < q

/-- The value of a digit, 36 for other characters. -/
def digitValue (c : Char) : ℕ :=
  if c.isDigit then c.toNat - 48
  else if 'a' ≤ c ∧ c ≤ 'z' then c.toNat - 87
  else if 'A' ≤ c ∧ c ≤ 'Z' then c.toNat - 55
  else 36

def digits (base : ℕ) (cs : List Char) : Option ℕ :=
  if !cs.isEmpty && cs.all fun c => digitValue c < base then
    some (cs.foldl (fun n c => base * n + digitValue c) 0)
  else none

def signed : List Char → Bool × List Char
  | '-' :: cs => (true, cs)
  | '+' :: cs => (false, cs)
  | cs => (false, cs)

/-- What follows the mantissa. -/
def exponent : List Char → Option ℤ
  | [] => some 0
  | _ :: cs =>
      let (negative, cs) := signed cs
      (digits 10 cs).map fun n => if negative then -(n : ℤ) else n

def decimal (cs : List Char) : Option ℚ := do
  let mantissa := cs.takeWhile fun c => c ≠ 'e' && c ≠ 'E'
  let whole := mantissa.takeWhile (· ≠ '.')
  let fraction := (mantissa.drop whole.length).drop 1
  let n ← digits 10 (whole ++ fraction)
  let e ← exponent (cs.drop mantissa.length)
  return n * 10 ^ (e - fraction.length)

/-- The base that a prefix names. -/
def baseOf (c : Char) : Option ℕ :=
  match c.toLower with
  | 'x' => some 16
  | 'o' => some 8
  | 'b' => some 2
  | _ => none

def ofUnprefixed (cs : List Char) : JsNumber :=
  let (negative, cs) := signed cs
  if cs = "Infinity".toList then infinite negative
  else match decimal cs with
    | none => .nan
    | some q => ofRat (if negative then -q else q)

/-- `Number` of a text without white space around it. -/
def ofTrimmed : List Char → JsNumber
  | [] => .finite 0
  | '0' :: c :: cs =>
      match baseOf c with
      | some base => ((digits base cs).map fun n => ofRat n).getD .nan
      | none => ofUnprefixed ('0' :: c :: cs)
  | cs => ofUnprefixed cs

def ofString (s : String) : JsNumber := ofTrimmed (jsTrim s.toList)

/-- `Number` of a JSON value. An array is read as the text of its members with commas between. -/
def ofJson : Json → JsNumber
  | .null => .finite 0
  | .bool b => .finite (if b then 1 else 0)
  | .number q => .finite q
  | .infinite negative => infinite negative
  | .string s => ofString s
  | .array [] => .finite 0
  | .array [.bool _] => .nan
  | .array [item] => ofJson item
  | .array _ => .nan
  | .object _ => .nan

/-- `Number` of a member, which may be missing. -/
def ofMember : Option Json → JsNumber
  | none => .nan
  | some v => ofJson v

/-- A whole number is read back as it was written. -/
theorem digits_toString (n : ℕ) : digits 10 (toString n).toList = some n := by
  have hdigits : (toString n).toList = Nat.toDigits 10 n := Nat.toList_repr
  have hvalue : ∀ c : Char, c.isDigit = true → digitValue c = c.toNat - '0'.toNat := by
    intro c hc
    rw [digitValue, if_pos hc]
    rfl
  have hsmall : ∀ c : Char, c.isDigit = true → digitValue c < 10 := by
    intro c hc
    have hle : c.toNat ≤ 57 := by
      simp only [Char.isDigit, Bool.and_eq_true, decide_eq_true_eq, UInt32.le_iff_toNat_le] at hc
      exact hc.2
    rw [digitValue, if_pos hc]
    omega
  have hfold : ∀ (cs : List Char) (k : ℕ), (∀ c ∈ cs, c.isDigit = true) →
      cs.foldl (fun n c => 10 * n + digitValue c) k = Nat.ofDigitChars 10 cs k := by
    intro cs
    induction cs with
    | nil => exact fun k _ => rfl
    | cons c cs ih =>
      intro k hcs
      obtain ⟨hc, hcs⟩ := List.forall_mem_cons.mp hcs
      rw [List.foldl_cons, ih _ hcs, Nat.ofDigitChars_cons, hvalue c hc]
  have hall : ∀ c ∈ (toString n).toList, c.isDigit = true := fun c hc => isDigit_of_mem_toString hc
  have hread : (!(toString n).toList.isEmpty &&
      (toString n).toList.all fun c => digitValue c < 10) = true := by
    rw [Bool.and_eq_true, List.all_eq_true]
    exact ⟨by simp, fun c hc => decide_eq_true (hsmall c (hall c hc))⟩
  rw [digits, if_pos hread, hfold _ _ hall, hdigits, Nat.ofDigitChars_ten_toDigits]

end JsNumber

/-- Another base, an exponent, a number that is too large, and a text that is none. -/
example : JsNumber.ofString " 0x1F " = .finite 31 ∧ JsNumber.ofString "-1.25e2" = .finite (-125) ∧
    JsNumber.ofString "1e400" = .infinity ∧ JsNumber.ofString "12px" = .nan := by
  decide +kernel

end GeoPlatform.Convex
