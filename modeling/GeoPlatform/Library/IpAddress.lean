import Mathlib.Data.Nat.Digits.Defs
import Mathlib.Data.Fin.Basic
import Mathlib.Tactic

/-! IPv4 and IPv6 addresses and their texts. An IPv6 text may leave out one run of zero groups; an
address written in the shortest form reads back as itself. -/
namespace IpAddress

/-- Four bytes, the highest first. -/
@[ext] structure IPv4 where
  octets : List (Fin 256)
  length_eq : octets.length = 4
  deriving DecidableEq

/-- Eight groups of sixteen bits, the highest first. -/
@[ext] structure IPv6 where
  groups : List (Fin 65536)
  length_eq : groups.length = 8
  deriving DecidableEq

-- Named for the modules that write groups as numerals.
theorem neZero_groups : NeZero 65536 := inferInstance

/-! ### Texts -/

def decimal (octet : Fin 256) : List Char := Nat.toDigits 10 octet

def hex (group : Fin 65536) : List Char := Nat.toDigits 16 group

def IPv4.text (a : IPv4) : List Char := ['.'].intercalate (a.octets.map decimal)

/-- The longest run of zeros so far, and the one that is going on. -/
structure ZeroRuns where
  bestStart : ℕ := 0
  bestLength : ℕ := 0
  start : ℕ := 0
  length : ℕ := 0

/-- One group of the search for the first of the longest runs of zeros. -/
def ZeroRuns.step (r : ZeroRuns) (index : ℕ) (zero : Bool) : ZeroRuns :=
  if zero then
    let start := if r.length = 0 then index else r.start
    let length := r.length + 1
    if r.bestLength < length then ⟨start, length, start, length⟩
    else { r with start := start, length := length }
  else { r with length := 0 }

def zeroRuns (index : ℕ) (r : ZeroRuns) : List Bool → ZeroRuns
  | [] => r
  | zero :: zeros => zeroRuns (index + 1) (r.step index zero) zeros

/-- An empty side of a `::` still counts as a part. -/
def side (parts : List (List Char)) : List (List Char) := if parts = [] then [[]] else parts

/-- The parts of a text with the longest run of two zero groups or more left out. -/
def compress (groups : List (Fin 65536)) : List (List Char) :=
  let r := zeroRuns 0 {} (groups.map (· = 0))
  if 1 < r.bestLength then
    side ((groups.take r.bestStart).map hex) ++
      [] :: side ((groups.drop (r.bestStart + r.bestLength)).map hex)
  else groups.map hex

def IPv6.text (a : IPv6) : List Char := [':'].intercalate (compress a.groups)

/-! ### Reading -/

def parseOctet (text : List Char) : Option (Fin 256) :=
  if text = [] || !text.all Char.isDigit || 3 < text.length then none
  else if text ≠ ['0'] ∧ text.head? = some '0' then none
  else if h : Nat.ofDigitChars 10 text 0 < 256 then some ⟨_, h⟩ else none

def parseIPv4 (text : List Char) : Option IPv4 := do
  let octets ← (text.splitOn '.').mapM parseOctet
  if h : octets.length = 4 then some ⟨octets, h⟩ else none

def hexValue (c : Char) : Option ℕ :=
  if c.isDigit then some (c.toNat - '0'.toNat)
  else if 'a' ≤ c ∧ c ≤ 'f' then some (c.toNat - 'a'.toNat + 10)
  else if 'A' ≤ c ∧ c ≤ 'F' then some (c.toNat - 'A'.toNat + 10)
  else none

def ofHexDigits (text : List Char) (value : ℕ) : ℕ :=
  text.foldl (fun n c => 16 * n + (hexValue c).getD 0) value

def parseHextet (text : List Char) : Option (Fin 65536) :=
  if text = [] || !text.all (fun c => (hexValue c).isSome) || 4 < text.length then none
  else if h : ofHexDigits text 0 < 65536 then some ⟨_, h⟩ else none

/-- A dotted last part stands for two groups. -/
def withoutSuffix (parts : List (List Char)) : Option (List (List Char)) :=
  match parts.getLast? with
  | none => some parts
  | some last =>
      if '.' ∈ last then do
        let a ← parseIPv4 last
        let value := a.octets.foldl (fun n o => 256 * n + o.val) 0
        some (parts.dropLast ++
          [Nat.toDigits 16 (value / 65536), Nat.toDigits 16 (value % 65536)])
      else some parts

/-- Where a part between the ends is empty. -/
def skips (parts : List (List Char)) : List ℕ :=
  (List.range parts.length).filter fun i =>
    0 < i && i + 1 < parts.length && parts[i]? = some []

/-- The parts beside a `::`. An empty end is allowed only where nothing else is on its side. -/
def besideSkip (end? : Option (List Char)) (parts : List (List Char)) :
    Option (List (List Char)) :=
  if end? = some [] then if parts.length = 1 then some [] else none else some parts

def ofGroups (groups : List (Fin 65536)) : Option IPv6 :=
  if h : groups.length = 8 then some ⟨groups, h⟩ else none

def parseIPv6 (text : List Char) : Option IPv6 := do
  let split := text.splitOn ':'
  if split.length < 3 then none
  else do
    let parts ← withoutSuffix split
    if 9 < parts.length then none
    else match skips parts with
      | [] => do
          ofGroups (← parts.mapM parseHextet)
      | [skip] => do
          let hi ← besideSkip parts.head? (parts.take skip)
          let lo ← besideSkip parts.getLast? (parts.drop (skip + 1))
          if 8 ≤ hi.length + lo.length then none
          else do
            let above ← hi.mapM parseHextet
            let below ← lo.mapM parseHextet
            let zeros := List.replicate (8 - (hi.length + lo.length)) (0 : Fin 65536)
            ofGroups (above ++ zeros ++ below)
      | _ => none

example : (parseIPv6 "2001:DB8::1:0:0:ab".toList).map IPv6.text =
    some "2001:db8::1:0:0:ab".toList := by
  decide +kernel

/-! ### Numbers read back -/

theorem hexValue_digitChar {d : ℕ} (h : d < 16) : hexValue d.digitChar = some d := by
  interval_cases d <;> rfl

theorem ofHexDigits_append (xs ys : List Char) (value : ℕ) :
    ofHexDigits (xs ++ ys) value = ofHexDigits ys (ofHexDigits xs value) :=
  List.foldl_append

theorem ofHexDigits_toDigits (n : ℕ) : ofHexDigits (Nat.toDigits 16 n) 0 = n := by
  induction n using Nat.strong_induction_on with
  | _ n ih =>
    by_cases hn : n < 16
    · rw [Nat.toDigits_of_lt_base hn]
      simp [ofHexDigits, hexValue_digitChar hn]
    · have hmod : n % 16 < 16 := Nat.mod_lt n (by decide)
      rw [Nat.toDigits_of_base_le (by decide) (by omega), ofHexDigits_append,
        ih (n / 16) (by omega)]
      simp only [ofHexDigits, List.foldl_cons, List.foldl_nil, hexValue_digitChar hmod,
        Option.getD_some]
      omega

/-- The digits of a number are those of the base. -/
theorem mem_toDigits {b n : ℕ} (hb : 1 < b) {c : Char} (h : c ∈ Nat.toDigits b n) :
    ∃ d < b, c = d.digitChar := by
  induction n using Nat.strong_induction_on with
  | _ n ih =>
    by_cases hn : n < b
    · rw [Nat.toDigits_of_lt_base hn, List.mem_singleton] at h
      exact ⟨n, hn, h⟩
    · rw [Nat.toDigits_of_base_le hb (by omega), List.mem_append, List.mem_singleton] at h
      rcases h with h | rfl
      · have hpos : 0 < n := by omega
        exact ih (n / b) (Nat.div_lt_self hpos hb) h
      · exact ⟨n % b, Nat.mod_lt n (by omega), rfl⟩

theorem hexValue_of_mem_hex {group : Fin 65536} {c : Char} (h : c ∈ hex group) :
    (hexValue c).isSome = true := by
  obtain ⟨d, hd, rfl⟩ := mem_toDigits (by decide) h
  rw [hexValue_digitChar hd]
  rfl

theorem isDigit_of_mem_decimal {octet : Fin 256} {c : Char} (h : c ∈ decimal octet) :
    c.isDigit = true :=
  Nat.isDigit_of_mem_toDigits (by decide) (by decide) h

theorem hex_ne_nil (group : Fin 65536) : hex group ≠ [] := Nat.toDigits_ne_nil

theorem length_hex_le (group : Fin 65536) : (hex group).length ≤ 4 :=
  (Nat.length_toDigits_le_iff (by decide) (by decide)).mpr group.isLt

theorem length_decimal_le (octet : Fin 256) : (decimal octet).length ≤ 3 := by
  apply (Nat.length_toDigits_le_iff (by decide) (by decide)).mpr
  have hlt := octet.isLt
  omega

theorem parseHextet_hex (group : Fin 65536) : parseHextet (hex group) = some group := by
  have hvalue : ofHexDigits (hex group) 0 = group := ofHexDigits_toDigits group
  have hall : (hex group).all (fun c => (hexValue c).isSome) = true :=
    List.all_eq_true.mpr fun c hc => hexValue_of_mem_hex hc
  have hlength := length_hex_le group
  unfold parseHextet
  rw [if_neg (by simp [hex_ne_nil, hall, hlength])]
  simp [hvalue]

theorem parseOctet_decimal (octet : Fin 256) : parseOctet (decimal octet) = some octet := by
  revert octet
  decide +kernel

/-! ### The run that is left out -/

/-- The zeros from `start` on, `length` of them. -/
def ZerosAt (zeros : List Bool) (start length : ℕ) : Prop :=
  ∀ i, start ≤ i → i < start + length → zeros[i]? = some true

/-- Both runs are runs of the zeros that were read, and the one that is going on is the last. -/
structure ZeroRuns.Read (r : ZeroRuns) (zeros : List Bool) : Prop where
  best_le : r.bestStart + r.bestLength ≤ zeros.length
  best : ZerosAt zeros r.bestStart r.bestLength
  ends : 0 < r.length → r.start + r.length = zeros.length
  going : ZerosAt zeros r.start r.length

theorem zerosAt_zero (zeros : List Bool) (start : ℕ) : ZerosAt zeros start 0 := by
  intro i hstart hlt
  omega

theorem ZerosAt.append {zeros more : List Bool} {start length : ℕ}
    (h : ZerosAt zeros start length) :
    ZerosAt (zeros ++ more) start length := by
  intro i hstart hlt
  have hi := h i hstart hlt
  obtain ⟨hlength, -⟩ := List.getElem?_eq_some_iff.mp hi
  rw [List.getElem?_append_left hlength, hi]

/-- A zero makes the run that is going on longer by one. -/
theorem ZerosAt.extend {zeros : List Bool} {start length : ℕ} (h : ZerosAt zeros start length)
    (hends : start + length = zeros.length) : ZerosAt (zeros ++ [true]) start (length + 1) := by
  intro i hstart hlt
  by_cases hi : i < start + length
  · exact h.append i hstart hi
  · obtain rfl : i = zeros.length := by omega
    exact List.getElem?_concat_length

theorem ZeroRuns.Read.step {r : ZeroRuns} {zeros : List Bool} (h : r.Read zeros) (zero : Bool) :
    (r.step zeros.length zero).Read (zeros ++ [zero]) := by
  have hlength : (zeros ++ [zero]).length = zeros.length + 1 := List.length_append
  have hle := h.best_le
  cases zero with
  | false =>
    constructor
    · show r.bestStart + r.bestLength ≤ _
      omega
    · exact h.best.append
    · exact fun hpos => absurd hpos (lt_irrefl 0)
    · exact zerosAt_zero _ r.start
  | true =>
    -- The run that is going on with this zero.
    obtain ⟨start, hstart, hends, hgoing⟩ : ∃ start,
        (if r.length = 0 then zeros.length else r.start) = start ∧
        start + (r.length + 1) = zeros.length + 1 ∧
        ZerosAt (zeros ++ [true]) start (r.length + 1) := by
      by_cases hzero : r.length = 0
      · refine ⟨zeros.length, if_pos hzero, by omega, ?_⟩
        rw [hzero]
        exact (zerosAt_zero zeros _).extend rfl
      · have hends := h.ends (by omega)
        exact ⟨r.start, if_neg hzero, by omega, h.going.extend hends⟩
    simp only [ZeroRuns.step, if_true, hstart]
    split
    · exact ⟨by simp only; omega, hgoing, fun _ => by simp only; omega, hgoing⟩
    · exact ⟨by simp only; omega, h.best.append, fun _ => by simp only; omega, hgoing⟩

theorem zeroRuns_read {r : ZeroRuns} {zeros : List Bool} (h : r.Read zeros) (more : List Bool) :
    (zeroRuns zeros.length r more).Read (zeros ++ more) := by
  induction more generalizing zeros r with
  | nil => simpa [zeroRuns] using h
  | cons zero more ih =>
    have hnext := ih (h.step zero)
    rw [List.length_append, List.append_assoc] at hnext
    exact hnext

/-- The text leaves out a run of zero groups, if any. -/
theorem compress_cases (groups : List (Fin 65536)) :
    compress groups = groups.map hex ∨
    ∃ above n below, groups = above ++ List.replicate n 0 ++ below ∧ 2 ≤ n ∧
      compress groups = side (above.map hex) ++ [] :: side (below.map hex) := by
  have hempty : (⟨0, 0, 0, 0⟩ : ZeroRuns).Read [] :=
    ⟨le_rfl, zerosAt_zero [] 0, fun h => absurd h (lt_irrefl 0), zerosAt_zero [] 0⟩
  have hread := zeroRuns_read hempty (groups.map fun g => decide (g = 0))
  rw [List.nil_append, List.length_nil] at hread
  unfold compress
  simp only
  split
  · rename_i hlong
    right
    set r := zeroRuns 0 ⟨0, 0, 0, 0⟩ (groups.map fun g => decide (g = 0)) with hr
    have hle : r.bestStart + r.bestLength ≤ groups.length := by
      simpa using hread.best_le
    refine ⟨groups.take r.bestStart, r.bestLength, groups.drop (r.bestStart + r.bestLength), ?_,
      hlong, rfl⟩
    have hmiddle : (groups.drop r.bestStart).take r.bestLength =
        List.replicate r.bestLength 0 := by
      apply List.ext_getElem
      · simp only [List.length_take, List.length_drop, List.length_replicate]
        omega
      · intro i hi hi'
        rw [List.length_replicate] at hi'
        have hzero := hread.best (r.bestStart + i) (by omega) (by omega)
        have hlt : r.bestStart + i < groups.length := by omega
        simpa [List.getElem?_eq_getElem, hlt] using hzero
    rw [← hmiddle, List.append_assoc, ← List.drop_drop, List.take_append_drop,
      List.take_append_drop]
  · exact Or.inl rfl

/-! ### Texts read back -/

theorem intercalate_splitOn_parts {sep : Char} {parts : List (List Char)} (hne : parts ≠ [])
    (hsep : ∀ part ∈ parts, sep ∉ part) : ([sep].intercalate parts).splitOn sep = parts :=
  List.splitOn_intercalate sep hsep hne

theorem dot_notMem_decimal (octet : Fin 256) : '.' ∉ decimal octet := by
  intro h
  exact absurd (isDigit_of_mem_decimal h) (by decide)

theorem colon_notMem_hex (group : Fin 65536) : ':' ∉ hex group := by
  intro h
  exact absurd (hexValue_of_mem_hex h) (by decide)

theorem dot_notMem_hex (group : Fin 65536) : '.' ∉ hex group := by
  intro h
  exact absurd (hexValue_of_mem_hex h) (by decide)

theorem mapM_inverse {α β : Type} {f : α → β} {g : β → Option α} (h : ∀ a, g (f a) = some a)
    (as : List α) : (as.map f).mapM g = some as := by
  induction as with
  | nil => rfl
  | cons a as ih =>
    rw [List.map_cons, List.mapM_cons, h a, ih]
    rfl

/-- An IPv4 address reads back from its text. -/
theorem parseIPv4_text (a : IPv4) : parseIPv4 a.text = some a := by
  have hne : a.octets.map decimal ≠ [] := by
    intro h
    have hlength := congrArg List.length h
    rw [List.length_map, a.length_eq] at hlength
    cases hlength
  have hsplit : a.text.splitOn '.' = a.octets.map decimal := by
    apply intercalate_splitOn_parts hne
    intro part hpart
    obtain ⟨octet, -, rfl⟩ := List.mem_map.mp hpart
    exact dot_notMem_decimal octet
  unfold parseIPv4
  rw [hsplit, mapM_inverse parseOctet_decimal]
  simp [a.length_eq]

theorem mem_side {parts : List (List Char)} {part : List Char} (h : part ∈ side parts) :
    part = [] ∨ part ∈ parts := by
  unfold side at h
  split at h
  · exact Or.inl (List.mem_singleton.mp h)
  · exact Or.inr h

theorem side_ne_nil (parts : List (List Char)) : side parts ≠ [] := by
  unfold side
  split
  · exact List.cons_ne_nil _ _
  · assumption

/-- Every part of a text is empty or the digits of a group. -/
theorem mem_compress {groups : List (Fin 65536)} {part : List Char} (h : part ∈ compress groups) :
    part = [] ∨ ∃ group, part = hex group := by
  have hhex : ∀ gs : List (Fin 65536), part ∈ gs.map hex → ∃ group, part = hex group := by
    intro gs hpart
    obtain ⟨group, -, rfl⟩ := List.mem_map.mp hpart
    exact ⟨group, rfl⟩
  rcases compress_cases groups with hall | ⟨above, n, below, -, -, hskip⟩
  · rw [hall] at h
    exact Or.inr (hhex groups h)
  · rw [hskip, List.mem_append, List.mem_cons] at h
    rcases h with h | h | h
    · exact (mem_side h).imp_right (hhex above)
    · exact Or.inl h
    · exact (mem_side h).imp_right (hhex below)

theorem sep_notMem_compress {sep : Char} (hsep : ∀ group, sep ∉ hex group)
    (groups : List (Fin 65536)) : ∀ part ∈ compress groups, sep ∉ part := by
  intro part hpart
  rcases mem_compress hpart with rfl | ⟨group, rfl⟩
  · exact List.not_mem_nil
  · exact hsep group

theorem withoutSuffix_self {parts : List (List Char)} (h : ∀ part ∈ parts, '.' ∉ part) :
    withoutSuffix parts = some parts := by
  unfold withoutSuffix
  split
  · rfl
  · rename_i last hlast
    rw [if_neg (h last (List.mem_of_getLast? hlast))]

/-- A part that is left out is an empty one between the ends. -/
theorem skips_eq {parts : List (List Char)} {k : ℕ}
    (h : ∀ i, (0 < i ∧ i + 1 < parts.length ∧ parts[i]? = some []) ↔ i = k)
    (hk : k < parts.length) : skips parts = [k] := by
  unfold skips
  have hfilter : ∀ i ∈ List.range parts.length,
      (0 < i && i + 1 < parts.length && parts[i]? = some []) = (i == k) := by
    intro i _
    rw [Bool.eq_iff_iff]
    simpa [and_assoc] using h i
  rw [List.filter_congr hfilter, List.filter_beq,
    List.count_eq_one_of_mem List.nodup_range (List.mem_range.mpr hk), List.replicate_one]

theorem skips_eq_nil {parts : List (List Char)} (h : [] ∉ parts) : skips parts = [] := by
  unfold skips
  rw [List.filter_eq_nil_iff]
  intro i _ hi
  simp only [Bool.and_eq_true, decide_eq_true_eq] at hi
  exact h (List.mem_of_getElem? hi.2)

/-- In a text with a `::` the part between the sides is the only empty one between the ends. -/
theorem skips_sides {above below : List (List Char)} (ha : [] ∉ above) (hb : [] ∉ below) :
    skips (side above ++ [] :: side below) = [(side above).length] := by
  have hpos : 0 < (side above).length := List.length_pos_of_ne_nil (side_ne_nil above)
  have hpos' : 0 < (side below).length := List.length_pos_of_ne_nil (side_ne_nil below)
  have hinner : ∀ {parts : List (List Char)} {i : ℕ}, [] ∉ parts → (side parts)[i]? = some [] →
      i = 0 ∧ (side parts).length = 1 := by
    intro parts i hparts hi
    unfold side at hi ⊢
    split at hi
    · rename_i hnil
      rw [if_pos hnil]
      refine ⟨?_, rfl⟩
      obtain ⟨hlt, -⟩ := List.getElem?_eq_some_iff.mp hi
      simp only [List.length_singleton] at hlt
      omega
    · exact absurd (List.mem_of_getElem? hi) hparts
  apply skips_eq
  · intro i
    rw [List.length_append, List.length_cons]
    constructor
    · rintro ⟨hi, hlast, hempty⟩
      rcases lt_trichotomy i (side above).length with hlt | heq | hgt
      · rw [List.getElem?_append_left hlt] at hempty
        have hfirst := (hinner ha hempty).1
        omega
      · exact heq
      · rw [List.getElem?_append_right hgt.le] at hempty
        obtain ⟨j, hj⟩ : ∃ j, i - (side above).length = j + 1 :=
          ⟨i - (side above).length - 1, by omega⟩
        rw [hj, List.getElem?_cons_succ] at hempty
        have hlength := (hinner hb hempty).2
        omega
    · rintro rfl
      refine ⟨hpos, by omega, ?_⟩
      rw [List.getElem?_append_right le_rfl, Nat.sub_self, List.getElem?_cons_zero]
  · rw [List.length_append, List.length_cons]
    omega

theorem besideSkip_head {above : List (List Char)} (ha : [] ∉ above) (rest : List (List Char)) :
    besideSkip (side above ++ rest).head? (side above) = some above := by
  unfold besideSkip side
  cases above with
  | nil => rfl
  | cons part parts =>
    rw [if_neg (List.cons_ne_nil _ _), List.cons_append, List.head?_cons, if_neg]
    rintro h
    exact ha (Option.some.inj h ▸ List.mem_cons_self)

theorem besideSkip_last {below : List (List Char)} (hb : [] ∉ below) (rest : List (List Char)) :
    besideSkip (rest ++ side below).getLast? (side below) = some below := by
  rcases List.eq_nil_or_concat' below with rfl | ⟨parts, part, rfl⟩
  · simp [besideSkip, side]
  · have hside : side (parts ++ [part]) = parts ++ [part] := if_neg (by simp)
    rw [hside, ← List.append_assoc, besideSkip, List.getLast?_concat, if_neg]
    rintro h
    exact hb (Option.some.inj h ▸ List.mem_append_right _ List.mem_cons_self)

/-! ### The round trip -/

theorem nil_notMem_hex (groups : List (Fin 65536)) : [] ∉ groups.map hex := by
  intro h
  obtain ⟨group, -, hnil⟩ := List.mem_map.mp h
  exact hex_ne_nil group hnil

theorem length_side_le (parts : List (List Char)) : (side parts).length ≤ parts.length + 1 := by
  unfold side
  split
  · exact Nat.le_add_left _ _
  · exact Nat.le_succ _

theorem length_compress (a : IPv6) :
    3 ≤ (compress a.groups).length ∧ (compress a.groups).length ≤ 9 := by
  have hlength := a.length_eq
  rcases compress_cases a.groups with hall | ⟨above, n, below, hgroups, hn, hskip⟩
  · rw [hall, List.length_map, hlength]
    decide
  · rw [hgroups] at hlength
    have habove := length_side_le (above.map hex)
    have hbelow := length_side_le (below.map hex)
    have hpos := List.length_pos_of_ne_nil (side_ne_nil (above.map hex))
    have hpos' := List.length_pos_of_ne_nil (side_ne_nil (below.map hex))
    simp only [List.length_append, List.length_replicate, List.length_map] at hlength habove hbelow
    rw [hskip, List.length_append, List.length_cons]
    omega

theorem ofGroups_groups (a : IPv6) : ofGroups a.groups = some a := dif_pos a.length_eq

/-- An IPv6 address reads back from its text. -/
theorem parseIPv6_text (a : IPv6) : parseIPv6 a.text = some a := by
  obtain ⟨hmin, hmax⟩ := length_compress a
  have hne : compress a.groups ≠ [] := List.ne_nil_of_length_pos (by omega)
  have hsplit : a.text.splitOn ':' = compress a.groups :=
    intercalate_splitOn_parts hne (sep_notMem_compress colon_notMem_hex a.groups)
  unfold parseIPv6
  simp only [hsplit, if_neg (not_lt.mpr hmin), if_neg (not_lt.mpr hmax),
    withoutSuffix_self (sep_notMem_compress dot_notMem_hex a.groups), Option.bind_eq_bind,
    Option.bind_some]
  rcases compress_cases a.groups with hall | ⟨above, n, below, hgroups, hn, hskip⟩
  · rw [hall, skips_eq_nil (nil_notMem_hex a.groups), mapM_inverse parseHextet_hex]
    exact ofGroups_groups a
  · have habove := nil_notMem_hex above
    have hbelow := nil_notMem_hex below
    have hlength : above.length + (n + below.length) = 8 := by
      have height := a.length_eq
      rw [hgroups] at height
      simpa [add_assoc] using height
    have hdrop : (side (above.map hex) ++ [] :: side (below.map hex)).drop
        ((side (above.map hex)).length + 1) = side (below.map hex) := by
      simp [List.drop_append]
    have hrest : side (above.map hex) ++ [] :: side (below.map hex) =
        (side (above.map hex) ++ [[]]) ++ side (below.map hex) := by simp
    have hlast := besideSkip_last hbelow (side (above.map hex) ++ [[]])
    rw [← hrest] at hlast
    rw [hskip, skips_sides habove hbelow]
    simp only [List.take_left, hdrop, besideSkip_head habove, hlast, Option.bind_some,
      List.length_map, mapM_inverse parseHextet_hex]
    rw [if_neg (by omega)]
    have hzeros : 8 - (above.length + below.length) = n := by omega
    rw [hzeros, ← hgroups]
    exact ofGroups_groups a

/-! ### Characters and lengths -/

theorem mem_intercalate {sep c : Char} {parts : List (List Char)}
    (h : c ∈ [sep].intercalate parts) : c = sep ∨ ∃ part ∈ parts, c ∈ part := by
  induction parts with
  | nil => cases h
  | cons part parts ih =>
    cases parts with
    | nil =>
      rw [List.intercalate_singleton] at h
      exact Or.inr ⟨part, List.mem_singleton_self part, h⟩
    | cons next parts =>
      rw [List.intercalate_cons_cons, List.mem_append, List.mem_append, List.mem_singleton] at h
      rcases h with (h | h) | h
      · exact Or.inr ⟨part, List.mem_cons_self, h⟩
      · exact Or.inl h
      · exact (ih h).imp_right fun ⟨p, hp, hc⟩ => ⟨p, List.mem_cons_of_mem _ hp, hc⟩

/-- A text of short parts is short, and it has at least its separators. -/
theorem length_intercalate_le {sep : Char} {k : ℕ} {parts : List (List Char)}
    (h : ∀ part ∈ parts, part.length ≤ k) :
    parts.length ≤ ([sep].intercalate parts).length + 1 ∧
      ([sep].intercalate parts).length ≤ parts.length * (k + 1) := by
  induction parts with
  | nil => simp
  | cons part parts ih =>
    obtain ⟨hpart, hparts⟩ := List.forall_mem_cons.mp h
    obtain ⟨hmin, hmax⟩ := ih hparts
    rw [List.length_cons, Nat.succ_mul]
    cases parts with
    | nil =>
      rw [List.intercalate_singleton, List.length_nil]
      omega
    | cons next parts =>
      rw [List.intercalate_cons_cons, List.length_append, List.length_append, List.length_singleton]
      omega

theorem mem_text_v4 {a : IPv4} {c : Char} (h : c ∈ a.text) : c = '.' ∨ c.isDigit = true := by
  refine (mem_intercalate h).imp_right ?_
  rintro ⟨part, hpart, hc⟩
  obtain ⟨octet, -, rfl⟩ := List.mem_map.mp hpart
  exact isDigit_of_mem_decimal hc

theorem mem_text_v6 {a : IPv6} {c : Char} (h : c ∈ a.text) :
    c = ':' ∨ ∃ d < 16, c = d.digitChar := by
  refine (mem_intercalate h).imp_right ?_
  rintro ⟨part, hpart, hc⟩
  rcases mem_compress hpart with rfl | ⟨group, rfl⟩
  · cases hc
  · exact mem_toDigits (by decide) hc

theorem length_text_v4 (a : IPv4) : 3 ≤ a.text.length ∧ a.text.length ≤ 16 := by
  have hparts : ∀ part ∈ a.octets.map decimal, part.length ≤ 3 := by
    intro part hpart
    obtain ⟨octet, -, rfl⟩ := List.mem_map.mp hpart
    exact length_decimal_le octet
  have hbounds := @length_intercalate_le '.' _ _ hparts
  rw [List.length_map, a.length_eq] at hbounds
  unfold IPv4.text
  omega

theorem length_text_v6 (a : IPv6) : 2 ≤ a.text.length ∧ a.text.length ≤ 45 := by
  obtain ⟨hmin, hmax⟩ := length_compress a
  have hparts : ∀ part ∈ compress a.groups, part.length ≤ 4 := by
    intro part hpart
    rcases mem_compress hpart with rfl | ⟨group, rfl⟩
    · exact Nat.zero_le _
    · exact length_hex_le group
  have hbounds := @length_intercalate_le ':' _ _ hparts
  unfold IPv6.text
  omega

end IpAddress
