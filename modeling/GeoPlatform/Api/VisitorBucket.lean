import GeoPlatform.ArcGIS.Geometry
import GeoPlatform.ArcGIS.Where
import GeoPlatform.Convex.Authorize
import GeoPlatform.Library.IpAddress

/-! The bucket that a visitor's address is counted under (`visitor_bucket` in `core/abuse.py`), and
what the gateway of Convex makes of it. -/
namespace GeoPlatform.Api
open GeoPlatform.ArcGIS GeoPlatform.Convex IpAddress
attribute [local instance] neZero_groups

/-! ### Python's `ipaddress` -/

inductive IPAddress where
  | v4 (a : IPv4)
  | v6 (a : IPv6)
  deriving DecidableEq

/-- `ip_address` of a text without a zone id. -/
def ipAddress (text : List Char) : Option IPAddress :=
  match parseIPv4 text with
  | some a => some (.v4 a)
  | none => (parseIPv6 text).map .v6

/-- The two bytes of a group. -/
def bytes (group : Fin 65536) : List (Fin 256) :=
  [⟨group / 256, by omega⟩, ⟨group % 256, by omega⟩]

def ipv4Mapped (a : IPv6) : Option IPv4 :=
  if a.groups.take 6 = [0, 0, 0, 0, 0, 0xffff] then
    some ⟨(a.groups.drop 6).flatMap bytes, by simp [List.length_flatMap, bytes, a.length_eq]⟩
  else none

/-- The address with only its top 64 bits. -/
def top64 (a : IPv6) : IPv6 :=
  ⟨a.groups.take 4 ++ List.replicate 4 0, by simp [a.length_eq]⟩

/-- `IPv6Network(text, strict=False).network_address` of a text that ends in `/64`. -/
def networkAddress (text : List Char) : Except PyException IPv6 :=
  match text.splitOn '/' with
  | [address, ['6', '4']] => ((parseIPv6 address).map top64).elim (.error .valueError) .ok
  | _ => .error .valueError

/-! ### The bucket -/

variable (P : PyText)

/-- `value.strip().split("%", 1)[0]`. -/
def withoutZone (value : String) : List Char := (strip P value.toList).takeWhile (· ≠ '%')

/-- `visitor_bucket`. -/
def visitorBucket (value : String) : Except PyException (Option String) :=
  match ipAddress (withoutZone P value) with
  | none => .ok none
  | some (.v4 a) => .ok (some (String.ofList a.text))
  | some (.v6 a) =>
      match ipv4Mapped a with
      | some mapped => .ok (some (String.ofList mapped.text))
      | none => do
          let network ← networkAddress (a.text ++ "/64".toList)
          return some (String.ofList (network.text ++ "/64".toList))

/-! ### Visitors -/

/-- What a visitor is told apart by: an IPv4 address, or the top 64 bits of an IPv6 address. -/
inductive Visitor where
  | ipv4 (a : IPv4)
  | ipv6 (network : IPv6)
  deriving DecidableEq

def IPAddress.visitor : IPAddress → Visitor
  | .v4 a => .ipv4 a
  | .v6 a => (ipv4Mapped a).elim (.ipv6 (top64 a)) .ipv4

def Visitor.text : Visitor → List Char
  | .ipv4 a => a.text
  | .ipv6 network => network.text ++ "/64".toList

theorem slash_notMem_v4 (a : IPv4) : '/' ∉ a.text := by
  intro h
  rcases mem_text_v4 h with h | h <;> exact absurd h (by decide)

theorem slash_notMem_v6 (a : IPv6) : '/' ∉ a.text := by
  intro h
  rcases mem_text_v6 h with h | ⟨d, hd, h⟩
  · exact absurd h (by decide)
  · interval_cases d <;> exact absurd h (by decide)

/-- Different visitors have different texts. -/
theorem Visitor.text_injective {v w : Visitor} (h : v.text = w.text) : v = w := by
  cases v with
  | ipv4 a =>
    cases w with
    | ipv4 b =>
      have ha := parseIPv4_text a
      rw [show a.text = b.text from h, parseIPv4_text] at ha
      rw [Option.some.inj ha]
    | ipv6 b =>
      have hslash : '/' ∈ a.text := by
        rw [show a.text = b.text ++ "/64".toList from h]
        simp
      exact absurd hslash (slash_notMem_v4 a)
  | ipv6 a =>
    cases w with
    | ipv4 b =>
      have hslash : '/' ∈ b.text := by
        rw [show b.text = a.text ++ "/64".toList from h.symm]
        simp
      exact absurd hslash (slash_notMem_v4 b)
    | ipv6 b =>
      have hprinted : a.text = b.text := List.append_cancel_right h
      have ha := parseIPv6_text a
      rw [hprinted, parseIPv6_text] at ha
      rw [Option.some.inj ha]

variable {P} {value : String} {a : IPAddress}

/-- The network of an address that was just printed. -/
theorem networkAddress_text (a : IPv6) :
    networkAddress (a.text ++ "/64".toList) = .ok (top64 a) := by
  have hsplit : (a.text ++ "/64".toList).splitOn '/' = [a.text, ['6', '4']] :=
    List.splitOn_append_cons_self_of_not_mem (slash_notMem_v6 a) ['6', '4']
  simp only [networkAddress, hsplit, parseIPv6_text]
  rfl

theorem visitorBucket_eq (h : ipAddress (withoutZone P value) = some a) :
    visitorBucket P value = .ok (some (String.ofList a.visitor.text)) := by
  unfold visitorBucket
  rw [h]
  cases a with
  | v4 a => rfl
  | v6 a =>
    simp only [IPAddress.visitor]
    cases ipv4Mapped a with
    | some mapped => rfl
    | none =>
      simp only [networkAddress_text]
      rfl

/-! ### The trip to Convex -/

/-- What `IP_PATTERN` admits. -/
def isPatternChar (c : Char) : Bool :=
  c.isDigit || ('a' ≤ c && c ≤ 'f') || ('A' ≤ c && c ≤ 'F') || c = ':' || c = '.' || c = '/'

theorem Visitor.text_chars (v : Visitor) : ∀ c ∈ v.text, isPatternChar c = true := by
  intro c hc
  cases v with
  | ipv4 a =>
    rcases mem_text_v4 hc with rfl | hdigit
    · rfl
    · simp [isPatternChar, hdigit]
  | ipv6 a =>
    rcases List.mem_append.mp hc with hc | hc
    · rcases mem_text_v6 hc with rfl | ⟨d, hd, rfl⟩
      · rfl
      · interval_cases d <;> rfl
    · have hsuffix : "/64".toList.all isPatternChar = true := by decide
      exact List.all_eq_true.mp hsuffix c hc

theorem Visitor.text_length (v : Visitor) : 2 ≤ v.text.length ∧ v.text.length ≤ 48 := by
  cases v with
  | ipv4 a =>
    have hlength := length_text_v4 a
    simp only [Visitor.text]
    omega
  | ipv6 a =>
    have hlength := length_text_v6 a
    have hprefix : "/64".toList.length = 3 := rfl
    simp only [Visitor.text, List.length_append]
    omega

theorem Visitor.ipPattern_text (v : Visitor) : ipPattern (String.ofList v.text) = true := by
  obtain ⟨hmin, hmax⟩ := v.text_length
  have hchars : v.text.all isPatternChar = true := List.all_eq_true.mpr v.text_chars
  unfold ipPattern
  rw [String.length_ofList, String.toList_ofList]
  simp only [hmin, hmax, decide_true, Bool.true_and]
  exact hchars

/-- The text is shorter than what the HTTP action lets pass. -/
theorem Visitor.slice_text (v : Visitor) :
    slice 64 (String.ofList v.text) = String.ofList v.text := by
  have hmax := v.text_length.2
  rw [slice, String.toList_ofList, List.take_of_length_le (by omega)]

/-- Visitor buckets survive the trip to Convex. Every text that is read as an address has a bucket,
which it shares with the texts of the same visitor only, and which the gateway limits as it is. -/
theorem visitor_bucket_survives (h : ipAddress (withoutZone P value) = some a) :
    ∃ bucket, visitorBucket P value = .ok (some bucket) ∧
      (∀ value' a', ipAddress (withoutZone P value') = some a' →
        (visitorBucket P value' = .ok (some bucket) ↔ a'.visitor = a.visitor)) ∧
      slice 64 bucket = bucket ∧ ipPattern bucket = true ∧
      visitorAddress (some (slice 64 bucket)) = bucket ∧
      demoAddress (slice 64 bucket) = bucket := by
  have hslice := a.visitor.slice_text
  have hpattern := a.visitor.ipPattern_text
  refine ⟨_, visitorBucket_eq h, ?_, hslice, hpattern, ?_, ?_⟩
  · intro value' a' h'
    rw [visitorBucket_eq h', Except.ok.injEq, Option.some.injEq, String.ofList_inj]
    constructor
    · exact Visitor.text_injective
    · rintro hsame
      rw [hsame]
  · have hne : String.ofList a.visitor.text ≠ "" := by
      rintro hempty
      rw [hempty] at hpattern
      exact absurd hpattern (by decide)
    rw [hslice, visitorAddress, if_pos ⟨hne, hpattern⟩]
  · rw [hslice, demoAddress, if_pos hpattern]

/-- An IPv4-mapped address in capitals, with a zone id. -/
theorem visitor_bucket_survives_mapped :
    ∃ bucket, visitorBucket asciiTables " ::FFFF:203.0.113.9%eth0 " = .ok (some bucket) ∧
      demoAddress (slice 64 bucket) = bucket := by
  have hread : ipAddress (withoutZone asciiTables " ::FFFF:203.0.113.9%eth0 ") =
      some (.v6 ⟨[0, 0, 0, 0, 0, 0xffff, 0xcb00, 0x7109], rfl⟩) := by
    decide +kernel
  obtain ⟨bucket, hbucket, -, -, -, -, hdemo⟩ := visitor_bucket_survives hread
  exact ⟨bucket, hbucket, hdemo⟩

end GeoPlatform.Api
