import GeoPlatform.Convex.MinuteCaps
import GeoPlatform.Convex.DemoLimit

/-! Who sends a gateway request, and which counters are the sender's own. The counters of two
senders are kept apart by their bucket names; a ceiling is the one counter that all senders of a
kind share. -/
namespace GeoPlatform.Convex
open Docs

inductive Sender where
  /-- An account calling with its own keys. -/
  | customer (userId : ℕ)
  /-- The visitors behind a site key of an account. -/
  | site (userId : ℕ)
  /-- A visitor of the demo, known by the hash of the address alone. -/
  | visitor (ipHash : String)
  deriving DecidableEq

/-- The sender of a request that reaches the counters. -/
def sender (env : ProcessEnv) (db : Db) (c : Call) : Option Sender :=
  match c.txn with
  | .authorize args =>
      match admission db c.now args with
      | .ok a => some (if a.isSiteKey then .site a.key.val.userId else .customer a.key.val.userId)
      | .error _ => none
  | .authorizeDemo args =>
      match env.gatewaySecret with
      | .ok secret => some (.visitor (demoIpHash env secret args.clientIp))
      | .error _ => none
  | _ => none

def demoGlobalBucket : String := "demo:global:minute"

/-- The counter a sender shares with all others of its kind. -/
def Sender.ceiling : Sender → Option String
  | .customer _ => some globalBucket
  | .site _ => none
  | .visitor _ => some demoGlobalBucket

/-- A counter of one of the account's keys. -/
def OwnsKeyBucket (keys : Table ApiKey) (userId : ℕ) (b : String) : Prop :=
  ∃ k key, keys.get k = some key ∧ key.userId = userId ∧
    (b = keyBucket k ∨ ∃ e, b = endpointBucket k e)

/-- The counters of a sender alone. The visitors of all site keys share the address counters. -/
def Sender.Owns (keys : Table ApiKey) : Sender → String → Prop
  | .customer u, b => b = userBucket u ∨ OwnsKeyBucket keys u b
  | .site u, b => (∃ rest, b = "ip:" ++ rest) ∨ OwnsKeyBucket keys u b
  | .visitor h, b => h.length = 32 ∧ ∃ rest, b = "demo:ip:" ++ h ++ rest

def Sender.Touches (keys : Table ApiKey) (A : Sender) (b : String) : Prop :=
  A.Owns keys b ∨ A.ceiling = some b

/-- Two senders with no counter of their own in common. -/
def Sender.apart : Sender → Sender → Bool
  | .customer u, .customer v => u ≠ v
  | .customer u, .site v => u ≠ v
  | .site u, .customer v => u ≠ v
  | .site _, .site _ => false
  | .visitor h, .visitor g => h ≠ g
  | _, _ => true

/-! ### Bucket names -/

/-- The document id in the name of a key's counter. -/
def keyDigits (b : String) : List Char := (b.toList.drop 4).takeWhile Char.isDigit

theorem keyDigits_append {k : ℕ} {rest : String} (h : ∀ c ∈ rest.toList.head?, c.isDigit = false) :
    keyDigits ("key:" ++ toString k ++ rest) = (toString k).toList := by
  have hlist : ("key:" ++ toString k ++ rest).toList.drop 4 =
      (toString k).toList ++ rest.toList := by
    simp only [String.toList_append, List.append_assoc]
    rfl
  rw [keyDigits, hlist, List.takeWhile_append_of_pos fun c hc => isDigit_of_mem_toString hc]
  cases hrest : rest.toList with
  | nil => simp
  | cons c cs =>
    have hc := h c (by simp [hrest])
    simp [hc]

theorem keyDigits_keyBucket (k : ℕ) : keyDigits (keyBucket k) = (toString k).toList := by
  have h := @keyDigits_append k "" (by simp)
  simpa [keyBucket] using h

theorem keyDigits_endpointBucket (k : ℕ) (e : Option String) :
    keyDigits (endpointBucket k e) = (toString k).toList := by
  have h := @keyDigits_append k (":endpoint:" ++ e.getD "unknown") (by simp)
  simpa only [endpointBucket, String.append_assoc] using h

theorem userBucket_injective {u v : ℕ} (h : userBucket u = userBucket v) : u = v := by
  have hlist := congrArg String.toList h
  simp only [userBucket, String.toList_append, List.append_cancel_left_eq] at hlist
  exact toString_toList_inj hlist

/-- Two prefixes of one name agree as far as the shorter goes. -/
theorem prefix_clash {p q : List Char} {b : String} (hp : p <+: b.toList) (hq : q <+: b.toList)
    (h : ¬ (p <+: q ∨ q <+: p)) : False :=
  h (List.prefix_or_prefix_of_prefix hp hq)

theorem prefix_append (p rest : String) : p.toList <+: (p ++ rest).toList :=
  ⟨rest.toList, String.toList_append.symm⟩

/-- How the names of a sender's own counters begin. -/
def Sender.namePrefixes : Sender → List String
  | .customer _ => ["user:", "key:"]
  | .site _ => ["ip:", "key:"]
  | .visitor _ => ["demo:ip:"]

variable {keys : Table ApiKey}

theorem OwnsKeyBucket.starts {u : ℕ} {b : String} (h : OwnsKeyBucket keys u b) :
    "key:".toList <+: b.toList := by
  obtain ⟨k, -, -, -, rfl | ⟨e, rfl⟩⟩ := h
  · exact prefix_append "key:" (toString k)
  · rw [endpointBucket, String.append_assoc, String.append_assoc]
    exact prefix_append "key:" _

/-- A counter of a key belongs to the one account that owns the key. -/
theorem OwnsKeyBucket.unique {u v : ℕ} {b : String} (hu : OwnsKeyBucket keys u b)
    (hv : OwnsKeyBucket keys v b) : u = v := by
  have hdigits : ∀ {w : ℕ}, OwnsKeyBucket keys w b →
      ∃ k key, keys.get k = some key ∧ key.userId = w ∧ keyDigits b = (toString k).toList := by
    rintro w ⟨k, key, hget, howner, rfl | ⟨e, rfl⟩⟩
    · exact ⟨k, key, hget, howner, keyDigits_keyBucket k⟩
    · exact ⟨k, key, hget, howner, keyDigits_endpointBucket k e⟩
  obtain ⟨k, key, hget, rfl, hk⟩ := hdigits hu
  obtain ⟨l, key', hget', rfl, hl⟩ := hdigits hv
  obtain rfl := toString_toList_inj (hk.symm.trans hl)
  rw [hget] at hget'
  cases hget'
  rfl

theorem Sender.Owns.starts {A : Sender} {b : String} (h : A.Owns keys b) :
    ∃ p ∈ A.namePrefixes, p.toList <+: b.toList := by
  cases A with
  | customer u =>
    rcases h with rfl | h
    · exact ⟨"user:", by simp [namePrefixes], prefix_append _ _⟩
    · exact ⟨"key:", by simp [namePrefixes], h.starts⟩
  | site u =>
    rcases h with ⟨rest, rfl⟩ | h
    · exact ⟨"ip:", by simp [namePrefixes], prefix_append _ _⟩
    · exact ⟨"key:", by simp [namePrefixes], h.starts⟩
  | visitor ipHash =>
    obtain ⟨-, rest, rfl⟩ := h
    refine ⟨"demo:ip:", by simp [namePrefixes], ?_⟩
    rw [String.append_assoc]
    exact prefix_append _ _

/-- No ceiling is named like a sender's own counter. -/
theorem ne_ceiling_of_starts {A B : Sender} {p b : String} (hp : p ∈ A.namePrefixes)
    (hb : p.toList <+: b.toList) : B.ceiling ≠ some b := by
  have hnames : p ∈ ["user:", "key:", "ip:", "demo:ip:"] := by
    cases A <;> simp only [Sender.namePrefixes, List.mem_cons, List.not_mem_nil, or_false]
      at hp ⊢ <;>
      tauto
  have hno : ∀ p ∈ ["user:", "key:", "ip:", "demo:ip:"],
      ¬ p.toList <+: globalBucket.toList ∧ ¬ p.toList <+: demoGlobalBucket.toList := by
    decide
  intro hceiling
  cases B with
  | customer u =>
    obtain rfl : globalBucket = b := Option.some.inj hceiling
    exact (hno p hnames).1 hb
  | site u => cases hceiling
  | visitor g =>
    obtain rfl : demoGlobalBucket = b := Option.some.inj hceiling
    exact (hno p hnames).2 hb

theorem Sender.Owns.ne_ceiling {A B : Sender} {b : String} (h : A.Owns keys b) :
    B.ceiling ≠ some b := by
  obtain ⟨p, hp, hb⟩ := h.starts
  exact ne_ceiling_of_starts hp hb

theorem visitor_owns_unique {h g b : String} (hh : (Sender.visitor h).Owns keys b)
    (hg : (Sender.visitor g).Owns keys b) : h = g := by
  obtain ⟨hlen, rest, rfl⟩ := hh
  obtain ⟨glen, rest', heq⟩ := hg
  have hlist := congrArg String.toList heq
  simp only [String.toList_append, List.append_assoc, List.append_cancel_left_eq] at hlist
  have hsame : h.toList.length = g.toList.length := by
    rw [String.length_toList, String.length_toList, hlen, glen]
  exact String.toList_injective (List.append_inj hlist hsame).1

theorem customer_site_owner {u v : ℕ} {b : String} (hu : (Sender.customer u).Owns keys b)
    (hv : (Sender.site v).Owns keys b) : u = v := by
  rcases hu with rfl | hu
  · rcases hv with ⟨rest, hv⟩ | hv
    · exact (prefix_clash (prefix_append "user:" _) (hv ▸ prefix_append "ip:" rest)
        (by decide)).elim
    · exact (prefix_clash (prefix_append "user:" _) hv.starts (by decide)).elim
  · rcases hv with ⟨rest, rfl⟩ | hv
    · exact (prefix_clash (prefix_append "ip:" rest) hu.starts (by decide)).elim
    · exact hu.unique hv

/-- The demo's counters have names of their own. -/
theorem visitor_owns_alone {A : Sender} {h b : String} (hA : A.Owns keys b)
    (hh : (Sender.visitor h).Owns keys b) : ∃ g, A = .visitor g := by
  obtain ⟨p, hp, hpb⟩ := hA.starts
  obtain ⟨q, hq, hqb⟩ := hh.starts
  obtain rfl : q = "demo:ip:" := by simpa [Sender.namePrefixes] using hq
  have hno : ∀ p ∈ ["user:", "key:", "ip:"],
      ¬ (p.toList <+: "demo:ip:".toList ∨ "demo:ip:".toList <+: p.toList) := by
    decide
  cases A with
  | visitor g => exact ⟨g, rfl⟩
  | customer u =>
    refine (prefix_clash hpb hqb (hno p ?_)).elim
    rcases List.mem_pair.mp hp with rfl | rfl <;> simp
  | site u =>
    refine (prefix_clash hpb hqb (hno p ?_)).elim
    rcases List.mem_pair.mp hp with rfl | rfl <;> simp

/-- Senders that are apart own no counter together. -/
theorem not_owns_of_apart {A B : Sender} (hapart : A.apart B = true) {b : String}
    (hA : A.Owns keys b) (hB : B.Owns keys b) : False := by
  cases A with
  | customer u =>
    cases B with
    | customer v =>
      have huv : u ≠ v := by simpa [Sender.apart] using hapart
      rcases hA with rfl | hA
      · rcases hB with hB | hB
        · exact huv (userBucket_injective hB)
        · exact prefix_clash (prefix_append "user:" _) hB.starts (by decide)
      · rcases hB with rfl | hB
        · exact prefix_clash (prefix_append "user:" _) hA.starts (by decide)
        · exact huv (hA.unique hB)
    | site v =>
      have huv : u ≠ v := by simpa [Sender.apart] using hapart
      exact huv (customer_site_owner hA hB)
    | visitor g => exact nomatch visitor_owns_alone hA hB
  | site u =>
    cases B with
    | customer v =>
      have huv : u ≠ v := by simpa [Sender.apart] using hapart
      exact huv (customer_site_owner hB hA).symm
    | site v => cases hapart
    | visitor g => exact nomatch visitor_owns_alone hA hB
  | visitor g =>
    obtain ⟨h, rfl⟩ := visitor_owns_alone hB hA
    have hgh : g ≠ h := by simpa [Sender.apart] using hapart
    exact hgh (visitor_owns_unique hA hB)

end GeoPlatform.Convex
