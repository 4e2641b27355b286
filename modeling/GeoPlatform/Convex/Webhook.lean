import GeoPlatform.Convex.HttpSecrets
import GeoPlatform.Library.Separators

/-! Webhooks. Whoever cannot sign gets no text but a signed one past the signature check, and a text
that Wire signed gets past it for five minutes. -/
namespace GeoPlatform.Convex.Http

/-! ### Signatures -/

/-- Digits that give the same bytes are the same, up to their case. -/
theorem hexBytes_lower {a b : List Char} (ha : ∀ c ∈ a, c ∈ hexDigits ++ upperHexDigits)
    (hb : ∀ c ∈ b, c ∈ hexDigits ++ upperHexDigits) (hlength : a.length = b.length)
    (heven : a.length % 2 = 0) (h : hexBytes a = hexBytes b) :
    a.map Char.toLower = b.map Char.toLower := by
  induction a using hexBytes.induct generalizing b with
  | case1 x y a ih =>
    obtain ⟨x', y', b, rfl⟩ : ∃ x' y' b', b = x' :: y' :: b' := by
      match b, hlength with
      | x' :: y' :: b, _ => exact ⟨x', y', b, rfl⟩
    simp only [List.forall_mem_cons] at ha hb
    obtain ⟨hx, hy, ha⟩ := ha
    obtain ⟨hx', hy', hb⟩ := hb
    simp only [hexBytes, List.cons.injEq] at h
    simp only [List.length_cons] at hlength heven
    have hdigits : JsNumber.digitValue x = JsNumber.digitValue x' ∧
        JsNumber.digitValue y = JsNumber.digitValue y' := by
      have := digitValue_small y hy
      have := digitValue_small y' hy'
      omega
    rw [List.map_cons, List.map_cons, List.map_cons, List.map_cons,
      digitValue_lower x hx x' hx' hdigits.1, digitValue_lower y hy y' hy' hdigits.2,
      ih ha hb (by omega) (by omega) h.2]
  | case2 a hshort =>
    match a, hlength, heven, hshort with
    | [], hlength, _, _ => rw [List.length_eq_zero_iff.mp hlength.symm]
    | [_], _, heven, _ => cases heven
    | x :: y :: a, _, _, hshort => exact absurd rfl (hshort x y a)

theorem hash_digits {s : String} (h : isHash s = true) :
    s.toList.length = 64 ∧ ∀ c ∈ s.toList, c ∈ hexDigits := by
  simp only [isHash, Bool.and_eq_true, decide_eq_true_eq, List.all_eq_true] at h
  exact ⟨h.1, fun c hc => hashDigit_mem (h.2 c hc)⟩

/-- What `t` and `v1` of a header come to. -/
def Verified (env : HttpEnv) (body header secret : String) (nowMs : ℕ) : Prop :=
  ∃ timestamp signature seconds,
    (entryValue (wireEntries header) "t" = some timestamp ∧ isWireTimestamp timestamp = true) ∧
    (entryValue (wireEntries header) "v1" = some signature ∧ isWireSignature signature = true) ∧
    JsNumber.digits 10 timestamp = some seconds ∧ seconds ≤ MAX_SAFE_INTEGER ∧
    |(nowMs : ℚ) / 1000 - seconds| ≤ 300 ∧
    hexBytes signature =
      hexBytes (env.hmacSha256Hex secret (String.ofList timestamp ++ "." ++ body)).toList

variable {env : HttpEnv} {body header secret : String} {nowMs : ℕ}

theorem verifyWireSignature_iff (hheader : header ≠ "") :
    verifyWireSignature env body (some header) secret nowMs = true ↔
      Verified env body header secret nowMs := by
  have hfilter : (some header).filter (· ≠ "") = some header :=
    Option.filter_some_pos (by simpa using hheader)
  rw [verifyWireSignature, hfilter]
  simp only
  constructor
  · intro h
    split at h
    · rename_i timestamp signature ht hs
      split at h
      · cases h
      · rename_i seconds hseconds
        split_ifs at h with hstale
        rw [sameBytes_iff] at h
        rw [not_or, not_lt, not_lt] at hstale
        exact ⟨timestamp, signature, seconds, Option.filter_eq_some_iff.mp ht,
          Option.filter_eq_some_iff.mp hs, hseconds, hstale.1, hstale.2, h⟩
    · cases h
  · rintro ⟨timestamp, signature, seconds, ht, hs, hseconds, hsafe, hfresh, hbytes⟩
    rw [Option.filter_eq_some_iff.mpr ht, Option.filter_eq_some_iff.mpr hs]
    simp only [hseconds]
    rw [if_neg (not_or.mpr ⟨not_lt.mpr hsafe, not_lt.mpr hfresh⟩), sameBytes_iff, hbytes]

theorem dropWhile_piece {α : Type} (p : α → Bool) (l : List α) : l.dropWhile p <:+: l :=
  (List.dropWhile_suffix p).isInfix

theorem jsTrim_piece (cs : List Char) : jsTrim cs <:+: cs := by
  have hinner := List.reverse_infix.mpr
    (dropWhile_piece isSpace (cs.dropWhile isSpace).reverse)
  rw [List.reverse_reverse] at hinner
  exact hinner.trans (dropWhile_piece isSpace cs)

/-- A value is a piece of its header. -/
theorem entryValue_piece {name : String} {value : List Char}
    (h : entryValue (wireEntries header) name = some value) : value <:+: header.toList := by
  obtain ⟨entry, hentry, hvalue⟩ := Option.bind_eq_some_iff.mp h
  obtain ⟨part, hpart, rfl⟩ := List.mem_map.mp (List.mem_of_find?_eq_some hentry)
  have hpiece := Separators.piece_splitOn (List.mem_of_getElem? hvalue)
  exact (hpiece.trans (jsTrim_piece part)).trans (Separators.piece_splitOn hpart)

/-- The text that is signed. -/
def payload (timestamp body : String) : String := timestamp ++ "." ++ body

/-- The header shows the signature of a text. -/
def Shows (env : HttpEnv) (secret header text : String) : Prop :=
  (env.hmacSha256Hex secret text).toList <:+: header.toList.map Char.toLower

/-- What is accepted shows the signature of the body at a time of the last or next five minutes. -/
theorem Verified.shows (h : Verified env body header secret nowMs) :
    ∃ timestamp seconds, isWireTimestamp timestamp = true ∧
      JsNumber.digits 10 timestamp = some seconds ∧ |(nowMs : ℚ) / 1000 - seconds| ≤ 300 ∧
      Shows env secret header (payload (String.ofList timestamp) body) := by
  obtain ⟨timestamp, signature, seconds, ⟨-, ht⟩, ⟨hv1, hs⟩, hseconds, -, hfresh, hbytes⟩ := h
  refine ⟨timestamp, seconds, ht, hseconds, hfresh, ?_⟩
  obtain ⟨hlength, hdigits⟩ :=
    hash_digits (env.digest_valid secret (payload (String.ofList timestamp) body))
  rw [isWireSignature, Bool.and_eq_true, decide_eq_true_eq, List.all_eq_true] at hs
  have hlower := hexBytes_lower (fun c hc => hexDigit_mem (hs.2 c hc))
    (fun c hc => List.mem_append_left _ (hdigits c hc)) (hs.1.trans hlength.symm) (by rw [hs.1])
    hbytes
  have hself := List.map_congr_left fun c hc => (hexDigits_lower c (hdigits c hc)).1
  rw [List.map_id'] at hself
  rw [Shows, ← hself, ← hlower]
  exact (entryValue_piece hv1).map Char.toLower

/-! ### Wire's own header -/

/-- The header that Wire sends with a body. -/
def wireHeader (env : HttpEnv) (secret : String) (seconds : ℕ) (body : String) : String :=
  "t=" ++ toString seconds ++ ",v1=" ++ env.hmacSha256Hex secret (payload (toString seconds) body)

theorem hexDigits_plain : ∀ c ∈ hexDigits, c ≠ ',' ∧ c ≠ '=' ∧ isSpace c = false := by
  have hall : hexDigits.all (fun c => c ≠ ',' && (c ≠ '=' && !isSpace c)) = true := by
    decide +kernel
  intro c hc
  simpa using List.all_eq_true.mp hall c hc

/-- An entry without commas and white space, its value without another sign. -/
theorem entry_split {name value : List Char} (hname : '=' ∉ name) (hvalue : '=' ∉ value)
    (hspace : ∀ c ∈ name ++ '=' :: value, isSpace c = false) :
    (jsTrim (name ++ '=' :: value)).splitOn '=' = [name, value] := by
  rw [jsTrim_eq hspace, List.splitOn_append_cons_self, List.splitOn_eq_singleton hname,
    List.splitOn_eq_singleton hvalue]
  rfl

theorem wireEntries_wireHeader (env : HttpEnv) (secret : String) (seconds : ℕ) (body : String) :
    wireEntries (wireHeader env secret seconds body) =
      [["t".toList, (toString seconds).toList],
        ["v1".toList, (env.hmacSha256Hex secret (payload (toString seconds) body)).toList]] := by
  have hseconds : ∀ c ∈ (toString seconds).toList, c ≠ ',' ∧ c ≠ '=' ∧ isSpace c = false := by
    intro c hc
    refine hexDigits_plain c (hashDigit_mem ?_)
    rw [isDigit_of_mem_toString hc, Bool.true_or]
  have hdigest : ∀ c ∈ (env.hmacSha256Hex secret (payload (toString seconds) body)).toList,
      c ≠ ',' ∧ c ≠ '=' ∧ isSpace c = false := fun c hc =>
    hexDigits_plain c ((hash_digits (env.digest_valid _ _)).2 c hc)
  generalize hd : (env.hmacSha256Hex secret (payload (toString seconds) body)).toList = digest
    at hdigest
  generalize hd' : (toString seconds).toList = digits at hseconds
  have hsplit : (wireHeader env secret seconds body).toList =
      ("t".toList ++ '=' :: digits) ++ ',' :: ("v1".toList ++ '=' :: digest) := by
    rw [wireHeader, String.toList_append, String.toList_append, String.toList_append, hd', hd]
    simp
  have hcomma : ',' ∉ "t".toList ++ '=' :: digits := by
    simp only [List.mem_append, List.mem_cons, not_or]
    exact ⟨by decide, by decide, fun hc => (hseconds _ hc).1 rfl⟩
  have hcomma' : ',' ∉ "v1".toList ++ '=' :: digest := by
    simp only [List.mem_append, List.mem_cons, not_or]
    exact ⟨by decide, by decide, fun hc => (hdigest _ hc).1 rfl⟩
  have hspace : ∀ {name value : List Char}, (∀ c ∈ name, isSpace c = false) →
      (∀ c ∈ value, c ≠ ',' ∧ c ≠ '=' ∧ isSpace c = false) →
      ∀ c ∈ name ++ '=' :: value, isSpace c = false := by
    intro name value hname hvalue c hc
    rcases List.mem_append.mp hc with hc | hc
    · exact hname c hc
    · rcases List.mem_cons.mp hc with rfl | hc
      · decide
      · exact (hvalue c hc).2.2
  have ht : ∀ c ∈ "t".toList, isSpace c = false := List.forall_mem_singleton.mpr (by decide)
  have hv1 : ∀ c ∈ "v1".toList, isSpace c = false :=
    List.forall_mem_cons.mpr ⟨by decide, List.forall_mem_singleton.mpr (by decide)⟩
  rw [wireEntries, hsplit, List.splitOn_append_cons_self, List.splitOn_eq_singleton hcomma,
    List.splitOn_eq_singleton hcomma', List.singleton_append, List.map_cons, List.map_singleton,
    entry_split (by decide) (fun hc => (hseconds _ hc).2.1 rfl) (hspace ht hseconds),
    entry_split (by decide) (fun hc => (hdigest _ hc).2.1 rfl) (hspace hv1 hdigest)]

/-- For five minutes Wire's own header is accepted. -/
theorem verified_wireHeader {seconds : ℕ} (hsafe : seconds ≤ MAX_SAFE_INTEGER)
    (hfresh : |(nowMs : ℚ) / 1000 - seconds| ≤ 300) :
    Verified env body (wireHeader env secret seconds body) secret nowMs := by
  obtain ⟨hlength, hdigits⟩ :=
    hash_digits (env.digest_valid secret (payload (toString seconds) body))
  refine ⟨(toString seconds).toList,
    (env.hmacSha256Hex secret (payload (toString seconds) body)).toList, seconds, ⟨?_, ?_⟩,
    ⟨?_, ?_⟩, JsNumber.digits_toString seconds, hsafe, hfresh, ?_⟩
  · rw [wireEntries_wireHeader]
    rfl
  · rw [isWireTimestamp, Bool.and_eq_true, List.all_eq_true]
    exact ⟨by simp, fun c hc => isDigit_of_mem_toString hc⟩
  · rw [wireEntries_wireHeader]
    rfl
  · rw [isWireSignature, Bool.and_eq_true, decide_eq_true_eq, List.all_eq_true]
    exact ⟨hlength, fun c hc => (hexDigits_lower c (hdigits c hc)).2⟩
  · rw [String.ofList_toList]
    rfl

/-! ### Events -/

/-- An event that says something about an intent. -/
structure Concerns (event : Json) (paymentIntentId : String) : Prop where
  kind : ∃ type, text? event "type" = some type ∧ type ∈ PAYMENT_EVENTS
  intent : intentOf event = some (.string paymentIntentId)
  named : paymentIntentId ≠ ""

theorem webhookEvent_settle {event : Json} {paymentIntentId : String} :
    webhookEvent event = .settle paymentIntentId ↔ Concerns event paymentIntentId := by
  have hkind : PAYMENT_EVENTS.contains ((text? event "type").getD "") = true ↔
      ∃ type, text? event "type" = some type ∧ type ∈ PAYMENT_EVENTS := by
    rw [List.contains_iff_mem]
    cases text? event "type" with
    | none => exact ⟨fun h => absurd h (by decide), fun ⟨_, h, _⟩ => by cases h⟩
    | some type => exact ⟨fun h => ⟨type, rfl, h⟩, fun ⟨_, h, hmem⟩ => by cases h; exact hmem⟩
  have hnull : webhookEvent .null = .settle paymentIntentId ↔ Concerns .null paymentIntentId := by
    refine ⟨fun h => Handling.noConfusion h, fun h => ?_⟩
    cases h.intent
  have hother : event ≠ .null → (webhookEvent event = .settle paymentIntentId ↔
      Concerns event paymentIntentId) := by
    intro hevent
    rw [webhookEvent]
    · cases hintent : (intentOf event).filter truthy with
      | none =>
        refine ⟨fun h => Handling.noConfusion h, fun h => ?_⟩
        rw [h.intent, Option.filter_some_pos (by simpa [truthy] using h.named)] at hintent
        cases hintent
      | some intentId =>
        obtain ⟨hsome, htruthy⟩ := Option.filter_eq_some_iff.mp hintent
        simp only
        constructor
        · intro h
          split_ifs at h with htype
          cases intentId <;> cases h
          exact ⟨hkind.mp htype, hsome, by simpa [truthy] using htruthy⟩
        · intro h
          rw [if_pos (hkind.mpr h.kind)]
          rw [h.intent] at hsome
          cases hsome
          rfl
    · exact hevent
  by_cases hevent : event = .null
  · rw [hevent]
    exact hnull
  · exact hother hevent

/-! ### Requests -/

/-- Whoever sends the header can show signatures of signed texts only. -/
def Unforgeable (env : HttpEnv) (secret : String) (signed : ℕ → String → Prop)
    (header : Option String) : Prop :=
  ∀ value text, header = some value → Shows env secret value text →
    ∃ seconds body, signed seconds body ∧ text = payload (toString seconds) body

theorem payload_injective {timestamp : List Char} {seconds : ℕ} {body body' : String}
    (ht : isWireTimestamp timestamp = true)
    (h : payload (String.ofList timestamp) body = payload (toString seconds) body') :
    timestamp = (toString seconds).toList ∧ body = body' := by
  rw [isWireTimestamp, Bool.and_eq_true, List.all_eq_true] at ht
  have hdot : ∀ {cs : List Char}, (∀ c ∈ cs, c.isDigit = true) → '.' ∉ cs :=
    fun hcs hc => absurd (hcs _ hc) (by decide)
  have hchars : timestamp ++ '.' :: body.toList =
      (toString seconds).toList ++ '.' :: body'.toList := by
    have htext := congrArg String.toList h
    simpa [payload] using htext
  obtain ⟨htimestamp, hbody⟩ := Separators.split_first (hdot ht.2)
    (hdot fun c hc => isDigit_of_mem_toString hc) hchars
  exact ⟨htimestamp, String.toList_inj.mp hbody⟩

theorem handle_webhook {r : HttpRequest} (hmethod : r.method = "POST")
    (hpath : r.path = "/wirepayment/webhook") (now : ℕ) : handle env now r = webhook env now r := by
  simp [handle, hmethod, hpath]

/-- An intent is checked only for an event that Wire signed within five minutes, and whenever Wire
sends such an event with its signature. -/
theorem webhook_exact {r : HttpRequest} {now : ℕ} {signed : ℕ → String → Prop}
    (hsecret : env.WIREPAYMENT_WEBHOOK_SECRET = some secret) (hnamed : secret ≠ "")
    (hmethod : r.method = "POST") (hpath : r.path = "/wirepayment/webhook")
    (hunforgeable : Unforgeable env secret signed (r.headers "wirepayment-signature"))
    (paymentIntentId : String) :
    (handle env now r = .settle paymentIntentId → ∃ seconds event,
      signed seconds r.text ∧ |(now : ℚ) / 1000 - seconds| ≤ 300 ∧ r.json = some event ∧
        Concerns event paymentIntentId) ∧
    (∀ seconds event, r.headers "wirepayment-signature" =
        some (wireHeader env secret seconds r.text) → seconds ≤ MAX_SAFE_INTEGER →
      |(now : ℚ) / 1000 - seconds| ≤ 300 → jsLength r.text.toList ≤ 64 * 1024 →
      r.json = some event → Concerns event paymentIntentId →
      handle env now r = .settle paymentIntentId) := by
  have hfilter : env.WIREPAYMENT_WEBHOOK_SECRET.filter (· ≠ "") = some secret := by
    rw [hsecret, Option.filter_some_pos (by simpa using hnamed)]
  rw [handle_webhook hmethod hpath, webhook, hfilter]
  simp only
  constructor
  · intro h
    split_ifs at h with hsize hverified
    cases hheader : r.headers "wirepayment-signature" with
    | none =>
      rw [hheader] at hverified
      exact absurd rfl hverified
    | some header =>
      rw [hheader, Bool.not_eq_true', Bool.not_eq_false] at hverified
      have hne : header ≠ "" := by
        rintro rfl
        cases hverified
      obtain ⟨timestamp, seconds, ht, hseconds, hfresh, hshows⟩ :=
        ((verifyWireSignature_iff hne).mp hverified).shows
      obtain ⟨seconds', body, hsigned, htext⟩ := hunforgeable header _ hheader hshows
      obtain ⟨htimestamp, rfl⟩ := payload_injective ht htext
      rw [htimestamp, JsNumber.digits_toString] at hseconds
      cases hseconds
      cases hjson : r.json with
      | none =>
        rw [hjson] at h
        cases h
      | some event =>
        rw [hjson] at h
        exact ⟨seconds, event, hsigned, hfresh, rfl, webhookEvent_settle.mp h⟩
  · intro seconds event hheader hsafe hfresh hsize hjson hconcerns
    have hne : wireHeader env secret seconds r.text ≠ "" := by
      intro hempty
      have hchars := congrArg String.toList hempty
      simp [wireHeader] at hchars
    have hown : Verified env r.text (wireHeader env secret seconds r.text) secret now :=
      verified_wireHeader hsafe hfresh
    have hverified := (verifyWireSignature_iff hne).mpr hown
    rw [if_neg (not_lt.mpr hsize), hheader, hverified, if_neg (by decide), hjson]
    exact webhookEvent_settle.mpr hconcerns

/-! ### A delivery -/

def sampleBody : String :=
  "\x7b\"type\":\"payment_intent.succeeded\"," ++
    "\"data\":\x7b\"object\":\x7b\"id\":\"pi_1\"\x7d\x7d\x7d"

def sampleEvent : Json :=
  .object [("type", .string "payment_intent.succeeded"),
    ("data", .object [("object", .object [("id", .string "pi_1")])])]

def sampleSecret : String := "whsec_0123456789abcdef"

def sampleProcess : ProcessEnv where
  GATEWAY_SECRET := testEnv.GATEWAY_SECRET
  hmacSha256Hex secret value :=
    if secret = sampleSecret ∧ value = "1767225600." ++ sampleBody then
      "3529a55ab3cd74f20ab21912049c0c53064ede8325878db142ed3096f85f18c4"
    else testEnv.hmacSha256Hex secret value

theorem sampleProcess_valid (secret value : String) :
    isHash (sampleProcess.hmacSha256Hex secret value) = true := by
  simp only [sampleProcess]
  split_ifs
  · decide +kernel
  · exact testEnv_digest secret value

def sampleEnv : HttpEnv where
  toProcessEnv := sampleProcess
  WIREPAYMENT_WEBHOOK_SECRET := some sampleSecret
  digest_valid := sampleProcess_valid

def sampleHeader : String :=
  "t=1767225600,v1=3529a55ab3cd74f20ab21912049c0c53064ede8325878db142ed3096f85f18c4"

def sampleDelivery : HttpRequest where
  method := "POST"
  path := "/wirepayment/webhook"
  headers name := if name = "wirepayment-signature" then some sampleHeader else none
  text := sampleBody
  json := some sampleEvent

/-- Wire signed one body, at one time. -/
def sampleSigned (seconds : ℕ) (body : String) : Prop := seconds = 1767225600 ∧ body = sampleBody

theorem sampleDelivery_unforgeable :
    Unforgeable sampleEnv sampleSecret sampleSigned (some sampleHeader) := by
  rintro value text ⟨⟩ hshows
  refine ⟨1767225600, sampleBody, ⟨rfl, rfl⟩, ?_⟩
  by_contra hother
  have hne : ¬ (sampleSecret = sampleSecret ∧ text = "1767225600." ++ sampleBody) :=
    fun h => hother (h.2.trans (by decide +kernel))
  have hdigest : sampleEnv.hmacSha256Hex sampleSecret text =
      testEnv.hmacSha256Hex sampleSecret text := if_neg hne
  rw [Shows, hdigest] at hshows
  simp only [testEnv] at hshows
  split_ifs at hshows
  · exact absurd hshows (by decide +kernel)
  · exact absurd hshows (by decide +kernel)

theorem sampleEvent_concerns : Concerns sampleEvent "pi_1" :=
  ⟨⟨_, rfl, by decide⟩, rfl, by decide⟩

/-- A minute after it was signed the delivery starts a check of its intent. -/
theorem webhook_exact_sample :
    handle sampleEnv 1767225660000 sampleDelivery = .settle "pi_1" ∧
    ∃ seconds event, sampleSigned seconds sampleBody ∧
      |((1767225660000 : ℕ) : ℚ) / 1000 - seconds| ≤ 300 ∧ sampleDelivery.json = some event ∧
        Concerns event "pi_1" := by
  have hsettles : handle sampleEnv 1767225660000 sampleDelivery = .settle "pi_1" :=
    (webhook_exact (by rfl) (by decide) (by rfl) (by rfl) sampleDelivery_unforgeable "pi_1").2
      1767225600 sampleEvent (by decide +kernel) (by decide) (by norm_num [abs_of_nonneg])
      (by decide +kernel) rfl sampleEvent_concerns
  exact ⟨hsettles,
    (webhook_exact (by rfl) (by decide) (by rfl) (by rfl) sampleDelivery_unforgeable "pi_1").1
      hsettles⟩

end GeoPlatform.Convex.Http
