import GeoPlatform.ArcGIS.Where
import GeoPlatform.Convex.Authorize
import GeoPlatform.Library.Redaction

/-! The formats of credentials (`core/security.py`) and the redaction of log lines
(`core/logging.py`). -/
namespace GeoPlatform.Api
open GeoPlatform.ArcGIS GeoPlatform.Convex Regex

/-! ### Python's expressions -/

def word (s : String) : Regex Char := lit s.toList

/-- One of several words. -/
def anyOf : List String → Regex Char
  | [] => assert fun _ _ => false
  | s :: words => alt (word s) (anyOf words)

/-- `[A-Za-z0-9]`. -/
def letterOrDigit (c : Char) : Bool := c.isAlphanum

/-- `^`. -/
def start : Regex Char := assert fun prev _ => prev.isNone

/-- `$` also matches before a newline at the end. -/
def finish : Regex Char := assert fun _ t => t = [] || t = ['\n']

/-- `\b`. -/
def boundary (P : PyText) : Regex Char :=
  assert fun prev t => prev.any P.word != t.head?.any P.word

/-- `(?i)` adds four letters beyond ASCII to the letters of a class. -/
def foldCase (c : Char) : Char :=
  if c.toNat = 0x130 || c.toNat = 0x131 then 'i'
  else if c.toNat = 0x17F then 's'
  else if c.toNat = 0x212A then 'k'
  else c.toLower

def ignoreCase (r : Regex Char) : Regex Char := r.comap foldCase

/-! ### Credentials -/

def API_KEY_PATTERN : Regex Char :=
  seq start (seq (word "geo_") (seq (opt (seq (anyOf ["live", "test"]) (word "_")))
    (seq (rep letterOrDigit 32 (some 32)) finish)))

def PLAYGROUND_TOKEN_PATTERN : Regex Char :=
  seq start (seq (word "geo_pt_") (seq (rep letterOrDigit 40 (some 40)) finish))

def credentialKind (token : List Char) : Option CredentialKind :=
  if API_KEY_PATTERN.fullmatch token then some .key
  else if PLAYGROUND_TOKEN_PATTERN.fullmatch token then some .playground
  else none

/-- An API key or a playground token. -/
structure Credential where
  token : List Char
  kind : CredentialKind
  valid : credentialKind token = some kind

def secretLength : CredentialKind → ℕ
  | .key => 32
  | .playground => 40

/-- The letters and digits at the end. -/
def Credential.secret (c : Credential) : List Char :=
  c.token.drop (c.token.length - secretLength c.kind)

/-! ### Patterns of secrets -/

/-- A pattern with its replacement: a text, with `\1` in front of it or not. -/
structure SecretPattern where
  pattern : Pattern Char
  group1 : Bool
  text : String

def SecretPattern.fill (p : SecretPattern) (w : Way Char) : List Char :=
  (if p.group1 then w.group.getD [] else []) ++ p.text.toList

/-- API keys of every format, playground tokens. -/
def CREDENTIALS : SecretPattern where
  pattern.regex := seq (word "geo_") (seq (opt (seq (anyOf ["live", "test", "pt"]) (word "_")))
    (rep letterOrDigit 10 none))
  pattern.consumes := Nat.le_of_ble_eq_true rfl
  group1 := false
  text := "geo_[REDACTED]"

variable (P : PyText)

/-- ArcGIS API keys and OAuth access tokens. -/
def ARCGIS_TOKENS : SecretPattern where
  pattern.regex := seq (boundary P) (seq (word "AAP") (seq (one Char.isUpper)
    (rep (fun c => letterOrDigit c || c ∈ "._~+/=-".toList) 20 none)))
  pattern.consumes := Nat.le_of_ble_eq_true rfl
  group1 := false
  text := "[REDACTED_ARCGIS_TOKEN]"

/-- Values of the `Authorization` header. -/
def AUTHORIZATION : SecretPattern where
  pattern.regex := ignoreCase (seq (boundary P) (seq (group (anyOf ["bearer", "basic"]))
    (seq (rep P.space 1 none) (rep (fun c => !(P.space c || c ∈ "\"',".toList)) 1 none))))
  pattern.consumes := Nat.le_of_ble_eq_true rfl
  group1 := true
  text := " [REDACTED]"

/-- Values of the `Cookie` header. -/
def COOKIES : SecretPattern where
  pattern.regex := ignoreCase (seq (boundary P) (seq
    (group (seq (opt (word "set-")) (seq (word "cookie") (seq (rep P.space 0 none)
      (seq (one fun c => c ∈ ":=".toList) (rep P.space 0 none))))))
    (rep (fun c => !(c ∈ "\n\"".toList)) 1 none)))
  pattern.consumes := Nat.le_of_ble_eq_true rfl
  group1 := true
  text := "[REDACTED]"

def SECRET_NAMES : List String :=
  ["token", "access_token", "refresh_token", "client_secret", "password", "secret", "api_key"]

/-- `key=value` in query strings and forms. -/
def FORM_VALUES : SecretPattern where
  pattern.regex := ignoreCase (seq (boundary P) (seq (group (anyOf (SECRET_NAMES ++ ["code"])))
    (seq (word "=") (rep (fun c => !(P.space c || c ∈ "&\"'".toList)) 1 none))))
  pattern.consumes := Nat.le_of_ble_eq_true rfl
  group1 := true
  text := "=[REDACTED]"

/-- `"key": "value"` in JSON. -/
def JSON_VALUES : SecretPattern where
  pattern.regex := ignoreCase (seq
    (group (seq (word "\"") (seq (anyOf SECRET_NAMES) (seq (word "\"") (seq (rep P.space 0 none)
      (seq (word ":") (seq (rep P.space 0 none) (word "\""))))))))
    (seq (rep (fun c => c ≠ '"') 0 none) (word "\"")))
  pattern.consumes := Nat.le_of_ble_eq_true rfl
  group1 := true
  text := "[REDACTED]\""

/-- Credentials inside URLs. -/
def URL_CREDENTIALS : SecretPattern where
  pattern.regex := ignoreCase (seq (boundary P) (seq
    (group (seq (one Char.isLower)
      (seq (rep (fun c => c.isLower || c.isDigit || c ∈ "+.-".toList) 0 none) (word "://"))))
    (seq (rep (fun c => !(P.space c || c ∈ "/:@".toList)) 1 none)
      (seq (word ":") (seq (rep (fun c => !(P.space c || c ∈ "/@".toList)) 1 none) (word "@"))))))
  pattern.consumes := Nat.le_of_ble_eq_true rfl
  group1 := true
  text := "[REDACTED]@"

def SECRET_PATTERNS : List SecretPattern :=
  [CREDENTIALS, ARCGIS_TOKENS P, AUTHORIZATION P, COOKIES P, FORM_VALUES P, JSON_VALUES P,
    URL_CREDENTIALS P]

/-- `redact_text`. -/
def redactText (text : List Char) : List Char :=
  (SECRET_PATTERNS P).foldl (fun text p => p.pattern.sub p.fill text) text

example : redactText asciiTables "auth geo_kkkkkkkkkk, token=abc".toList =
    "auth geo_[REDACTED], token=[REDACTED]".toList := by decide +kernel

end GeoPlatform.Api
