import GeoPlatform.ArcGIS.QueryAll
import GeoPlatform.Library.SqlText

/-! The `where` clauses of a forward search. User text is reduced to allowed characters, its
quotes are doubled, and the only wildcards are the ones this module adds. -/
namespace GeoPlatform.ArcGIS
open SqlText

/-- What the code relies on of Python's Unicode tables: the classes `\w` and `\s`, and
`str.upper`, which maps each character on its own, to one character or several. -/
structure PyText where
  word : Char → Bool
  space : Char → Bool
  upper : Char → List Char
  percent_not_word : word '%' = false
  percent_not_space : space '%' = false
  upper_percent : upper '%' = ['%']
  upper_fresh : ∀ c, ∀ m ∈ ['\'', '%', '_'], m ∈ upper c → c = m

variable (P : PyText)

/-! ### Normalized text -/

def allowedPunctuation : List Char := ['-', '.', ',', '\'', '&', '/', '#', '№', '(', ')']

/-- `_DISALLOWED` matches the character. -/
def disallowed (c : Char) : Bool :=
  !(P.word c || P.space c || c ∈ allowedPunctuation) || c = '_'

/-- `_WHITESPACE.sub(" ", ·)`: of a run of blanks only the last stays, as a space. -/
def collapse : List Char → List Char
  | [] => []
  | [c] => if P.space c then [' '] else [c]
  | c :: d :: cs =>
      if P.space c then
        if P.space d then collapse (d :: cs) else ' ' :: collapse (d :: cs)
      else c :: collapse (d :: cs)

/-- `str.strip`. -/
def strip (s : List Char) : List Char :=
  ((s.dropWhile P.space).reverse.dropWhile P.space).reverse

def normalizeSearchText (text : String) : String :=
  String.ofList (strip P (collapse P
    (text.toList.map fun c => if disallowed P c then ' ' else c)))

/-- `str.upper`. -/
def PyText.upperText (s : String) : String := String.ofList (s.toList.flatMap P.upper)

/-! ### Clauses -/

def sqlLiteral (value : String) : String :=
  "'" ++ String.ofList (doubled value.toList) ++ "'"

def upperLike (field pattern : String) : Except QueryError String :=
  if validFieldName field then
    .ok ("UPPER(" ++ field ++ ") LIKE " ++ sqlLiteral (P.upperText pattern))
  else .error (.invalidField field)

def anyFieldLike (fields : List String) (pattern : String) : Except QueryError String :=
  (fields.mapM fun field => upperLike P field pattern).map fun parts =>
    "(" ++ " OR ".intercalate parts ++ ")"

def prefixClause (fields : List String) (text : String) : Except QueryError String :=
  anyFieldLike P fields (text ++ "%")

def containsAllTokensClause (fields tokens : List String) : Except QueryError String :=
  (tokens.mapM fun token => anyFieldLike P fields ("%" ++ token ++ "%")).map
    (" AND ".intercalate ·)

def MAX_SEARCH_TOKENS : ℕ := 8

/-- `list(dict.fromkeys(normalized.split(" ")))[:MAX_SEARCH_TOKENS]`. -/
def searchTokens (normalized : String) : List String :=
  ((normalized.toList.splitOn ' ').map String.ofList).eraseDups.take MAX_SEARCH_TOKENS

/-- The clauses of the two queries of `search`, or none for a text that normalizes to nothing. -/
def searchClauses (fields : List String) (text : String) :
    Except QueryError (Option (String × String)) :=
  let normalized := normalizeSearchText P text
  if normalized = "" then .ok none
  else
    match prefixClause P fields normalized with
    | .error e => .error e
    | .ok starts =>
        match containsAllTokensClause P fields (searchTokens normalized) with
        | .error e => .error e
        | .ok contains => .ok (some (starts, contains))

/-! ### The tokens of a clause -/

/-- `(UPPER(f) LIKE 'value' OR …)`. -/
def likeTokens (fields : List String) (value : String) : List Token :=
  .lparen :: ([Token.word "OR"].intercalate (fields.map fun f =>
    [.word "UPPER", .lparen, .word f, .rparen, .word "LIKE", .literal value]) ++ [.rparen])

/-- One such group for each value, joined by `AND`. -/
def containsTokens (fields values : List String) : List Token :=
  [Token.word "AND"].intercalate (values.map (likeTokens fields))

theorem isWord_of_validFieldName {name : String} (h : validFieldName name = true) :
    IsWord name.toList := by
  unfold validFieldName at h
  cases hs : name.toList with
  | nil => simp [hs] at h
  | cons c cs =>
    simp only [hs, Bool.and_eq_true, List.all_eq_true] at h
    refine ⟨⟨c, cs, rfl, h.1⟩, ?_⟩
    intro x hx
    rcases List.mem_cons.mp hx with rfl | hx
    · simp only [wordPart, Bool.or_eq_true, Char.isAlphanum] at h ⊢
      tauto
    · exact h.2 x hx

theorem isWord_UPPER : IsWord "UPPER".toList :=
  ⟨⟨'U', _, rfl, by decide⟩, List.all_eq_true.mp (by decide)⟩

theorem isWord_LIKE : IsWord "LIKE".toList :=
  ⟨⟨'L', _, rfl, by decide⟩, List.all_eq_true.mp (by decide)⟩

theorem isWord_OR : IsWord "OR".toList :=
  ⟨⟨'O', _, rfl, by decide⟩, List.all_eq_true.mp (by decide)⟩

theorem isWord_AND : IsWord "AND".toList :=
  ⟨⟨'A', _, rfl, by decide⟩, List.all_eq_true.mp (by decide)⟩

/-- The condition of one field reads as six tokens, the last of which is the whole value. -/
theorem lexes_like {field : String} (h : validFieldName field = true) (value : String) :
    Lexes ("UPPER(" ++ field ++ ") LIKE " ++ sqlLiteral value).toList
      [.word "UPPER", .lparen, .word field, .rparen, .word "LIKE", .literal value] := by
  have hfield := (isWord_of_validFieldName h).lexes
  have hvalue := lexes_literal value.toList
  rw [String.ofList_toList] at hfield hvalue
  have hblank : delimiter ' ' = some [] := rfl
  have hlike := isWord_LIKE.lexes.delimit hblank hvalue
  have hclose := hfield.delimit (show delimiter ')' = some [.rparen] from rfl)
    (lexes_nil.delimit hblank hlike)
  have hall := isWord_UPPER.lexes.delimit (show delimiter '(' = some [.lparen] from rfl) hclose
  simpa [sqlLiteral, String.toList_append] using hall

theorem mapM_map_ok {β γ : Type} {f : β → Except QueryError γ} {g : β → γ} {xs : List β}
    (h : ∀ x ∈ xs, f x = .ok (g x)) : xs.mapM f = .ok (xs.map g) := by
  induction xs with
  | nil => rfl
  | cons x xs ih =>
    rw [List.mapM_cons, h x (by simp), ih fun y hy => h y (List.mem_cons_of_mem x hy)]
    rfl

variable {P} {fields : List String}

/-- The clause over all the fields for one pattern reads as `likeTokens`. -/
theorem anyFieldLike_lexes (hf : ∀ f ∈ fields, validFieldName f = true) (pattern : String) :
    ∃ s, anyFieldLike P fields pattern = .ok s ∧
      Lexes s.toList (likeTokens fields (P.upperText pattern)) := by
  have hparts : (fields.mapM fun field => upperLike P field pattern) = .ok (fields.map
      fun f => "UPPER(" ++ f ++ ") LIKE " ++ sqlLiteral (P.upperText pattern)) :=
    mapM_map_ok fun f hmem => if_pos (hf f hmem)
  refine ⟨_, by rw [anyFieldLike, hparts]; rfl, ?_⟩
  have hjoin := lexes_intercalate isWord_OR
    (fun f => ("UPPER(" ++ f ++ ") LIKE " ++ sqlLiteral (P.upperText pattern)).toList) _
    fun f hmem => lexes_like (hf f hmem) (P.upperText pattern)
  have hsep : (" OR " : String).toList = ' ' :: ("OR".toList ++ [' ']) := by decide
  have hall := hjoin.parens
  rw [String.ofList_toList, ← hsep] at hall
  simpa [String.toList_append, String.toList_intercalate, Function.comp_def, likeTokens]
    using hall

theorem containsAllTokensClause_lexes (hf : ∀ f ∈ fields, validFieldName f = true)
    (tokens : List String) : ∃ s, containsAllTokensClause P fields tokens = .ok s ∧
      Lexes s.toList (containsTokens fields (tokens.map fun t =>
        P.upperText ("%" ++ t ++ "%"))) := by
  choose part hok hlex using fun t : String => anyFieldLike_lexes (P := P) hf ("%" ++ t ++ "%")
  have hparts : (tokens.mapM fun t => anyFieldLike P fields ("%" ++ t ++ "%")) =
      .ok (tokens.map part) := mapM_map_ok fun t _ => hok t
  refine ⟨_, by rw [containsAllTokensClause, hparts]; rfl, ?_⟩
  have hjoin := lexes_intercalate isWord_AND (fun t => (part t).toList) _
    fun t (_ : t ∈ tokens) => hlex t
  have hsep : (" AND " : String).toList = ' ' :: ("AND".toList ++ [' ']) := by decide
  rw [String.ofList_toList, ← hsep] at hjoin
  simpa [String.toList_intercalate, Function.comp_def, containsTokens] using hjoin

/-! ### Characters -/

theorem upperText_append (s t : String) :
    P.upperText (s ++ t) = P.upperText s ++ P.upperText t := by
  simp [PyText.upperText, String.toList_append, String.ofList_append]

theorem upperText_percent : P.upperText "%" = "%" := by
  simp [PyText.upperText, P.upper_percent]

/-- Neither of the wildcards of `LIKE`. -/
def Plain (s : List Char) : Prop := ∀ c ∈ s, c ≠ '%' ∧ c ≠ '_'

theorem plain_upperText {s : String} (h : Plain s.toList) : Plain (P.upperText s).toList := by
  intro c hc
  rw [PyText.upperText, String.toList_ofList, List.mem_flatMap] at hc
  obtain ⟨d, hd, hcd⟩ := hc
  constructor
  · rintro rfl
    exact (h d hd).1 (P.upper_fresh d '%' (by simp) hcd)
  · rintro rfl
    exact (h d hd).2 (P.upper_fresh d '_' (by simp) hcd)

/-- Collapsing blanks brings in nothing but spaces. -/
theorem plain_collapse {s : List Char} (h : Plain s) : Plain (collapse P s) := by
  have hspace : Plain [' '] := by
    intro c hc
    rw [List.mem_singleton.mp hc]
    decide
  induction s using collapse.induct P with
  | case1 => exact h
  | case2 c hc =>
    rw [collapse, if_pos hc]
    exact hspace
  | case3 c hc =>
    rw [collapse, if_neg hc]
    exact h
  | case4 c d cs hc hd ih =>
    rw [collapse, if_pos hc, if_pos hd]
    exact ih fun x hx => h x (List.mem_cons_of_mem c hx)
  | case5 c d cs hc hd ih =>
    rw [collapse, if_pos hc, if_neg hd]
    have hrest := ih fun x hx => h x (List.mem_cons_of_mem c hx)
    intro x hx
    rcases List.mem_cons.mp hx with rfl | hx
    · decide
    · exact hrest x hx
  | case6 c d cs hc ih =>
    rw [collapse, if_neg hc]
    have hrest := ih fun x hx => h x (List.mem_cons_of_mem c hx)
    intro x hx
    rcases List.mem_cons.mp hx with rfl | hx
    · exact h x (by simp)
    · exact hrest x hx

theorem mem_of_mem_strip {s : List Char} {c : Char} (h : c ∈ strip P s) : c ∈ s := by
  have h1 := (List.dropWhile_sublist _).subset (List.mem_reverse.mp h)
  exact (List.dropWhile_sublist _).subset (List.mem_reverse.mp h1)

theorem plain_normalizeSearchText (text : String) :
    Plain (normalizeSearchText P text).toList := by
  rw [normalizeSearchText, String.toList_ofList]
  intro c hc
  refine plain_collapse (P := P) (fun d hd => ?_) c (mem_of_mem_strip hc)
  obtain ⟨x, -, rfl⟩ := List.mem_map.mp hd
  cases hx : disallowed P x with
  | true => simp
  | false =>
    -- What is left in place is a word character, a blank or one of the punctuation marks.
    simp only [disallowed, Bool.or_eq_false_iff, Bool.not_eq_false', decide_eq_false_iff_not,
      Bool.or_eq_true] at hx
    refine ⟨?_, by simpa using hx.2⟩
    rintro hp
    simp only [Bool.false_eq_true, if_false] at hp
    subst hp
    have h1 := hx.1
    rw [P.percent_not_word, P.percent_not_space] at h1
    revert h1
    decide

theorem mem_intercalate_of_mem {sep : List Char} {l : List (List Char)} {s : List Char}
    {c : Char} (hs : s ∈ l) (hc : c ∈ s) : c ∈ sep.intercalate l := by
  induction l with
  | nil => cases hs
  | cons t l ih =>
    cases l with
    | nil =>
      rw [List.mem_singleton.mp hs] at hc
      simpa using hc
    | cons u l =>
      rw [List.intercalate_cons_cons]
      rcases List.mem_cons.mp hs with rfl | hs
      · simp [hc]
      · simp [ih hs]

theorem plain_searchTokens {normalized : String} (h : Plain normalized.toList) :
    ∀ t ∈ searchTokens normalized, Plain t.toList := by
  intro t ht c hc
  obtain ⟨s, hs, rfl⟩ := List.mem_map.mp (List.mem_eraseDups.mp (List.mem_of_mem_take ht))
  rw [String.toList_ofList] at hc
  apply h
  rw [← @List.intercalate_splitOn _ normalized.toList _ _ ' ']
  exact mem_intercalate_of_mem hs hc

/-! ### Skeletons -/

theorem map_intercalate {α β : Type} (f : α → β) (sep : List α) (l : List (List α)) :
    (sep.intercalate l).map f = (sep.map f).intercalate (l.map (List.map f)) := by
  induction l with
  | nil => rfl
  | cons s l ih =>
    cases l with
    | nil => simp
    | cons t l =>
      rw [List.intercalate_cons_cons, List.map_cons, List.map_cons, List.intercalate_cons_cons]
      simp only [List.map_append, ih, List.map_cons]

/-- But for its literals, a group depends on the fields alone. -/
theorem likeTokens_shape (fields : List String) (value : String) :
    (likeTokens fields value).map Token.shape = likeTokens fields "" := by
  simp [likeTokens, map_intercalate, Token.shape, Function.comp_def]

theorem containsTokens_shape (fields values : List String) :
    (containsTokens fields values).map Token.shape =
      containsTokens fields (List.replicate values.length "") := by
  rw [containsTokens, map_intercalate, containsTokens, List.map_map, List.map_replicate]
  congr 1
  exact List.eq_replicate_iff.mpr ⟨by simp, by simp [likeTokens_shape]⟩

/-- For every text and every list of accepted fields, the clauses of a search read as a skeleton
that depends only on the fields and the number of tokens. Each literal is exactly the
upper-cased text or token with the wildcards of this module, and those are its only
wildcards. -/
theorem search_text_stays_in_literals (P : PyText) {fields : List String}
    (hf : ∀ f ∈ fields, validFieldName f = true) (text : String) :
    let normalized := normalizeSearchText P text
    let tokens := searchTokens normalized
    (∃ starts contains, prefixClause P fields normalized = .ok starts ∧
      containsAllTokensClause P fields tokens = .ok contains ∧
      searchClauses P fields text =
        .ok (if normalized = "" then none else some (starts, contains)) ∧
      lex starts = some (likeTokens fields (P.upperText normalized ++ "%")) ∧
      lex contains =
        some (containsTokens fields (tokens.map fun t => "%" ++ P.upperText t ++ "%")) ∧
      (lex starts).map (·.map Token.shape) = some (likeTokens fields "") ∧
      (lex contains).map (·.map Token.shape) =
        some (containsTokens fields (List.replicate tokens.length ""))) ∧
    Plain (P.upperText normalized).toList ∧
    ∀ t ∈ tokens, Plain (P.upperText t).toList := by
  intro normalized tokens
  have hplain : Plain normalized.toList := plain_normalizeSearchText text
  refine ⟨?_, plain_upperText hplain, fun t ht => plain_upperText (plain_searchTokens hplain t ht)⟩
  obtain ⟨starts, hstarts, hs⟩ := anyFieldLike_lexes (P := P) hf (normalized ++ "%")
  obtain ⟨contains, hcontains, hc⟩ := containsAllTokensClause_lexes (P := P) hf tokens
  have hlexS := hs.lex
  have hlexC := hc.lex
  rw [upperText_append, upperText_percent] at hlexS
  simp only [upperText_append, upperText_percent] at hlexC
  refine ⟨starts, contains, hstarts, hcontains, ?_, hlexS, hlexC, ?_, ?_⟩
  · unfold searchClauses
    by_cases hn : normalized = ""
    · simp only [normalized] at hn
      simp only [normalized, if_pos hn]
    · have hp : prefixClause P fields normalized = .ok starts := hstarts
      simp only [normalized, tokens] at hn hp hcontains ⊢
      simp only [if_neg hn, hp, hcontains]
  · rw [hlexS, Option.map_some, likeTokens_shape]
  · rw [hlexC, Option.map_some, containsTokens_shape, List.length_map]

/-- Python's tables on the ASCII characters. -/
def asciiTables : PyText where
  word c := c.isAlphanum || c = '_'
  space c := decide ((9 ≤ c.toNat ∧ c.toNat ≤ 13) ∨ (28 ≤ c.toNat ∧ c.toNat ≤ 32))
  upper c := [c.toUpper]
  percent_not_word := by decide
  percent_not_space := by decide
  upper_percent := by decide
  upper_fresh := by
    intro c m hm hc
    rw [List.mem_singleton] at hc
    unfold Char.toUpper at hc
    split_ifs at hc with h
    · -- A letter's upper case is a letter.
      have hv : m.val.toNat = (c.val + ('A'.val - 'a'.val)).toNat := by rw [hc]
      rw [UInt32.toNat_add] at hv
      rw [UInt32.le_iff_toNat_le, UInt32.le_iff_toNat_le] at h
      have hshift : ('A'.val - 'a'.val).toNat = 2 ^ 32 - 32 := by decide
      have hlow : 'a'.val.toNat = 97 := by decide
      have hhigh : 'z'.val.toNat = 122 := by decide
      have hm' : m.val.toNat ≤ 64 ∨ m.val.toNat = 95 := by
        simp only [List.mem_cons, List.not_mem_nil, or_false] at hm
        rcases hm with rfl | rfl | rfl <;> decide
      omega
    · exact hc.symm

/-- An injection attempt comes out as one literal. -/
theorem search_text_stays_in_literals_injection :
    ∃ s, prefixClause asciiTables ["name"] (normalizeSearchText asciiTables "x' OR 1=1 --") =
        .ok s ∧
      lex s = some [.lparen, .word "UPPER", .lparen, .word "name", .rparen, .word "LIKE",
        .literal "X' OR 1 1 --%", .rparen] := by
  obtain ⟨⟨s, -, hs, -, -, hlex, -⟩, -⟩ := @search_text_stays_in_literals asciiTables
    ["name"] (by decide) "x' OR 1=1 --"
  refine ⟨s, hs, hlex.trans ?_⟩
  decide +kernel

end GeoPlatform.ArcGIS
