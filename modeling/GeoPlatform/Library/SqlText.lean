import Mathlib.Data.List.Basic
import Mathlib.Tactic

/-! The lexical level of SQL conditions: words, string literals in which a doubled quote stands
for a quote, parentheses and blanks. Text read token by token composes at the delimiters. -/
namespace SqlText

inductive Token where
  | lparen
  | rparen
  | word (s : String)
  | literal (s : String)
  deriving DecidableEq, Repr

/-- The token with the content of a literal left out. -/
def Token.shape : Token → Token
  | .literal _ => .literal ""
  | t => t

def wordStart (c : Char) : Bool := c.isAlpha || c = '_'

def wordPart (c : Char) : Bool := c.isAlphanum || c = '_' || c = '.'

/-- Between tokens, inside a word, inside a literal, after a quote that ends the literal unless
another one follows, or off the rails. -/
inductive Mode where
  | gap
  | word (acc : List Char)
  | literal (acc : List Char)
  | quote (acc : List Char)
  | failed
  deriving DecidableEq, Repr

structure Lexer where
  mode : Mode := .gap
  out : List Token := []
  deriving DecidableEq, Repr

/-- The first character of a token, after the tokens `out`. -/
def fresh (out : List Token) (c : Char) : Lexer :=
  if c = ' ' then ⟨.gap, out⟩
  else if c = '(' then ⟨.gap, out ++ [.lparen]⟩
  else if c = ')' then ⟨.gap, out ++ [.rparen]⟩
  else if c = '\'' then ⟨.literal [], out⟩
  else if wordStart c then ⟨.word [c], out⟩
  else ⟨.failed, out⟩

def Lexer.step (l : Lexer) (c : Char) : Lexer :=
  match l.mode with
  | .gap => fresh l.out c
  | .word acc =>
      if wordPart c then ⟨.word (acc ++ [c]), l.out⟩
      else fresh (l.out ++ [.word (String.ofList acc)]) c
  | .literal acc =>
      if c = '\'' then ⟨.quote acc, l.out⟩ else ⟨.literal (acc ++ [c]), l.out⟩
  | .quote acc =>
      if c = '\'' then ⟨.literal (acc ++ ['\'']), l.out⟩
      else fresh (l.out ++ [.literal (String.ofList acc)]) c
  | .failed => l

/-- The tokens read, if the text may end here. -/
def Lexer.finish (l : Lexer) : Option (List Token) :=
  match l.mode with
  | .gap => some l.out
  | .word acc => some (l.out ++ [.word (String.ofList acc)])
  | .quote acc => some (l.out ++ [.literal (String.ofList acc)])
  | .literal _ | .failed => none

def lex (s : String) : Option (List Token) := (s.toList.foldl Lexer.step {}).finish

/-- Wherever a token may start, the text reads as the given tokens. -/
def Lexes (s : List Char) (ts : List Token) : Prop :=
  ∀ out, (s.foldl Lexer.step ⟨.gap, out⟩).finish = some (out ++ ts)

theorem Lexes.lex {s : String} {ts : List Token} (h : Lexes s.toList ts) : lex s = some ts := by
  simpa [SqlText.lex] using h []

/-! ### Composition at delimiters -/

/-- A blank or a parenthesis, with what it reads as. -/
def delimiter (c : Char) : Option (List Token) :=
  if c = ' ' then some []
  else if c = '(' then some [.lparen]
  else if c = ')' then some [.rparen]
  else none

theorem fresh_delimiter {c : Char} {d : List Token} (h : delimiter c = some d)
    (out : List Token) : fresh out c = ⟨.gap, out ++ d⟩ := by
  unfold delimiter at h
  unfold fresh
  split_ifs at h ⊢ <;> cases h <;> simp

theorem delimiter_not_part {c : Char} {d : List Token} (h : delimiter c = some d) :
    wordPart c = false ∧ c ≠ '\'' := by
  unfold delimiter at h
  split_ifs at h with h1 h2 h3
  · subst h1; decide
  · subst h2; decide
  · subst h3; decide

/-- A delimiter ends whatever token was being read. -/
theorem step_delimiter {l : Lexer} {out d : List Token} (hl : l.finish = some out) {c : Char}
    (hc : delimiter c = some d) : l.step c = ⟨.gap, out ++ d⟩ := by
  obtain ⟨hpart, hquote⟩ := delimiter_not_part hc
  obtain ⟨mode, out'⟩ := l
  cases mode with
  | gap =>
    cases hl
    exact fresh_delimiter hc _
  | word acc =>
    cases hl
    simp only [Lexer.step, hpart, Bool.false_eq_true, if_false]
    exact fresh_delimiter hc _
  | quote acc =>
    cases hl
    simp only [Lexer.step, if_neg hquote]
    exact fresh_delimiter hc _
  | literal acc => cases hl
  | failed => cases hl

theorem lexes_nil : Lexes [] [] := fun out => by simp [Lexer.finish]

theorem Lexes.delimit {s s' : List Char} {ts ts' d : List Token} (h : Lexes s ts) {c : Char}
    (hc : delimiter c = some d) (h' : Lexes s' ts') :
    Lexes (s ++ c :: s') (ts ++ (d ++ ts')) := by
  intro out
  rw [List.foldl_append, List.foldl_cons, step_delimiter (h out) hc, h']
  simp only [List.append_assoc]

/-! ### Words -/

structure IsWord (s : List Char) : Prop where
  start : ∃ c cs, s = c :: cs ∧ wordStart c = true
  part : ∀ c ∈ s, wordPart c = true

theorem foldl_word {cs : List Char} (h : ∀ c ∈ cs, wordPart c = true) (acc : List Char)
    (out : List Token) : cs.foldl Lexer.step ⟨.word acc, out⟩ = ⟨.word (acc ++ cs), out⟩ := by
  induction cs generalizing acc with
  | nil => simp
  | cons c cs ih =>
    have hc : Lexer.step ⟨.word acc, out⟩ c = ⟨.word (acc ++ [c]), out⟩ := by
      simp [Lexer.step, h c (by simp)]
    rw [List.foldl_cons, hc, ih fun x hx => h x (List.mem_cons_of_mem c hx)]
    simp

theorem fresh_wordStart {c : Char} (h : wordStart c = true) (out : List Token) :
    fresh out c = ⟨.word [c], out⟩ := by
  have h1 : c ≠ ' ' := by rintro rfl; revert h; decide
  have h2 : c ≠ '(' := by rintro rfl; revert h; decide
  have h3 : c ≠ ')' := by rintro rfl; revert h; decide
  have h4 : c ≠ '\'' := by rintro rfl; revert h; decide
  simp only [fresh, if_neg h1, if_neg h2, if_neg h3, if_neg h4, if_pos h]

theorem IsWord.lexes {s : List Char} (h : IsWord s) : Lexes s [.word (String.ofList s)] := by
  intro out
  obtain ⟨c, cs, rfl, hc⟩ := h.start
  have hfold := foldl_word (fun x hx => h.part x (List.mem_cons_of_mem c hx)) [c] out
  have hstep : Lexer.step ⟨.gap, out⟩ c = ⟨.word [c], out⟩ := fresh_wordStart hc out
  rw [List.foldl_cons, hstep, hfold]
  rfl

/-! ### Literals -/

/-- Every quote doubled. -/
def doubled (s : List Char) : List Char :=
  s.flatMap fun c => if c = '\'' then ['\'', '\''] else [c]

theorem foldl_doubled (v acc : List Char) (out : List Token) :
    (doubled v).foldl Lexer.step ⟨.literal acc, out⟩ = ⟨.literal (acc ++ v), out⟩ := by
  induction v generalizing acc with
  | nil => simp [doubled]
  | cons c v ih =>
    have hcons : doubled (c :: v) = (if c = '\'' then ['\'', '\''] else [c]) ++ doubled v := rfl
    rw [hcons, List.foldl_append]
    by_cases hc : c = '\''
    · subst hc
      simpa [Lexer.step] using ih (acc ++ ['\''])
    · simpa [Lexer.step, hc] using ih (acc ++ [c])

/-- A literal with its quotes doubled reads as the text it was made from. -/
theorem lexes_literal (v : List Char) :
    Lexes ('\'' :: (doubled v ++ ['\''])) [.literal (String.ofList v)] := by
  intro out
  have hopen : Lexer.step ⟨.gap, out⟩ '\'' = ⟨.literal [], out⟩ := rfl
  rw [List.foldl_cons, hopen, List.foldl_append, foldl_doubled]
  simp [Lexer.step, Lexer.finish]

/-! ### Lists -/

/-- Texts joined by a word between blanks read as their tokens joined by that word. -/
theorem lexes_intercalate {sep : List Char} (hsep : IsWord sep) {α : Type*}
    (text : α → List Char) (tokens : α → List Token) {xs : List α}
    (h : ∀ x ∈ xs, Lexes (text x) (tokens x)) :
    Lexes ((' ' :: (sep ++ [' '])).intercalate (xs.map text))
      ([Token.word (String.ofList sep)].intercalate (xs.map tokens)) := by
  induction xs with
  | nil => exact lexes_nil
  | cons x xs ih =>
    have hx := h x (by simp)
    cases xs with
    | nil => simpa using hx
    | cons y ys =>
      have hblank : delimiter ' ' = some [] := rfl
      have hrest := ih fun z hz => h z (List.mem_cons_of_mem x hz)
      have hnext := hx.delimit hblank (hsep.lexes.delimit hblank hrest)
      simpa [List.intercalate, List.append_assoc] using hnext

/-- A text in parentheses. -/
theorem Lexes.parens {s : List Char} {ts : List Token} (h : Lexes s ts) :
    Lexes ('(' :: (s ++ [')'])) (.lparen :: (ts ++ [.rparen])) := by
  have hclose := h.delimit (show delimiter ')' = some [.rparen] from rfl) lexes_nil
  simpa using lexes_nil.delimit (show delimiter '(' = some [.lparen] from rfl) hclose

end SqlText
