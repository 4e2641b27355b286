import Mathlib.Data.List.Basic
import Mathlib.Tactic

/-! Programs that exchange messages, and wrappers around them. A program is a tree: it reads and
writes a state, leaves notes, sends and receives messages, and returns with an error or without.
Where a message cannot be sent or received the program gets the error and goes on from there. -/
namespace Interaction

/-- `S` is the state, `ι` and `ω` are the messages that come in and go out, `ν` are the notes. -/
inductive Prog (S ι ω ν ε : Type) where
  | ret (r : Except ε Unit)
  | get (next : S → Prog S ι ω ν ε)
  | put (s : S) (next : Prog S ι ω ν ε)
  | note (n : ν) (next : Prog S ι ω ν ε)
  | send (m : ω) (next : Except ε Unit → Prog S ι ω ν ε)
  | receive (next : Except ε ι → Prog S ι ω ν ε)

/-- What happens at the border of a program; a message is sent in some state. -/
inductive Event (S ι ω ν ε : Type) where
  | noted (n : ν)
  | sent (s : S) (m : ω) (r : Except ε Unit)
  | received (r : Except ε ι)

variable {S ι ω ν ε τ : Type}

/-- A run from one state to another, with its events and the way it returns. -/
inductive Runs : Prog S ι ω ν ε → S → List (Event S ι ω ν ε) → S → Except ε Unit → Prop
  | ret {r s} : Runs (.ret r) s [] s r
  | get {next s es s' r} : Runs (next s) s es s' r → Runs (.get next) s es s' r
  | put {p s s₁ es s' r} : Runs p s₁ es s' r → Runs (.put s₁ p) s es s' r
  | note {n p s es s' r} : Runs p s es s' r → Runs (.note n p) s (.noted n :: es) s' r
  | send {m next s es s' r} (a) : Runs (next a) s es s' r →
      Runs (.send m next) s (.sent s m a :: es) s' r
  | receive {next s es s' r} (a) : Runs (next a) s es s' r →
      Runs (.receive next) s (.received a :: es) s' r

section Rules
variable {s s' : S} {r : Except ε Unit} {es : List (Event S ι ω ν ε)}

@[simp] theorem runs_ret {r' : Except ε Unit} :
    Runs (.ret r' : Prog S ι ω ν ε) s es s' r ↔ es = [] ∧ s' = s ∧ r = r' := by
  constructor
  · rintro ⟨⟩
    exact ⟨rfl, rfl, rfl⟩
  · rintro ⟨rfl, rfl, rfl⟩
    exact .ret

@[simp] theorem runs_get {next : S → Prog S ι ω ν ε} :
    Runs (.get next) s es s' r ↔ Runs (next s) s es s' r := by
  constructor
  · rintro ⟨⟩
    assumption
  · exact .get

@[simp] theorem runs_put {p : Prog S ι ω ν ε} {s₁ : S} :
    Runs (.put s₁ p) s es s' r ↔ Runs p s₁ es s' r := by
  constructor
  · rintro ⟨⟩
    assumption
  · exact .put

@[simp] theorem runs_note {p : Prog S ι ω ν ε} {n : ν} :
    Runs (.note n p) s es s' r ↔ ∃ fs, es = .noted n :: fs ∧ Runs p s fs s' r := by
  constructor
  · rintro ⟨⟩
    exact ⟨_, rfl, ‹_›⟩
  · rintro ⟨fs, rfl, h⟩
    exact .note h

@[simp] theorem runs_send {m : ω} {next : Except ε Unit → Prog S ι ω ν ε} :
    Runs (.send m next) s es s' r ↔ ∃ a fs, es = .sent s m a :: fs ∧ Runs (next a) s fs s' r := by
  constructor
  · rintro ⟨⟩
    exact ⟨_, _, rfl, ‹_›⟩
  · rintro ⟨a, fs, rfl, h⟩
    exact .send a h

@[simp] theorem runs_receive {next : Except ε ι → Prog S ι ω ν ε} :
    Runs (.receive next) s es s' r ↔ ∃ a fs, es = .received a :: fs ∧ Runs (next a) s fs s' r := by
  constructor
  · rintro ⟨⟩
    exact ⟨_, _, rfl, ‹_›⟩
  · rintro ⟨a, fs, rfl, h⟩
    exact .receive a h

end Rules

/-- The run in which every message is sent, and the replies come in until there are none left;
then all that comes in is the error `e`. -/
def Prog.play (e : ε) : Prog S ι ω ν ε → List ι → S → List (Event S ι ω ν ε) × S × Except ε Unit
  | .ret r, _, s => ([], s, r)
  | .get next, is, s => (next s).play e is s
  | .put s next, is, _ => next.play e is s
  | .note n next, is, s => Prod.map (.noted n :: ·) id (next.play e is s)
  | .send m next, is, s => Prod.map (.sent s m (.ok ()) :: ·) id ((next (.ok ())).play e is s)
  | .receive next, is, s =>
      let a := is.head?.elim (.error e) .ok
      Prod.map (.received a :: ·) id ((next a).play e is.tail s)

theorem runs_play (p : Prog S ι ω ν ε) (e : ε) (is : List ι) (s : S) :
    Runs p s (p.play e is s).1 (p.play e is s).2.1 (p.play e is s).2.2 := by
  induction p generalizing is s with
  | ret r => exact .ret
  | get next ih => exact .get (ih s is s)
  | put s₁ next ih => exact .put (ih is s₁)
  | note n next ih => exact .note (ih is s)
  | send m next ih => exact .send _ (ih _ is s)
  | receive next ih => exact .receive _ (ih _ is.tail s)

/-! ### Wrappers -/

/-- A wrapper changes the messages on their way out and in, may refuse one that comes in, and takes
over when the program returns. `τ` is what it remembers. -/
structure Wrapper (S ι ω ν ε τ : Type) where
  onSend : S → τ → ω → ω × τ
  onReceive : τ → ι → Except ε ι × τ
  finish : τ → Except ε Unit → Prog S ι ω ν ε

/-- What the program gets of a message, and what the wrapper remembers. -/
def Wrapper.passIn (w : Wrapper S ι ω ν ε τ) (t : τ) : Except ε ι → Except ε ι × τ
  | .ok m => w.onReceive t m
  | .error e => (.error e, t)

def Wrapper.wrap (w : Wrapper S ι ω ν ε τ) : τ → Prog S ι ω ν ε → Prog S ι ω ν ε
  | t, .ret r => w.finish t r
  | t, .get next => .get fun s => w.wrap t (next s)
  | t, .put s next => .put s (w.wrap t next)
  | t, .note n next => .note n (w.wrap t next)
  | t, .send m next => .get fun s =>
      let (m', t') := w.onSend s t m
      .send m' fun a => w.wrap t' (next a)
  | t, .receive next => .receive fun a =>
      let (a', t') := w.passIn t a
      w.wrap t' (next a')

/-- The events of a program and those that come of them at the border of its wrapper. -/
inductive Wrapper.Through (w : Wrapper S ι ω ν ε τ) :
    τ → List (Event S ι ω ν ε) → List (Event S ι ω ν ε) → τ → Prop
  | nil {t} : w.Through t [] [] t
  | noted {t es fs t'} (n) : w.Through t es fs t' → w.Through t (.noted n :: es) (.noted n :: fs) t'
  | sent {t t₁ es fs t' s m m'} (a) : w.onSend s t m = (m', t₁) → w.Through t₁ es fs t' →
      w.Through t (.sent s m a :: es) (.sent s m' a :: fs) t'
  | received {t t₁ es fs t' a a'} : w.passIn t a = (a', t₁) → w.Through t₁ es fs t' →
      w.Through t (.received a' :: es) (.received a :: fs) t'

/-- A run of the wrapped program is a run of the program, seen through the wrapper, and then the
wrapper's own end. -/
theorem Wrapper.runs_wrap (w : Wrapper S ι ω ν ε τ) (p : Prog S ι ω ν ε) (t : τ) (s s' : S)
    (fs : List (Event S ι ω ν ε)) (r : Except ε Unit) :
    Runs (w.wrap t p) s fs s' r ↔ ∃ es s₁ r₁ t₁ front rest, Runs p s es s₁ r₁ ∧
      w.Through t es front t₁ ∧ Runs (w.finish t₁ r₁) s₁ rest s' r ∧ fs = front ++ rest := by
  constructor
  · intro h
    induction p generalizing t s fs with
    | ret r₁ => exact ⟨[], s, r₁, t, [], fs, .ret, .nil, h, rfl⟩
    | get next ih =>
      obtain ⟨es, s₁, r₁, t₁, front, rest, hrun, hrest⟩ := ih s t s fs (runs_get.mp h)
      exact ⟨es, s₁, r₁, t₁, front, rest, .get hrun, hrest⟩
    | put s₀ next ih =>
      obtain ⟨es, s₁, r₁, t₁, front, rest, hrun, hrest⟩ := ih t s₀ fs (runs_put.mp h)
      exact ⟨es, s₁, r₁, t₁, front, rest, .put hrun, hrest⟩
    | note n next ih =>
      obtain ⟨gs, rfl, hnext⟩ := runs_note.mp h
      obtain ⟨es, s₁, r₁, t₁, front, rest, hrun, hthrough, hend, rfl⟩ := ih t s gs hnext
      exact ⟨_, s₁, r₁, t₁, _, rest, .note hrun, .noted n hthrough, hend, rfl⟩
    | send m next ih =>
      obtain ⟨a, gs, rfl, hnext⟩ := runs_send.mp (runs_get.mp h)
      obtain ⟨es, s₁, r₁, t₁, front, rest, hrun, hthrough, hend, rfl⟩ := ih a _ s gs hnext
      exact ⟨_, s₁, r₁, t₁, _, rest, .send a hrun, .sent a rfl hthrough, hend, rfl⟩
    | receive next ih =>
      obtain ⟨a, gs, rfl, hnext⟩ := runs_receive.mp h
      obtain ⟨es, s₁, r₁, t₁, front, rest, hrun, hthrough, hend, rfl⟩ := ih _ _ s gs hnext
      exact ⟨_, s₁, r₁, t₁, _, rest, .receive _ hrun, .received rfl hthrough, hend, rfl⟩
  · rintro ⟨es, s₁, r₁, t₁, front, rest, hrun, hthrough, hend, rfl⟩
    induction hrun generalizing t front with
    | ret =>
      cases hthrough
      exact hend
    | get _ ih => exact .get (ih _ _ hthrough hend)
    | put _ ih => exact .put (ih _ _ hthrough hend)
    | note _ ih =>
      cases hthrough with
      | noted n hthrough => exact .note (ih _ _ hthrough hend)
    | send a _ ih =>
      cases hthrough with
      | sent a hpass hthrough =>
        obtain ⟨rfl, rfl⟩ := Prod.ext_iff.mp hpass
        exact .get (.send a (ih _ _ hthrough hend))
    | receive a _ ih =>
      cases hthrough with
      | received hpass hthrough =>
        obtain ⟨rfl, rfl⟩ := Prod.ext_iff.mp hpass
        exact .receive _ (ih _ _ hthrough hend)

/-! ### Wrappers of what is sent -/

def Event.mapSent (f : S → ω → ω) : Event S ι ω ν ε → Event S ι ω ν ε
  | .sent s m a => .sent s (f s m) a
  | .noted n => .noted n
  | .received a => .received a

/-- The messages of a program in the order in which it sends them. -/
def sentMessages : List (Event S ι ω ν ε) → List ω
  | [] => []
  | .sent _ m _ :: es => m :: sentMessages es
  | .noted _ :: es | .received _ :: es => sentMessages es

@[simp] theorem sentMessages_append (es fs : List (Event S ι ω ν ε)) :
    sentMessages (es ++ fs) = sentMessages es ++ sentMessages fs := by
  induction es with
  | nil => rfl
  | cons e es ih => cases e <;> simp [sentMessages, ih]

/-- What a program receives, in order. -/
def received : List (Event S ι ω ν ε) → List (Except ε ι)
  | [] => []
  | .received a :: es => a :: received es
  | .sent _ _ _ :: es | .noted _ :: es => received es

@[simp] theorem received_append (es fs : List (Event S ι ω ν ε)) :
    received (es ++ fs) = received es ++ received fs := by
  induction es with
  | nil => rfl
  | cons e es ih => cases e <;> simp [received, ih]

@[simp] theorem received_mapSent (f : S → ω → ω) (es : List (Event S ι ω ν ε)) :
    received (es.map (Event.mapSent f)) = received es := by
  induction es with
  | nil => rfl
  | cons e es ih => cases e <;> simp [received, Event.mapSent, ih]

/-- The notes of a program in the order in which it leaves them. -/
def notes : List (Event S ι ω ν ε) → List ν
  | [] => []
  | .noted n :: es => n :: notes es
  | .sent _ _ _ :: es | .received _ :: es => notes es

@[simp] theorem notes_append (es fs : List (Event S ι ω ν ε)) :
    notes (es ++ fs) = notes es ++ notes fs := by
  induction es with
  | nil => rfl
  | cons e es ih => cases e <;> simp [notes, ih]

@[simp] theorem notes_mapSent (f : S → ω → ω) (es : List (Event S ι ω ν ε)) :
    notes (es.map (Event.mapSent f)) = notes es := by
  induction es with
  | nil => rfl
  | cons e es ih => cases e <;> simp [notes, Event.mapSent, ih]

/-- What is told of the messages stays the same where it does not depend on what changes. -/
theorem foldl_mapSent {f : S → ω → ω} {g : τ → ω → τ} (h : ∀ s t m, g t (f s m) = g t m)
    (es : List (Event S ι ω ν ε)) (t : τ) :
    (sentMessages (es.map (Event.mapSent f))).foldl g t = (sentMessages es).foldl g t := by
  induction es generalizing t with
  | nil => rfl
  | cons e es ih => cases e <;> simp [sentMessages, Event.mapSent, h, ih]

theorem mapSent_self (es : List (Event S ι ω ν ε)) :
    es.map (Event.mapSent fun _ m => m) = es := by
  induction es with
  | nil => rfl
  | cons e es ih => cases e <;> simp [Event.mapSent, ih]

theorem mem_mapSent {f : S → ω → ω} {es : List (Event S ι ω ν ε)} {s : S} {m : ω}
    {a : Except ε Unit} :
    .sent s m a ∈ es.map (Event.mapSent f) ↔ ∃ m₀, .sent s m₀ a ∈ es ∧ f s m₀ = m := by
  rw [List.mem_map]
  constructor
  · rintro ⟨e, he, heq⟩
    cases e with
    | noted n => exact absurd heq (by simp [Event.mapSent])
    | received a => exact absurd heq (by simp [Event.mapSent])
    | sent s₀ m₀ a₀ =>
      obtain ⟨rfl, rfl, rfl⟩ : s₀ = s ∧ f s₀ m₀ = m ∧ a₀ = a := by
        simpa [Event.mapSent] using heq
      exact ⟨m₀, he, rfl⟩
  · rintro ⟨m₀, he, rfl⟩
    exact ⟨_, he, rfl⟩

/-- A wrapper that changes what is sent, and remembers what `g` makes of the messages. -/
def Wrapper.sender (f : S → ω → ω) (g : τ → ω → τ) (finish : τ → Except ε Unit → Prog S ι ω ν ε) :
    Wrapper S ι ω ν ε τ where
  onSend s t m := (f s m, g t m)
  onReceive t m := (.ok m, t)
  finish

theorem Wrapper.passIn_sender (f : S → ω → ω) (g : τ → ω → τ)
    (finish : τ → Except ε Unit → Prog S ι ω ν ε) (t : τ) (a : Except ε ι) :
    (Wrapper.sender f g finish).passIn t a = (a, t) := by
  cases a <;> rfl

theorem Wrapper.through_sender {f : S → ω → ω} {g : τ → ω → τ}
    {finish : τ → Except ε Unit → Prog S ι ω ν ε} {t t' : τ} {es fs : List (Event S ι ω ν ε)} :
    (Wrapper.sender f g finish).Through t es fs t' ↔
      fs = es.map (Event.mapSent f) ∧ t' = (sentMessages es).foldl g t := by
  constructor
  · intro h
    induction h with
    | nil => exact ⟨rfl, rfl⟩
    | noted n _ ih =>
      obtain ⟨rfl, rfl⟩ := ih
      exact ⟨rfl, rfl⟩
    | sent a hpass _ ih =>
      obtain ⟨rfl, rfl⟩ := ih
      obtain ⟨rfl, rfl⟩ := Prod.ext_iff.mp hpass
      exact ⟨rfl, rfl⟩
    | received hpass _ ih =>
      obtain ⟨rfl, rfl⟩ := ih
      rw [Wrapper.passIn_sender] at hpass
      obtain ⟨rfl, rfl⟩ := Prod.ext_iff.mp hpass
      exact ⟨rfl, rfl⟩
  · rintro ⟨rfl, rfl⟩
    induction es generalizing t with
    | nil => exact .nil
    | cons e es ih =>
      cases e with
      | noted n => exact .noted n ih
      | sent s m a => exact .sent a rfl ih
      | received a => exact .received (Wrapper.passIn_sender f g finish t a) ih

/-- A run of a program in a wrapper of what is sent. -/
theorem Wrapper.runs_sender (f : S → ω → ω) (g : τ → ω → τ)
    (finish : τ → Except ε Unit → Prog S ι ω ν ε) (p : Prog S ι ω ν ε) (t : τ) (s s' : S)
    (fs : List (Event S ι ω ν ε)) (r : Except ε Unit) :
    Runs ((Wrapper.sender f g finish).wrap t p) s fs s' r ↔ ∃ es s₁ r₁ rest, Runs p s es s₁ r₁ ∧
      Runs (finish ((sentMessages es).foldl g t) r₁) s₁ rest s' r ∧
      fs = es.map (Event.mapSent f) ++ rest := by
  rw [Wrapper.runs_wrap]
  constructor
  · rintro ⟨es, s₁, r₁, t₁, front, rest, hrun, hthrough, hend, rfl⟩
    obtain ⟨rfl, rfl⟩ := Wrapper.through_sender.mp hthrough
    exact ⟨es, s₁, r₁, rest, hrun, hend, rfl⟩
  · rintro ⟨es, s₁, r₁, rest, hrun, hend, rfl⟩
    exact ⟨es, s₁, r₁, _, _, rest, hrun, Wrapper.through_sender.mpr ⟨rfl, rfl⟩, hend, rfl⟩

/-! ### Programs without notes -/

def Prog.quiet : Prog S ι ω Empty ε → Prog S ι ω ν ε
  | .ret r => .ret r
  | .get next => .get fun s => (next s).quiet
  | .put s next => .put s next.quiet
  | .note n _ => n.elim
  | .send m next => .send m fun a => (next a).quiet
  | .receive next => .receive fun a => (next a).quiet

def Event.quiet : Event S ι ω Empty ε → Event S ι ω ν ε
  | .noted n => n.elim
  | .sent s m a => .sent s m a
  | .received a => .received a

@[simp] theorem notes_quiet (es : List (Event S ι ω Empty ε)) :
    notes (es.map (Event.quiet : _ → Event S ι ω ν ε)) = [] := by
  induction es with
  | nil => rfl
  | cons e es ih =>
    cases e with
    | noted n => exact n.elim
    | sent s m a => simpa [notes, Event.quiet] using ih
    | received a => simpa [notes, Event.quiet] using ih

@[simp] theorem sentMessages_quiet (es : List (Event S ι ω Empty ε)) :
    sentMessages (es.map (Event.quiet : _ → Event S ι ω ν ε)) = sentMessages es := by
  induction es with
  | nil => rfl
  | cons e es ih =>
    cases e with
    | noted n => exact n.elim
    | sent s m a => simpa [sentMessages, Event.quiet] using ih
    | received a => simpa [sentMessages, Event.quiet] using ih

@[simp] theorem received_quiet (es : List (Event S ι ω Empty ε)) :
    received (es.map (Event.quiet : _ → Event S ι ω ν ε)) = received es := by
  induction es with
  | nil => rfl
  | cons e es ih =>
    cases e with
    | noted n => exact n.elim
    | sent s m a => simpa [received, Event.quiet] using ih
    | received a => simpa [received, Event.quiet] using ih

theorem mem_quiet {es : List (Event S ι ω Empty ε)} {s : S} {m : ω} {a : Except ε Unit} :
    .sent s m a ∈ es.map (Event.quiet : _ → Event S ι ω ν ε) ↔ .sent s m a ∈ es := by
  rw [List.mem_map]
  constructor
  · rintro ⟨e, he, heq⟩
    cases e with
    | noted n => exact n.elim
    | received a => exact absurd heq (by simp [Event.quiet])
    | sent s₀ m₀ a₀ =>
      obtain ⟨rfl, rfl, rfl⟩ : s₀ = s ∧ m₀ = m ∧ a₀ = a := by simpa [Event.quiet] using heq
      exact he
  · exact fun he => ⟨_, he, rfl⟩

theorem runs_quiet {p : Prog S ι ω Empty ε} {s s' : S} {fs : List (Event S ι ω ν ε)}
    {r : Except ε Unit} :
    Runs (p.quiet : Prog S ι ω ν ε) s fs s' r ↔
      ∃ es, Runs p s es s' r ∧ fs = es.map Event.quiet := by
  constructor
  · intro h
    induction p generalizing s fs with
    | ret r₁ =>
      obtain ⟨rfl, rfl, rfl⟩ := runs_ret.mp h
      exact ⟨[], .ret, rfl⟩
    | get next ih =>
      obtain ⟨es, hrun, rfl⟩ := ih s (runs_get.mp h)
      exact ⟨es, .get hrun, rfl⟩
    | put s₁ next ih =>
      obtain ⟨es, hrun, rfl⟩ := ih (runs_put.mp h)
      exact ⟨es, .put hrun, rfl⟩
    | note n => exact n.elim
    | send m next ih =>
      obtain ⟨a, gs, rfl, hnext⟩ := runs_send.mp h
      obtain ⟨es, hrun, rfl⟩ := ih a hnext
      exact ⟨_, .send a hrun, rfl⟩
    | receive next ih =>
      obtain ⟨a, gs, rfl, hnext⟩ := runs_receive.mp h
      obtain ⟨es, hrun, rfl⟩ := ih a hnext
      exact ⟨_, .receive a hrun, rfl⟩
  · rintro ⟨es, hrun, rfl⟩
    induction hrun with
    | ret => exact .ret
    | get _ ih => exact .get ih
    | put _ ih => exact .put ih
    | note => exact Empty.elim ‹_›
    | send a _ ih => exact .send a ih
    | receive a _ ih => exact .receive a ih

end Interaction
