import Sentinel.Lib.Trace

/-!
# Programs that may fail or be cut off at any statement

Every statement meets an outcome that the environment chooses: it may work, it may fail, and
it may answer what the program could not know. A list of outcomes drives a program over a
state; when the list ends the program is cut off where it stands, so that the list of all
outcome lists is the list of all crashes as well.

`Prog.Always` is the weakest precondition of an assertion that has to hold after every
statement, whatever the outcomes, together with a postcondition for the answers. Both see
the exchanges made so far.
-/

namespace Atomic

namespace Prog

variable {Q : Type} {R : Q → Type} {ρ β σ O : Type}

section Feed

variable (exec : (q : Q) → O → σ → R q × σ)

/-- What is left of the program, and the state, when the outcomes are used up. -/
def feed : Prog Q R ρ → List O → σ → Prog Q R ρ × σ
  | done r, _, s => (done r, s)
  | stmt q k, [], s => (stmt q k, s)
  | stmt q k, o :: os, s => feed (k (exec q o s).1) os (exec q o s).2

/-- The exchanges made meanwhile. -/
def exchanges : Prog Q R ρ → List O → σ → List (Exchange Q R)
  | done _, _, _ => []
  | stmt _ _, [], _ => []
  | stmt q k, o :: os, s =>
      ⟨q, (exec q o s).1⟩ :: exchanges (k (exec q o s).1) os (exec q o s).2

/-- `I` holds after every statement, and the answers satisfy `post`. -/
def Always : Prog Q R ρ → (List (Exchange Q R) → σ → Prop) →
    (List (Exchange Q R) → ρ → σ → Prop) → σ → Prop
  | done r, _, post, s => post [] r s
  | stmt q k, I, post, s => ∀ o, I [⟨q, (exec q o s).1⟩] (exec q o s).2 ∧
      (k (exec q o s).1).Always (fun t => I (⟨q, (exec q o s).1⟩ :: t))
        (fun t => post (⟨q, (exec q o s).1⟩ :: t)) (exec q o s).2

variable {exec} {I I' : List (Exchange Q R) → σ → Prop} {s : σ}

theorem always_bind {post : List (Exchange Q R) → β → σ → Prop} {p : Prog Q R ρ}
    {f : ρ → Prog Q R β} : (p.bind f).Always exec I post s ↔
      p.Always exec I (fun t r s' => (f r).Always exec (fun t' => I (t ++ t'))
        (fun t' => post (t ++ t')) s') s := by
  induction p generalizing s I post with
  | done r => exact Iff.rfl
  | stmt q k ih => exact forall_congr' fun o => and_congr_right fun _ => ih _

theorem Always.mono {post post' : List (Exchange Q R) → ρ → σ → Prop} {p : Prog Q R ρ}
    (h : p.Always exec I post s) (during : ∀ t s, I t s → I' t s)
    (after : ∀ t r s, post t r s → post' t r s) : p.Always exec I' post' s := by
  induction p generalizing s I I' post post' with
  | done r => exact after _ _ _ h
  | stmt q k ih =>
      intro o
      obtain ⟨now, rest⟩ := h o
      exact ⟨during _ _ now, ih _ rest (fun t => during _) fun t => after _⟩

/-- The assertion holds wherever the program is cut off, and its answers are as promised. -/
theorem Always.feed {post : List (Exchange Q R) → ρ → σ → Prop} {p : Prog Q R ρ}
    (h : p.Always exec I post s) (start : I [] s) (os : List O) :
    I (p.exchanges exec os s) (p.feed exec os s).2 ∧
      ∀ r, (p.feed exec os s).1 = done r →
        post (p.exchanges exec os s) r (p.feed exec os s).2 := by
  induction os generalizing p s I post with
  | nil =>
      cases p with
      | done r => exact ⟨start, fun r' same => by cases same; exact h⟩
      | stmt q k => exact ⟨start, nofun⟩
  | cons o os ih =>
      cases p with
      | done r => exact ⟨start, fun r' same => by cases same; exact h⟩
      | stmt q k =>
          obtain ⟨now, rest⟩ := h o
          exact ih (I := fun t => I (⟨q, (exec q o s).1⟩ :: t)) rest now

/-- With nothing to hold on the way, the weakest precondition says just what the answers of
all executions satisfy. -/
theorem always_iff_feed {post : ρ → σ → Prop} {p : Prog Q R ρ} :
    p.Always exec (fun _ _ => True) (fun _ => post) s ↔
      ∀ os r, (p.feed exec os s).1 = done r → post r (p.feed exec os s).2 := by
  constructor
  · intro h os r answered
    exact (h.feed trivial os).2 r answered
  · intro h
    induction p generalizing s with
    | done r => exact h [] r rfl
    | stmt q k ih => exact fun o => ⟨trivial, ih _ fun os r => h (o :: os) r⟩

end Feed

end Prog

namespace Routine

variable {Q : Type} {R : Q → Type} {ε ε' α β σ O : Type}

/-- `Prog.Always` for a routine. -/
def Always (exec : (q : Q) → O → σ → R q × σ) (m : Routine Q R ε α)
    (I : List (Exchange Q R) → σ → Prop) (post : List (Exchange Q R) → Except ε α → σ → Prop)
    (s : σ) : Prop :=
  Prog.Always exec m I post s

section Always

variable {exec : (q : Q) → O → σ → R q × σ} {I I' : List (Exchange Q R) → σ → Prop} {s : σ}
variable {post : List (Exchange Q R) → Except ε α → σ → Prop}
variable {postB : List (Exchange Q R) → Except ε β → σ → Prop}

@[simp] theorem always_pure (a : α) :
    (pure a : Routine Q R ε α).Always exec I post s ↔ post [] (.ok a) s := Iff.rfl

@[simp] theorem always_throw (e : ε) :
    (throw e : Routine Q R ε α).Always exec I post s ↔ post [] (.error e) s := Iff.rfl

@[simp] theorem always_bind (m : Routine Q R ε α) (f : α → Routine Q R ε β) :
    (m >>= f).Always exec I postB s ↔ m.Always exec I (fun t r s' =>
      (andThen f r).Always exec (fun t' => I (t ++ t')) (fun t' => postB (t ++ t')) s') s :=
  Prog.always_bind

@[simp] theorem always_andThen_ok (f : α → Routine Q R ε β) (a : α) :
    (andThen f (.ok a)).Always exec I postB s ↔ (f a).Always exec I postB s := Iff.rfl

@[simp] theorem always_andThen_error (f : α → Routine Q R ε β) (e : ε) :
    (andThen f (.error e)).Always exec I postB s ↔ postB [] (.error e) s := Iff.rfl

@[simp] theorem always_call (q : Q) {post : List (Exchange Q R) → Except ε (R q) → σ → Prop} :
    @Always Q R ε (no_index (R q)) σ O exec (call q) I post s ↔
      ∀ o, I [⟨q, (exec q o s).1⟩] (exec q o s).2 ∧
        post [⟨q, (exec q o s).1⟩] (.ok (exec q o s).1) (exec q o s).2 := Iff.rfl

@[simp] theorem always_ofExcept (x : Except ε α) :
    (ofExcept x : Routine Q R ε α).Always exec I post s ↔ post [] x s := Iff.rfl

@[simp] theorem always_attempt (m : Routine Q R ε α)
    {post : List (Exchange Q R) → Except ε' (Except ε α) → σ → Prop} :
    (attempt m).Always exec I post s ↔ m.Always exec I (fun t r => post t (.ok r)) s := by
  refine Prog.always_bind.trans ?_
  simp only [Prog.Always, List.append_nil]
  exact Iff.rfl

theorem Always.mono {post' : List (Exchange Q R) → Except ε α → σ → Prop} {m : Routine Q R ε α}
    (h : m.Always exec I post s) (during : ∀ t s, I t s → I' t s)
    (after : ∀ t r s, post t r s → post' t r s) : m.Always exec I' post' s :=
  Prog.Always.mono h during after

end Always

section Uses

variable {P : Q → Prop}

/-- Every statement of the routine satisfies `P`. -/
def Uses (P : Q → Prop) (m : Routine Q R ε α) : Prop := Prog.Within P (fun _ => True) m

theorem Uses.call {q : Q} (h : P q) : (call q : Routine Q R ε (R q)).Uses P := ⟨h, fun _ => trivial⟩

theorem Uses.bind {m : Routine Q R ε α} {f : α → Routine Q R ε β} (h : m.Uses P)
    (rest : ∀ a, (f a).Uses P) : (m >>= f).Uses P := by
  refine Prog.within_bind.mpr (h.mono (fun _ => id) ?_)
  rintro (e | a) -
  · trivial
  · exact rest a

/-- What the statements keep, the routine keeps. -/
theorem Uses.always {exec : (q : Q) → O → σ → R q × σ} {J : σ → Prop} {m : Routine Q R ε α} {s : σ}
    (h : m.Uses P) (kept : ∀ q o s, P q → J s → J (exec q o s).2) (start : J s) :
    m.Always exec (fun _ => J) (fun _ _ => J) s := by
  have general : ∀ {p : Prog Q R (Except ε α)} {s : σ}, p.Within P (fun _ => True) → J s →
      p.Always exec (fun _ => J) (fun _ _ => J) s := by
    intro p
    induction p with
    | done r => exact fun _ start => start
    | stmt q k ih =>
        intro s within start o
        have now := kept q o s within.1 start
        exact ⟨now, ih _ (within.2 _) now⟩
  exact general h start

end Uses

end Routine

end Atomic
