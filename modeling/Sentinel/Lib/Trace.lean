import Sentinel.Lib.Atomic

/-!
# Programs against an unknown environment

Here nothing is known about what answers the statements of a program: any result may come
back at any statement. `Prog.Steps` is one such execution, complete or not, with the
exchanges it made; `Prog.Ensures` is the weakest precondition of an assertion about the
exchanges of a complete execution and its answer, and `Prog.ensures_iff` says that it is
just that. `Steps.extend` reduces assertions about executions that are still under way to
complete ones.

`Routine` is the monad of programs whose answer may be an error: an error ends the routine.
-/

namespace Atomic

/-- A statement and the result that came back. -/
abbrev Exchange (Q : Type) (R : Q → Type) := (q : Q) × R q

namespace Prog

variable {Q : Type} {R : Q → Type} {ρ β : Type}

/-- The program makes these exchanges and is left with the other program. -/
inductive Steps : Prog Q R ρ → List (Exchange Q R) → Prog Q R ρ → Prop where
  | nil (p : Prog Q R ρ) : Steps p [] p
  | cons {q : Q} {k : R q → Prog Q R ρ} {res : R q} {t : List (Exchange Q R)} {p : Prog Q R ρ} :
      Steps (k res) t p → Steps (stmt q k) (⟨q, res⟩ :: t) p

/-- A complete execution: the exchanges and the answer. -/
def Runs (p : Prog Q R ρ) (t : List (Exchange Q R)) (r : ρ) : Prop := p.Steps t (done r)

theorem Steps.append {p p' p'' : Prog Q R ρ} {t t' : List (Exchange Q R)} (h : p.Steps t p')
    (h' : p'.Steps t' p'') : p.Steps (t ++ t') p'' := by
  induction h with
  | nil => exact h'
  | cons _ ih => exact .cons (ih h')

/-- A complete execution, then one of what follows. -/
theorem Runs.bind {p : Prog Q R ρ} {f : ρ → Prog Q R β}
    {t t' : List (Exchange Q R)} {r : ρ} {p' : Prog Q R β} (first : p.Runs t r)
    (rest : (f r).Steps t' p') : (p.bind f).Steps (t ++ t') p' := by
  unfold Runs at first
  generalize ended : done r = last at first
  induction first with
  | nil =>
      subst ended
      exact rest
  | cons _ ih => exact .cons (ih ended)

/-- Every program answers if something comes back at each statement. -/
theorem exists_runs [answers : ∀ q, Nonempty (R q)] (p : Prog Q R ρ) : ∃ t r, p.Runs t r := by
  induction p with
  | done r => exact ⟨[], r, .nil _⟩
  | stmt q k ih =>
      obtain ⟨res⟩ := answers q
      obtain ⟨t, r, run⟩ := ih res
      exact ⟨⟨q, res⟩ :: t, r, .cons run⟩

/-- An execution that is under way is the beginning of a complete one. -/
theorem Steps.extend [∀ q, Nonempty (R q)] {p p' : Prog Q R ρ} {t : List (Exchange Q R)}
    (h : p.Steps t p') : ∃ t' r, p.Runs (t ++ t') r := by
  obtain ⟨t', r, run⟩ := exists_runs p'
  exact ⟨t', r, h.append run⟩

/-- Whatever comes back, the exchanges and the answer satisfy `post`. -/
def Ensures : Prog Q R ρ → (List (Exchange Q R) → ρ → Prop) → Prop
  | done r, post => post [] r
  | stmt q k, post => ∀ res, (k res).Ensures fun t r => post (⟨q, res⟩ :: t) r

@[simp] theorem ensures_done {post : List (Exchange Q R) → ρ → Prop} (r : ρ) :
    (done r).Ensures post ↔ post [] r := Iff.rfl

@[simp] theorem ensures_stmt {post : List (Exchange Q R) → ρ → Prop} (q : Q)
    (k : R q → Prog Q R ρ) : (stmt q k).Ensures post ↔
      ∀ res, (k res).Ensures fun t r => post (⟨q, res⟩ :: t) r := Iff.rfl

@[simp] theorem ensures_bind {post : List (Exchange Q R) → β → Prop} {p : Prog Q R ρ}
    {f : ρ → Prog Q R β} : (p.bind f).Ensures post ↔
      p.Ensures fun t r => (f r).Ensures fun t' r' => post (t ++ t') r' := by
  induction p generalizing post with
  | done r => exact Iff.rfl
  | stmt q k ih => simp only [stmt_bind, ensures_stmt, ih, List.cons_append]

theorem Ensures.mono {post post' : List (Exchange Q R) → ρ → Prop} {p : Prog Q R ρ}
    (h : p.Ensures post) (weaken : ∀ t r, post t r → post' t r) : p.Ensures post' := by
  induction p generalizing post post' with
  | done r => exact weaken _ _ h
  | stmt q k ih => exact fun res => ih res (h res) fun t r => weaken _ _

theorem ensures_iff {post : List (Exchange Q R) → ρ → Prop} {p : Prog Q R ρ} :
    p.Ensures post ↔ ∀ t r, p.Runs t r → post t r := by
  induction p generalizing post with
  | done r =>
      constructor
      · intro h t r' run
        cases run
        exact h
      · intro h
        exact h [] r (.nil _)
  | stmt q k ih =>
      constructor
      · intro h t r run
        cases run with
        | cons rest => exact (ih _).mp (h _) _ _ rest
      · intro h res
        exact (ih res).mpr fun t r rest => h _ _ (.cons rest)

end Prog

namespace Pool

variable {ι Q ρ σ ε : Type} {R : Q → Type} [DecidableEq ι]
variable (exec : (q : Q) → σ → R q × σ) (envStep : ε → σ → σ)

/-- The exchanges are what the statements answer, from one state to another. -/
def Replies : List (Exchange Q R) → σ → σ → Prop
  | [], x, y => x = y
  | e :: t, x, y => (exec e.1 x).1 = e.2 ∧ Replies t (exec e.1 x).2 y

/-- A thread that makes exchanges alone. -/
theorem run_steps {p p' : Prog Q R ρ} {t : List (Exchange Q R)} (steps : p.Steps t p') {i : ι}
    {s : Pool ι Q R ρ σ} (here : s.prog i = p) {y : σ} (replies : Replies exec t s.shared y) :
    s.run exec envStep (List.replicate t.length (.thread i)) =
      { shared := y, prog := Function.update s.prog i p' } := by
  induction steps generalizing s with
  | nil p =>
      cases replies
      subst here
      rw [Function.update_eq_self]
      rfl
  | @cons q k res t p' _ ih =>
      obtain ⟨answer, rest⟩ := replies
      change (exec q s.shared).1 = res at answer
      subst answer
      rw [List.length_cons, List.replicate_succ, run, step, here]
      rw [ih (Function.update_self ..) rest, Function.update_idem]

end Pool

/-- A program that answers a value or an error. -/
def Routine (Q : Type) (R : Q → Type) (ε α : Type) := Prog Q R (Except ε α)

namespace Routine

variable {Q : Type} {R : Q → Type} {ε ε' α β : Type}

/-- What follows a step of a routine: an error is its answer. -/
def andThen (f : α → Routine Q R ε β) : Except ε α → Routine Q R ε β
  | .ok a => f a
  | .error e => Prog.done (.error e)

instance : Monad (Routine Q R ε) where
  pure a := Prog.done (.ok a)
  bind m f := Prog.bind m (andThen f)

theorem bind_assoc {γ : Type} (m : Routine Q R ε α) (f : α → Routine Q R ε β)
    (g : β → Routine Q R ε γ) : (m >>= f >>= g) = m >>= fun a => f a >>= g := by
  induction m with
  | done r => cases r <;> rfl
  | stmt q k ih => exact congrArg (Prog.stmt q) (funext ih)

def throw (e : ε) : Routine Q R ε α := Prog.done (.error e)

/-- A statement that cannot fail. -/
def call (q : Q) : Routine Q R ε (R q) := Prog.stmt q fun res => Prog.done (.ok res)

/-- The answer of a computation without statements. -/
def ofExcept (x : Except ε α) : Routine Q R ε α := Prog.done x

/-- A routine whose error the caller looks at. -/
def attempt (m : Routine Q R ε α) : Routine Q R ε' (Except ε α) := Prog.bind m fun r => Prog.done (.ok r)

/-- `Prog.Ensures` for a routine. -/
def Ensures (m : Routine Q R ε α) (post : List (Exchange Q R) → Except ε α → Prop) : Prop :=
  Prog.Ensures m post

section Ensures

variable {post : List (Exchange Q R) → Except ε α → Prop}
variable {postB : List (Exchange Q R) → Except ε β → Prop}

@[simp] theorem ensures_pure (a : α) :
    (pure a : Routine Q R ε α).Ensures post ↔ post [] (.ok a) := Iff.rfl

@[simp] theorem ensures_throw (e : ε) :
    (throw e : Routine Q R ε α).Ensures post ↔ post [] (.error e) := Iff.rfl

@[simp] theorem ensures_bind (m : Routine Q R ε α) (f : α → Routine Q R ε β) :
    (m >>= f).Ensures postB ↔
      m.Ensures fun t r => (andThen f r).Ensures fun t' r' => postB (t ++ t') r' :=
  Prog.ensures_bind

@[simp] theorem ensures_andThen_ok (f : α → Routine Q R ε β) (a : α) :
    (andThen f (.ok a)).Ensures postB ↔ (f a).Ensures postB := Iff.rfl

@[simp] theorem ensures_andThen_error (f : α → Routine Q R ε β) (e : ε) :
    (andThen f (.error e)).Ensures postB ↔ postB [] (.error e) := Iff.rfl

@[simp] theorem ensures_call (q : Q) {post : List (Exchange Q R) → Except ε (R q) → Prop} :
    @Ensures Q R ε (no_index (R q)) (call q) post ↔ ∀ res, post [⟨q, res⟩] (.ok res) := Iff.rfl

@[simp] theorem ensures_ofExcept (x : Except ε α) :
    (ofExcept x : Routine Q R ε α).Ensures post ↔ post [] x := Iff.rfl

@[simp] theorem ensures_attempt (m : Routine Q R ε α)
    {post : List (Exchange Q R) → Except ε' (Except ε α) → Prop} :
    (attempt m).Ensures post ↔ m.Ensures fun t r => post t (.ok r) := by
  refine Prog.ensures_bind.trans ?_
  simp only [Prog.ensures_done, List.append_nil]
  exact Iff.rfl

theorem Ensures.mono {post' : List (Exchange Q R) → Except ε α → Prop} {m : Routine Q R ε α}
    (h : m.Ensures post) (weaken : ∀ t r, post t r → post' t r) : m.Ensures post' :=
  Prog.Ensures.mono h weaken

end Ensures

end Routine

end Atomic
