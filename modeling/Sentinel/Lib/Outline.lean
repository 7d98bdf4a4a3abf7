import Sentinel.Lib.Fault

/-!
# Programs whose outcomes meet a condition

`Prog.Always` asserts something after every statement, whatever the outcomes. An outline
considers only the outcomes that a condition admits, each in the state it meets, and
`Prog.Meets` says that the outcomes of an execution are such.

`Prog.translate` replaces every statement of a program by a program over other statements.
-/

namespace Atomic

namespace Prog

variable {Q Q' : Type} {R : Q → Type} {R' : Q' → Type} {ρ β σ O : Type}

section Outline

variable (exec : (q : Q) → O → σ → R q × σ) (ok : (q : Q) → O → σ → Prop)

/-- The outcomes are admitted, each at the statement it meets. -/
def Meets : Prog Q R ρ → List O → σ → Prop
  | done _, _, _ => True
  | stmt _ _, [], _ => True
  | stmt q k, o :: os, s => ok q o s ∧ Meets (k (exec q o s).1) os (exec q o s).2

theorem meets_of_forall {ok : (q : Q) → O → σ → Prop} {os : List O}
    (h : ∀ o ∈ os, ∀ q s, ok q o s) (p : Prog Q R ρ) (s : σ) : p.Meets exec ok os s := by
  induction os generalizing p s with
  | nil => cases p <;> trivial
  | cons o os ih =>
      cases p with
      | done r => trivial
      | stmt q k =>
          exact ⟨h o (List.mem_cons_self ..) q s, ih (fun o' mem => h o' (List.mem_cons_of_mem _ mem)) _ _⟩

/-- As long as the outcomes are admitted, `I` holds after every statement, and the answers
satisfy `post`. -/
def Outline : Prog Q R ρ → (List (Exchange Q R) → σ → Prop) →
    (List (Exchange Q R) → ρ → σ → Prop) → σ → Prop
  | done r, _, post, s => post [] r s
  | stmt q k, I, post, s => ∀ o, ok q o s → I [⟨q, (exec q o s).1⟩] (exec q o s).2 ∧
      (k (exec q o s).1).Outline (fun t => I (⟨q, (exec q o s).1⟩ :: t))
        (fun t => post (⟨q, (exec q o s).1⟩ :: t)) (exec q o s).2

variable {exec ok} {I I' : List (Exchange Q R) → σ → Prop} {s : σ}

theorem outline_bind {post : List (Exchange Q R) → β → σ → Prop} {p : Prog Q R ρ}
    {f : ρ → Prog Q R β} : (p.bind f).Outline exec ok I post s ↔
      p.Outline exec ok I (fun t r s' => (f r).Outline exec ok (fun t' => I (t ++ t'))
        (fun t' => post (t ++ t')) s') s := by
  induction p generalizing s I post with
  | done r => exact Iff.rfl
  | stmt q k ih =>
      exact forall_congr' fun o => forall_congr' fun _ => and_congr_right fun _ => ih _

theorem Outline.mono {post post' : List (Exchange Q R) → ρ → σ → Prop} {p : Prog Q R ρ}
    (h : p.Outline exec ok I post s) (during : ∀ t s, I t s → I' t s)
    (after : ∀ t r s, post t r s → post' t r s) : p.Outline exec ok I' post' s := by
  induction p generalizing s I I' post post' with
  | done r => exact after _ _ _ h
  | stmt q k ih =>
      intro o admitted
      obtain ⟨now, rest⟩ := h o admitted
      exact ⟨during _ _ now, ih _ rest (fun t => during _) fun t => after _⟩

/-- Wherever admitted outcomes leave the program, the assertion holds. -/
theorem Outline.feed {post : List (Exchange Q R) → ρ → σ → Prop} {p : Prog Q R ρ}
    (h : p.Outline exec ok I post s) (start : I [] s) {os : List O}
    (meets : p.Meets exec ok os s) : I (p.exchanges exec os s) (p.feed exec os s).2 := by
  induction os generalizing p s I post with
  | nil =>
      cases p with
      | done r => exact start
      | stmt q k => exact start
  | cons o os ih =>
      cases p with
      | done r => exact start
      | stmt q k =>
          obtain ⟨now, rest⟩ := h o meets.1
          exact ih (I := fun t => I (⟨q, (exec q o s).1⟩ :: t)) rest now meets.2

/-- What the statements of a program keep, the program keeps. -/
theorem Within.outline {P : Q → Prop} {J : σ → Prop} {p : Prog Q R ρ}
    (h : p.Within P fun _ => True) (kept : ∀ q o s, P q → ok q o s → J s → J (exec q o s).2)
    (start : J s) : p.Outline exec ok (fun _ => J) (fun _ _ => J) s := by
  induction p generalizing s with
  | done r => exact start
  | stmt q k ih =>
      intro o admitted
      have now := kept q o s h.1 admitted start
      exact ⟨now, ih _ (h.2 _) now⟩

end Outline

/-- Every statement is performed by the program that `impl` has for it. -/
def translate (impl : (q : Q) → Prog Q' R' (R q)) : Prog Q R ρ → Prog Q' R' ρ
  | done r => done r
  | stmt q k => (impl q).bind fun res => (k res).translate impl

theorem Within.translate {impl : (q : Q) → Prog Q' R' (R q)} {P : Q → Prop} {P' : Q' → Prop}
    {p : Prog Q R ρ} (h : p.Within P fun _ => True)
    (each : ∀ q, P q → (impl q).Within P' fun _ => True) :
    (p.translate impl).Within P' fun _ => True := by
  induction p with
  | done r => trivial
  | stmt q k ih =>
      refine within_bind.mpr ((each q h.1).mono (fun _ => id) ?_)
      intro res _
      exact ih res (h.2 res)

end Prog

namespace Routine

variable {Q : Type} {R : Q → Type} {ε ε' α β σ O : Type}

/-- `Prog.Outline` for a routine. -/
def Outline (exec : (q : Q) → O → σ → R q × σ) (ok : (q : Q) → O → σ → Prop)
    (m : Routine Q R ε α) (I : List (Exchange Q R) → σ → Prop)
    (post : List (Exchange Q R) → Except ε α → σ → Prop) (s : σ) : Prop :=
  Prog.Outline exec ok m I post s

section Outline

variable {exec : (q : Q) → O → σ → R q × σ} {ok : (q : Q) → O → σ → Prop}
variable {I I' : List (Exchange Q R) → σ → Prop} {s : σ}
variable {post : List (Exchange Q R) → Except ε α → σ → Prop}
variable {postB : List (Exchange Q R) → Except ε β → σ → Prop}

@[simp] theorem outline_pure (a : α) :
    (pure a : Routine Q R ε α).Outline exec ok I post s ↔ post [] (.ok a) s := Iff.rfl

@[simp] theorem outline_throw (e : ε) :
    (throw e : Routine Q R ε α).Outline exec ok I post s ↔ post [] (.error e) s := Iff.rfl

@[simp] theorem outline_bind (m : Routine Q R ε α) (f : α → Routine Q R ε β) :
    (m >>= f).Outline exec ok I postB s ↔ m.Outline exec ok I (fun t r s' =>
      (andThen f r).Outline exec ok (fun t' => I (t ++ t')) (fun t' => postB (t ++ t')) s') s :=
  Prog.outline_bind

@[simp] theorem outline_andThen_ok (f : α → Routine Q R ε β) (a : α) :
    (andThen f (.ok a)).Outline exec ok I postB s ↔ (f a).Outline exec ok I postB s := Iff.rfl

@[simp] theorem outline_andThen_error (f : α → Routine Q R ε β) (e : ε) :
    (andThen f (.error e)).Outline exec ok I postB s ↔ postB [] (.error e) s := Iff.rfl

@[simp] theorem outline_call (q : Q) {post : List (Exchange Q R) → Except ε (R q) → σ → Prop} :
    @Outline Q R ε (no_index (R q)) σ O exec ok (call q) I post s ↔
      ∀ o, ok q o s → I [⟨q, (exec q o s).1⟩] (exec q o s).2 ∧
        post [⟨q, (exec q o s).1⟩] (.ok (exec q o s).1) (exec q o s).2 := Iff.rfl

@[simp] theorem outline_ofExcept (x : Except ε α) :
    (ofExcept x : Routine Q R ε α).Outline exec ok I post s ↔ post [] x s := Iff.rfl

@[simp] theorem outline_attempt (m : Routine Q R ε α)
    {post : List (Exchange Q R) → Except ε' (Except ε α) → σ → Prop} :
    (attempt m).Outline exec ok I post s ↔
      m.Outline exec ok I (fun t r => post t (.ok r)) s := by
  refine Prog.outline_bind.trans ?_
  simp only [Prog.Outline, List.append_nil]
  exact Iff.rfl

theorem Outline.mono {post' : List (Exchange Q R) → Except ε α → σ → Prop} {m : Routine Q R ε α}
    (h : m.Outline exec ok I post s) (during : ∀ t s, I t s → I' t s)
    (after : ∀ t r s, post t r s → post' t r s) : m.Outline exec ok I' post' s :=
  Prog.Outline.mono h during after

theorem Uses.attempt {P : Q → Prop} {m : Routine Q R ε α} (h : m.Uses P) :
    (attempt m : Routine Q R ε' (Except ε α)).Uses P :=
  Prog.within_bind.mpr (Prog.Within.mono h (fun _ => id) fun _ _ => trivial)

/-- `Prog.Within.outline` for a routine. -/
theorem Uses.outline {P : Q → Prop} {J : σ → Prop} {m : Routine Q R ε α} (h : m.Uses P)
    (kept : ∀ q o s, P q → ok q o s → J s → J (exec q o s).2) (start : J s) :
    m.Outline exec ok (fun _ => J) (fun _ _ => J) s :=
  Prog.Within.outline h kept start

end Outline

end Routine

end Atomic
