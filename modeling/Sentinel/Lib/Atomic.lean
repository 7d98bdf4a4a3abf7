import Mathlib

/-!
# Programs over atomic statements and their interleavings

A program is a tree of atomic statements: each node names a statement, and its
children are indexed by the statement's result. The meaning of the statements is
one function `exec` on a shared state. The same program has two executions:

* `Prog.run` performs all its statements with nothing in between;
* a `Pool` holds one program per thread, and a schedule (a list of labels)
  decides which thread performs its next statement, or which environment step
  happens. `Pool.run` is the resulting pool and `Pool.events` the history of the
  statements performed, each with the shared state it started from.

`Follows` abstracts a program by an automaton that sees only statements and results;
`Pool.phases` is the induction rule that carries a global invariant over histories,
automaton phases of all threads, and the shared state through every schedule.
`Pool.since` follows an assertion from one event to the end of the schedule.
-/

namespace Atomic

/-- A program: an answer, or a statement and a continuation for its result. -/
inductive Prog (Q : Type) (R : Q → Type) (ρ : Type) where
  | done (r : ρ)
  | stmt (q : Q) (k : R q → Prog Q R ρ)

namespace Prog

variable {Q : Type} {R : Q → Type} {ρ β σ φ : Type}

/-- Continue with `f` once the program answers. -/
def bind : Prog Q R ρ → (ρ → Prog Q R β) → Prog Q R β
  | done r, f => f r
  | stmt q k, f => stmt q fun a => (k a).bind f

@[simp] theorem done_bind (r : ρ) (f : ρ → Prog Q R β) : (done r).bind f = f r := rfl

@[simp] theorem stmt_bind (q : Q) (k : R q → Prog Q R ρ) (f : ρ → Prog Q R β) :
    (stmt q k).bind f = stmt q fun a => (k a).bind f := rfl

section Run

variable (exec : (q : Q) → σ → R q × σ)

/-- All statements in a row, with nothing in between. -/
def run : Prog Q R ρ → σ → ρ × σ
  | done r, s => (r, s)
  | stmt q k, s => (k (exec q s).1).run (exec q s).2

@[simp] theorem run_done (r : ρ) (s : σ) : (done r : Prog Q R ρ).run exec s = (r, s) := rfl

@[simp] theorem run_stmt (q : Q) (k : R q → Prog Q R ρ) (s : σ) :
    (stmt q k).run exec s = (k (exec q s).1).run exec (exec q s).2 := rfl

@[simp] theorem run_bind (p : Prog Q R ρ) (f : ρ → Prog Q R β) (s : σ) :
    (p.bind f).run exec s = (f (p.run exec s).1).run exec (p.run exec s).2 := by
  induction p generalizing s with
  | done r => rfl
  | stmt q k ih => exact ih _ _

end Run

/-- The statements of the program, with their results, drive the automaton `δ`
from the given phase without getting stuck, and every answer fits the phase it
is given in. Nothing is assumed about the results. -/
def Follows (δ : φ → (q : Q) → R q → φ → Prop) (final : φ → ρ → Prop) :
    φ → Prog Q R ρ → Prop
  | a, done r => final a r
  | a, stmt q k => ∀ res, ∃ b, δ a q res b ∧ (k res).Follows δ final b

@[simp] theorem follows_done {δ : φ → (q : Q) → R q → φ → Prop} {final : φ → ρ → Prop} {a : φ}
    (r : ρ) : (done r : Prog Q R ρ).Follows δ final a ↔ final a r := Iff.rfl

@[simp] theorem follows_stmt {δ : φ → (q : Q) → R q → φ → Prop} {final : φ → ρ → Prop} {a : φ}
    (q : Q) (k : R q → Prog Q R ρ) : (stmt q k).Follows δ final a ↔
      ∀ res, ∃ b, δ a q res b ∧ (k res).Follows δ final b := Iff.rfl

@[simp] theorem follows_bind {δ : φ → (q : Q) → R q → φ → Prop} {final : φ → β → Prop}
    {p : Prog Q R ρ} {f : ρ → Prog Q R β} {a : φ} :
    (p.bind f).Follows δ final a ↔ p.Follows δ (fun b r => (f r).Follows δ final b) a := by
  induction p generalizing a with
  | done r => exact Iff.rfl
  | stmt q k ih => simp only [stmt_bind, follows_stmt, ih]

theorem Follows.mono {δ : φ → (q : Q) → R q → φ → Prop} {final final' : φ → ρ → Prop}
    {p : Prog Q R ρ} {a : φ} (h : p.Follows δ final a)
    (weaken : ∀ b r, final b r → final' b r) : p.Follows δ final' a := by
  induction p generalizing a with
  | done r => exact weaken _ _ h
  | stmt q k ih =>
      intro res
      obtain ⟨b, step, rest⟩ := h res
      exact ⟨b, step, ih res rest⟩

/-- Every statement of the program satisfies `P` and every answer satisfies `post`. -/
def Within (P : Q → Prop) (post : ρ → Prop) : Prog Q R ρ → Prop
  | done r => post r
  | stmt q k => P q ∧ ∀ res, (k res).Within P post

@[simp] theorem within_done {P : Q → Prop} {post : ρ → Prop} (r : ρ) :
    (done r : Prog Q R ρ).Within P post ↔ post r := Iff.rfl

@[simp] theorem within_stmt {P : Q → Prop} {post : ρ → Prop} (q : Q) (k : R q → Prog Q R ρ) :
    (stmt q k).Within P post ↔ P q ∧ ∀ res, (k res).Within P post := Iff.rfl

@[simp] theorem within_bind {P : Q → Prop} {post : β → Prop} {p : Prog Q R ρ}
    {f : ρ → Prog Q R β} :
    (p.bind f).Within P post ↔ p.Within P fun r => (f r).Within P post := by
  induction p with
  | done r => exact Iff.rfl
  | stmt q k ih => simp only [stmt_bind, within_stmt, ih]

theorem Within.mono {P P' : Q → Prop} {post post' : ρ → Prop} {p : Prog Q R ρ}
    (h : p.Within P post) (stmts : ∀ q, P q → P' q) (answers : ∀ r, post r → post' r) :
    p.Within P' post' := by
  induction p with
  | done r => exact answers r h
  | stmt q k ih => exact ⟨stmts q h.1, fun res => ih res (h.2 res)⟩

/-- A program whose statements the automaton ignores ends in the phase it started in. -/
theorem Within.follows {P : Q → Prop} {post : ρ → Prop} {p : Prog Q R ρ} (h : p.Within P post)
    {δ : φ → (q : Q) → R q → φ → Prop} {a : φ} (ignored : ∀ q res, P q → δ a q res a) :
    p.Follows δ (fun b r => b = a ∧ post r) a := by
  induction p with
  | done r => exact ⟨rfl, h⟩
  | stmt q k ih => exact fun res => ⟨a, ignored q res h.1, ih res (h.2 res)⟩

end Prog

/-- One schedule entry: a thread performs its next statement, or the environment
acts on the shared state. -/
inductive Label (ι ε : Type) where
  | thread (i : ι)
  | env (e : ε)

/-- A statement performed by a thread, with the shared state it started from. -/
structure Event (ι Q σ : Type) where
  thread : ι
  q : Q
  before : σ

/-- The shared state and what each thread still has to do. -/
structure Pool (ι : Type) (Q : Type) (R : Q → Type) (ρ σ : Type) where
  shared : σ
  prog : ι → Prog Q R ρ

namespace Pool

variable {ι Q ρ σ ε φ : Type} {R : Q → Type} [DecidableEq ι]
variable (exec : (q : Q) → σ → R q × σ) (envStep : ε → σ → σ)

/-- One label. A thread that has answered does nothing. -/
def step (s : Pool ι Q R ρ σ) : Label ι ε → Pool ι Q R ρ σ
  | .env e => { s with shared := envStep e s.shared }
  | .thread i =>
      match s.prog i with
      | .done _ => s
      | .stmt q k =>
          { shared := (exec q s.shared).2
            prog := Function.update s.prog i (k (exec q s.shared).1) }

/-- The event of one label, if it performs a statement. -/
def event (s : Pool ι Q R ρ σ) : Label ι ε → List (Event ι Q σ)
  | .env _ => []
  | .thread i =>
      match s.prog i with
      | .done _ => []
      | .stmt q _ => [⟨i, q, s.shared⟩]

/-- The pool after a schedule. -/
def run : Pool ι Q R ρ σ → List (Label ι ε) → Pool ι Q R ρ σ
  | s, [] => s
  | s, l :: ls => run (s.step exec envStep l) ls

/-- The statements a schedule performs, in order. -/
def events : Pool ι Q R ρ σ → List (Label ι ε) → List (Event ι Q σ)
  | _, [] => []
  | s, l :: ls => s.event l ++ events (s.step exec envStep l) ls

/-- Induction over a schedule: an assertion about the history and the pool that
every performed statement and every environment step extends. -/
theorem invariant {I : List (Event ι Q σ) → Pool ι Q R ρ σ → Prop}
    (thread : ∀ h s i q k, s.prog i = .stmt q k → I h s →
      I (h ++ [⟨i, q, s.shared⟩])
        { shared := (exec q s.shared).2
          prog := Function.update s.prog i (k (exec q s.shared).1) })
    (env : ∀ h s e, I h s → I h { s with shared := envStep e s.shared })
    (s : Pool ι Q R ρ σ) (init : I [] s) (ls : List (Label ι ε)) :
    I (s.events exec envStep ls) (s.run exec envStep ls) := by
  have general : ∀ h s, I h s → I (h ++ s.events exec envStep ls) (s.run exec envStep ls) := by
    induction ls with
    | nil =>
        intro h s hs
        simpa only [events, run, List.append_nil] using hs
    | cons l ls ih =>
        intro h s hs
        rw [events, run, ← List.append_assoc]
        apply ih
        cases l with
        | env e => simpa only [event, step, List.append_nil] using env h s e hs
        | thread i =>
            cases next : s.prog i with
            | done r => simpa only [event, step, next, List.append_nil] using hs
            | stmt q k =>
                simpa only [event, step, next] using thread h s i q k next hs
  simpa only [List.nil_append] using general [] s init

theorem run_append (s : Pool ι Q R ρ σ) (ls ls' : List (Label ι ε)) :
    s.run exec envStep (ls ++ ls') = (s.run exec envStep ls).run exec envStep ls' := by
  induction ls generalizing s with
  | nil => rfl
  | cons l ls ih => exact ih _

theorem events_append (s : Pool ι Q R ρ σ) (ls ls' : List (Label ι ε)) :
    s.events exec envStep (ls ++ ls') =
      s.events exec envStep ls ++ (s.run exec envStep ls).events exec envStep ls' := by
  induction ls generalizing s with
  | nil => rfl
  | cons l ls ih => simp only [List.cons_append, events, run, ih, List.append_assoc]

/-- The schedule up to one of its events. -/
theorem exists_cut (s : Pool ι Q R ρ σ) (ls : List (Label ι ε)) {before after : List (Event ι Q σ)}
    {e : Event ι Q σ} (cut : s.events exec envStep ls = before ++ e :: after) :
    ∃ past rest k, ls = past ++ Label.thread e.thread :: rest ∧ s.events exec envStep past = before ∧
      (s.run exec envStep past).shared = e.before ∧
      (s.run exec envStep past).prog e.thread = .stmt e.q k := by
  induction ls generalizing s before with
  | nil => simp [events] at cut
  | cons l ls ih =>
      rw [events] at cut
      have skip : s.event l = [] → ∃ past rest k, l :: ls = past ++ Label.thread e.thread :: rest ∧
          s.events exec envStep past = before ∧ (s.run exec envStep past).shared = e.before ∧
          (s.run exec envStep past).prog e.thread = .stmt e.q k := by
        intro none_
        rw [none_, List.nil_append] at cut
        obtain ⟨past, rest, k, rfl, events_, shared, prog⟩ := ih _ cut
        exact ⟨l :: past, rest, k, rfl, by rw [events, none_, events_, List.nil_append], shared, prog⟩
      cases l with
      | env e => exact skip rfl
      | thread i =>
          cases next : s.prog i with
          | done r => exact skip (by simp only [event, next])
          | stmt q k =>
              have here : s.event (.thread i : Label ι ε) = [⟨i, q, s.shared⟩] := by
                simp only [event, next]
              rw [here, List.singleton_append] at cut
              cases before with
              | nil =>
                  obtain ⟨rfl, -⟩ := List.cons.inj cut
                  exact ⟨[], ls, k, rfl, rfl, rfl, next⟩
              | cons a before =>
                  obtain ⟨rfl, tail⟩ := List.cons.inj cut
                  obtain ⟨past, rest, k, rfl, events_, shared, prog⟩ := ih _ tail
                  refine ⟨.thread i :: past, rest, k, rfl, ?_, shared, prog⟩
                  rw [events, here, events_, List.singleton_append]

/-- A thread without events has not begun. -/
theorem prog_of_idle (s : Pool ι Q R ρ σ) (ls : List (Label ι ε)) {i : ι}
    (idle : ∀ e ∈ s.events exec envStep ls, e.thread ≠ i) :
    (s.run exec envStep ls).prog i = s.prog i := by
  refine invariant exec envStep
    (I := fun h (p : Pool ι Q R ρ σ) => (∀ e ∈ h, e.thread ≠ i) → p.prog i = s.prog i)
    ?_ (fun _ _ _ same => same) s (fun _ => rfl) ls idle
  intro h p j q k next same idle
  obtain ⟨past, last⟩ := List.forall_mem_append.mp idle
  have other : i ≠ j := (last _ (List.mem_singleton_self _)).symm
  exact (Function.update_of_ne other _ _).trans (same past)

/-- What holds after an event, and is kept by every later statement and by the
environment, holds before each later statement and at the end. -/
theorem since {J : σ → Prop} (env : ∀ e x, J x → J (envStep e x)) (s : Pool ι Q R ρ σ)
    (ls : List (Label ι ε)) {past rest : List (Event ι Q σ)} {e : Event ι Q σ}
    (cut : s.events exec envStep ls = past ++ e :: rest) (start : J (exec e.q e.before).2)
    (kept : ∀ f ∈ rest, ∀ x, J x → J (exec f.q x).2) :
    (∀ f ∈ rest, J f.before) ∧ J (s.run exec envStep ls).shared := by
  refine invariant exec envStep
    (I := fun h (p : Pool ι Q R ρ σ) => ∀ rest, h = past ++ e :: rest →
      (∀ f ∈ rest, ∀ x, J x → J (exec f.q x).2) → (∀ f ∈ rest, J f.before) ∧ J p.shared)
    ?_ ?_ s (fun rest cut => by simp at cut) ls rest cut kept
  · intro h p i q k next inv rest cut kept
    rcases List.eq_nil_or_concat' rest with rfl | ⟨rest', f, rfl⟩
    · obtain ⟨-, last⟩ := List.append_inj' cut rfl
      cases last
      exact ⟨nofun, start⟩
    · rw [← List.cons_append, ← List.append_assoc] at cut
      obtain ⟨before, last⟩ := List.append_inj' cut rfl
      cases last
      obtain ⟨past, last⟩ := List.forall_mem_append.mp kept
      obtain ⟨held, now⟩ := inv rest' before past
      exact ⟨List.forall_mem_append.mpr ⟨held, List.forall_mem_singleton.mpr now⟩,
        last _ (List.mem_singleton_self _) _ now⟩
  · intro h p e inv rest cut kept
    obtain ⟨held, now⟩ := inv rest cut kept
    exact ⟨held, env _ _ now⟩

/-- The main rule, for schedules along which a condition on the pool holds. Each thread
follows an automaton; the invariant relates the history, the phases of all threads and the
shared state. One step moves one thread's phase, and the premises say what the automaton
allowed it to do. -/
theorem phases_while {δ : ι → φ → (q : Q) → R q → φ → Prop} {final : ι → φ → ρ → Prop}
    {I : List (Event ι Q σ) → (ι → φ) → σ → Prop} {start : ι → φ} {G : Pool ι Q R ρ σ → Prop}
    (thread : ∀ h ph (p : Pool ι Q R ρ σ) i q b, G p →
      (∀ j, (p.prog j).Follows (δ j) (final j) (ph j)) → δ i (ph i) q (exec q p.shared).1 b →
      I h ph p.shared →
      I (h ++ [⟨i, q, p.shared⟩]) (Function.update ph i b) (exec q p.shared).2)
    (env : ∀ h ph x e, I h ph x → I h ph (envStep e x))
    (s : Pool ι Q R ρ σ) (programs : ∀ i, (s.prog i).Follows (δ i) (final i) (start i))
    (init : I [] start s.shared) (ls : List (Label ι ε))
    (always : ∀ past rest, ls = past ++ rest → G (s.run exec envStep past)) :
    ∃ ph, (∀ i, ((s.run exec envStep ls).prog i).Follows (δ i) (final i) (ph i)) ∧
      I (s.events exec envStep ls) ph (s.run exec envStep ls).shared := by
  induction ls using List.reverseRecOn with
  | nil => exact ⟨start, programs, init⟩
  | append_singleton ls l ih =>
      obtain ⟨ph, progs, inv⟩ := ih fun past rest cut =>
        always past (rest ++ [l]) (by rw [cut, List.append_assoc])
      rw [run_append, events_append]
      cases l with
      | env e =>
          refine ⟨ph, progs, ?_⟩
          simpa only [events, event, run, step, List.append_nil] using env _ _ _ e inv
      | thread i =>
          cases next : (s.run exec envStep ls).prog i with
          | done r =>
              refine ⟨ph, ?_, ?_⟩
              · simpa only [run, step, next] using progs
              · simpa only [events, event, run, step, next, List.append_nil] using inv
          | stmt q k =>
              have here := progs i
              rw [next] at here
              obtain ⟨b, allowed, rest⟩ := here (exec q (s.run exec envStep ls).shared).1
              refine ⟨Function.update ph i b, fun j => ?_, ?_⟩
              · by_cases same : j = i
                · subst same
                  simpa only [run, step, next, Function.update_self] using rest
                · simpa only [run, step, next, Function.update_of_ne same] using progs j
              · simpa only [events, event, run, step, next, List.append_nil] using
                  thread _ ph _ i q b (always ls [.thread i] rfl) progs allowed inv

/-- The rule for all schedules. -/
theorem phases {δ : ι → φ → (q : Q) → R q → φ → Prop} {final : ι → φ → ρ → Prop}
    {I : List (Event ι Q σ) → (ι → φ) → σ → Prop} {start : ι → φ}
    (thread : ∀ h ph x i q b, δ i (ph i) q (exec q x).1 b → I h ph x →
      I (h ++ [⟨i, q, x⟩]) (Function.update ph i b) (exec q x).2)
    (env : ∀ h ph x e, I h ph x → I h ph (envStep e x))
    (s : Pool ι Q R ρ σ) (programs : ∀ i, (s.prog i).Follows (δ i) (final i) (start i))
    (init : I [] start s.shared) (ls : List (Label ι ε)) :
    ∃ ph, (∀ i, ((s.run exec envStep ls).prog i).Follows (δ i) (final i) (ph i)) ∧
      I (s.events exec envStep ls) ph (s.run exec envStep ls).shared :=
  phases_while exec envStep (G := fun _ => True)
    (fun h ph p i q b _ _ allowed inv => thread h ph p.shared i q b allowed inv) env s programs
    init ls fun _ _ _ => trivial

/-- The same for one thread among others of which nothing is known. -/
theorem phase {δ : φ → (q : Q) → R q → φ → Prop} {final : φ → ρ → Prop}
    {I : List (Event ι Q σ) → φ → σ → Prop} {start : φ} {i : ι}
    (own : ∀ h a x q b, δ a q (exec q x).1 b → I h a x → I (h ++ [⟨i, q, x⟩]) b (exec q x).2)
    (others : ∀ h a x j q, j ≠ i → I h a x → I (h ++ [⟨j, q, x⟩]) a (exec q x).2)
    (env : ∀ h a x e, I h a x → I h a (envStep e x))
    (s : Pool ι Q R ρ σ) (program : (s.prog i).Follows δ final start)
    (init : I [] start s.shared) (ls : List (Label ι ε)) :
    ∃ a, ((s.run exec envStep ls).prog i).Follows δ final a ∧
      I (s.events exec envStep ls) a (s.run exec envStep ls).shared := by
  refine invariant exec envStep
    (I := fun h (p : Pool ι Q R ρ σ) => ∃ a, (p.prog i).Follows δ final a ∧ I h a p.shared)
    ?_ ?_ s ⟨start, program, init⟩ ls
  · rintro h p j q k next ⟨a, follows, inv⟩
    by_cases same : j = i
    · subst same
      rw [next] at follows
      obtain ⟨b, allowed, rest⟩ := follows (exec q p.shared).1
      refine ⟨b, ?_, own h a p.shared q b allowed inv⟩
      simpa only [Function.update_self] using rest
    · refine ⟨a, ?_, others h a p.shared j q same inv⟩
      simpa only [Function.update_of_ne (Ne.symm same)] using follows
  · rintro h p e ⟨a, follows, inv⟩
    exact ⟨a, follows, env h a p.shared e inv⟩

/-- The rule for threads that are known only by the statements they may perform. -/
theorem within {P : ι → Q → Prop} {post : ι → ρ → Prop} {I : List (Event ι Q σ) → σ → Prop}
    (thread : ∀ h x i q, P i q → I h x → I (h ++ [⟨i, q, x⟩]) (exec q x).2)
    (env : ∀ h x e, I h x → I h (envStep e x))
    (s : Pool ι Q R ρ σ) (programs : ∀ i, (s.prog i).Within (P i) (post i))
    (init : I [] s.shared) (ls : List (Label ι ε)) :
    I (s.events exec envStep ls) (s.run exec envStep ls).shared := by
  obtain ⟨-, -, inv⟩ := phases exec envStep
    (δ := fun i (_ : Unit) q _ _ => P i q) (I := fun h _ x => I h x)
    (fun h _ x i q _ allowed inv => thread h x i q allowed inv) (fun h _ x e inv => env h x e inv)
    s (fun i => (programs i).follows (a := ()) fun _ _ allowed => allowed) init ls
  exact inv

end Pool

end Atomic
