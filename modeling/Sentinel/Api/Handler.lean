import Sentinel.Api.Stmt
import Sentinel.Lib.Trace

/-!
# Handlers as programs over statements

A handler is a program whose atomic steps are the server's statements and whose
answer is a result or an `ApiError`. The monad is the `?` operator of the source:
an error ends the handler. `sql` is a statement followed by `?`; `sqlOr` and
`sqlIgnore` are the two ways the source swallows a database error.

The text helpers at the end follow the Rust standard library on the points the
handlers depend on: white space, integer parsing and the UTF-8 length.
-/

namespace Sentinel.Api

open Atomic

/-- `error::ApiError`. -/
inductive ApiError where
  | unauthorized | forbidden | notFound
  | badRequest (detail : String)
  | versionConflict (current : Int)
  | rateLimited | lockedOut | internal
  deriving DecidableEq, Repr

/-- `impl From<sqlx::Error> for ApiError`. -/
def SqlError.toApiError : SqlError → ApiError
  | .rowNotFound => .notFound
  | .constraint => .internal

/-- A program over the server's statements that answers an `ApiResult`. -/
def Handler (α : Type) := Prog Stmt (fun q => Except SqlError q.Result) (Except ApiError α)

namespace Handler

variable {α β : Type}

/-- What follows a step of a handler: an error is the handler's answer. -/
def andThen (f : α → Handler β) : Except ApiError α → Handler β
  | .ok a => f a
  | .error e => Prog.done (.error e)

instance : Monad Handler where
  pure a := Prog.done (.ok a)
  bind m f := Prog.bind m (andThen f)

def throw (e : ApiError) : Handler α := Prog.done (.error e)

/-- A statement followed by `?`. -/
def sql (q : Stmt) : Handler q.Result :=
  Prog.stmt q fun res => Prog.done (res.mapError SqlError.toApiError)

/-- `.unwrap_or(default)`. -/
def sqlOr (q : Stmt) (default : q.Result) : Handler q.Result :=
  Prog.stmt q fun res => Prog.done (.ok (res.toOption.getD default))

/-- `let _ = …`. -/
def sqlIgnore (q : Stmt) : Handler Unit := Prog.stmt q fun _ => Prog.done (.ok ())

/-- `if !condition { return Err(error) }`. -/
def ensure (condition : Bool) (error : ApiError) : Handler Unit :=
  if condition then pure () else throw error

/-- `ok_or(error)?`. -/
def okOr (value : Option α) (error : ApiError) : Handler α :=
  match value with
  | some a => pure a
  | none => throw error

/-- All statements of the handler in a row: one request at a time. -/
def perform (h : Handler α) (env : Env) (db : Db) : Except ApiError α × Db :=
  Prog.run (Stmt.exec env) h db

section Perform

variable (env : Env) (db : Db)

@[simp] theorem perform_pure (a : α) : (pure a : Handler α).perform env db = (.ok a, db) := rfl

@[simp] theorem perform_throw (e : ApiError) :
    (throw e : Handler α).perform env db = (.error e, db) := rfl

@[simp] theorem perform_bind (m : Handler α) (f : α → Handler β) :
    (m >>= f).perform env db =
      (andThen f (m.perform env db).1).perform env (m.perform env db).2 :=
  Prog.run_bind _ _ _ _

@[simp] theorem perform_andThen_ok (f : α → Handler β) (a : α) :
    (andThen f (.ok a)).perform env db = (f a).perform env db := rfl

@[simp] theorem perform_andThen_error (f : α → Handler β) (e : ApiError) :
    (andThen f (.error e)).perform env db = (.error e, db) := rfl

@[simp] theorem perform_sql (q : Stmt) :
    @perform (no_index q.Result) (sql q) env db =
      ((Stmt.exec env q db).1.mapError SqlError.toApiError, (Stmt.exec env q db).2) := rfl

@[simp] theorem perform_sqlOr (q : Stmt) (d : q.Result) :
    @perform (no_index q.Result) (sqlOr q d) env db =
      (.ok ((Stmt.exec env q db).1.toOption.getD d), (Stmt.exec env q db).2) := rfl

@[simp] theorem perform_sqlIgnore (q : Stmt) :
    (sqlIgnore q).perform env db = (.ok (), (Stmt.exec env q db).2) := rfl

theorem perform_ensure (c : Bool) (e : ApiError) :
    (ensure c e).perform env db = (if c then .ok () else .error e, db) := by
  cases c <;> rfl

theorem perform_okOr (o : Option α) (e : ApiError) :
    (okOr o e).perform env db = (o.elim (.error e) .ok, db) := by
  cases o <;> rfl

end Perform

/-- `Prog.Follows` for a handler. -/
def Follows {φ : Type} (h : Handler α) (δ : φ → (q : Stmt) → Except SqlError q.Result → φ → Prop)
    (final : φ → Except ApiError α → Prop) (a : φ) : Prop :=
  Prog.Follows δ final a h

section Follows

variable {φ : Type} {δ : φ → (q : Stmt) → Except SqlError q.Result → φ → Prop}
variable {final : φ → Except ApiError α → Prop} {a : φ}

@[simp] theorem follows_pure (x : α) :
    (pure x : Handler α).Follows δ final a ↔ final a (.ok x) := Iff.rfl

@[simp] theorem follows_throw (e : ApiError) :
    (throw e : Handler α).Follows δ final a ↔ final a (.error e) := Iff.rfl

@[simp] theorem follows_bind {final : φ → Except ApiError β → Prop} (m : Handler α)
    (f : α → Handler β) : (m >>= f).Follows δ final a ↔
      m.Follows δ (fun b r => (andThen f r).Follows δ final b) a :=
  Prog.follows_bind

@[simp] theorem follows_andThen_ok {final : φ → Except ApiError β → Prop} (f : α → Handler β)
    (x : α) : (andThen f (.ok x)).Follows δ final a ↔ (f x).Follows δ final a := Iff.rfl

@[simp] theorem follows_andThen_error {final : φ → Except ApiError β → Prop} (f : α → Handler β)
    (e : ApiError) : (andThen f (.error e)).Follows δ final a ↔ final a (.error e) := Iff.rfl

@[simp] theorem follows_sql (q : Stmt) {final : φ → Except ApiError q.Result → Prop} :
    @Follows (no_index q.Result) φ (sql q) δ final a ↔
      (∀ x, ∃ b, δ a q (.ok x) b ∧ final b (.ok x)) ∧
        ∀ e, ∃ b, δ a q (.error e) b ∧ final b (.error e.toApiError) := by
  constructor
  · exact fun h => ⟨fun x => h (.ok x), fun e => h (.error e)⟩
  · rintro ⟨ok, error⟩ (e | x)
    · exact error e
    · exact ok x

theorem follows_sqlOr (q : Stmt) (d : q.Result) {final : φ → Except ApiError q.Result → Prop} :
    @Follows (no_index q.Result) φ (sqlOr q d) δ final a ↔
      ∀ res, ∃ b, δ a q res b ∧ final b (.ok (res.toOption.getD d)) := Iff.rfl

@[simp] theorem follows_sqlIgnore (q : Stmt) {final : φ → Except ApiError Unit → Prop} :
    (sqlIgnore q).Follows δ final a ↔ ∀ res, ∃ b, δ a q res b ∧ final b (.ok ()) := Iff.rfl

@[simp] theorem follows_ensure (c : Bool) (e : ApiError) {final : φ → Except ApiError Unit → Prop} :
    (ensure c e).Follows δ final a ↔
      (c = true → final a (.ok ())) ∧ (c = false → final a (.error e)) := by
  cases c <;> simp [ensure]

@[simp] theorem follows_okOr (o : Option α) (e : ApiError) :
    (okOr o e).Follows δ final a ↔
      (∀ x, o = some x → final a (.ok x)) ∧ (o = none → final a (.error e)) := by
  cases o <;> simp [okOr]

theorem Follows.mono {h : Handler α} (follows : h.Follows δ final a)
    {final' : φ → Except ApiError α → Prop} (weaken : ∀ b r, final b r → final' b r) :
    h.Follows δ final' a :=
  Prog.Follows.mono follows weaken

end Follows

/-- `Prog.Within` for a handler: the statements it may perform, and a condition on
the value it answers when it succeeds. -/
def Within (h : Handler α) (P : Stmt → Prop) (post : α → Prop) : Prop :=
  Prog.Within P (fun r => ∀ x, r = .ok x → post x) h

section Within

variable {P : Stmt → Prop} {post : α → Prop}

@[simp] theorem within_pure (x : α) : (pure x : Handler α).Within P post ↔ post x := by
  simp only [Within, pure, Prog.within_done, Except.ok.injEq, forall_eq']

@[simp] theorem within_throw (e : ApiError) : (throw e : Handler α).Within P post ↔ True := by
  simp only [Within, throw, Prog.within_done, reduceCtorEq, false_implies, implies_true]

@[simp] theorem within_sql (q : Stmt) {post : q.Result → Prop} :
    @Within (no_index q.Result) (sql q) P post ↔ P q ∧ ∀ x, post x := by
  constructor
  · rintro ⟨stmt, answers⟩
    exact ⟨stmt, fun x => answers (.ok x) x rfl⟩
  · rintro ⟨stmt, answers⟩
    exact ⟨stmt, fun _ x _ => answers x⟩

@[simp] theorem within_sqlOr (q : Stmt) (d : q.Result) {post : q.Result → Prop} :
    @Within (no_index q.Result) (sqlOr q d) P post ↔ P q ∧ ∀ x, post x := by
  constructor
  · rintro ⟨stmt, answers⟩
    exact ⟨stmt, fun x => answers (.ok x) x rfl⟩
  · rintro ⟨stmt, answers⟩
    exact ⟨stmt, fun _ x _ => answers x⟩

@[simp] theorem within_sqlIgnore (q : Stmt) {post : Unit → Prop} :
    (sqlIgnore q).Within P post ↔ P q ∧ post () := by
  constructor
  · rintro ⟨stmt, answers⟩
    exact ⟨stmt, answers (.error .constraint) () rfl⟩
  · rintro ⟨stmt, answers⟩
    exact ⟨stmt, fun _ _ _ => answers⟩

@[simp] theorem within_ensure (c : Bool) (e : ApiError) {post : Unit → Prop} :
    (ensure c e).Within P post ↔ (c = true → post ()) := by
  cases c <;> simp [ensure]

@[simp] theorem within_okOr (o : Option α) (e : ApiError) :
    (okOr o e).Within P post ↔ ∀ x, o = some x → post x := by
  cases o <;> simp [okOr]

@[simp] theorem within_bind {post : β → Prop} (m : Handler α) (f : α → Handler β) :
    (m >>= f).Within P post ↔ m.Within P fun x => (f x).Within P post := by
  refine Iff.trans (Prog.within_bind (p := m) (f := andThen f)) ?_
  constructor
  · intro h
    refine Prog.Within.mono h (fun _ stmt => stmt) ?_
    rintro r step x rfl
    exact step
  · intro h
    refine Prog.Within.mono h (fun _ stmt => stmt) ?_
    rintro (e | x) step
    · exact fun _ contra => nomatch contra
    · exact step x rfl

theorem Within.mono {h : Handler α} (within : h.Within P post) {P' : Stmt → Prop}
    {post' : α → Prop} (stmts : ∀ q, P q → P' q) (answers : ∀ x, post x → post' x) :
    h.Within P' post' :=
  Prog.Within.mono within stmts fun _ step x eq => answers x (step x eq)

/-- A handler whose statements the automaton ignores ends in the phase it started
in. -/
theorem Within.follows {h : Handler α} (within : h.Within P post) {φ : Type}
    {δ : φ → (q : Stmt) → Except SqlError q.Result → φ → Prop} {a : φ}
    (ignored : ∀ q res, P q → δ a q res a)
    {final : φ → Except ApiError α → Prop} (ok : ∀ x, post x → final a (.ok x))
    (error : ∀ e, final a (.error e)) : h.Follows δ final a := by
  refine Prog.Follows.mono (Prog.Within.follows within ignored) ?_
  rintro b (e | x) ⟨rfl, answers⟩
  · exact error e
  · exact ok x (answers x rfl)

/-- A block whose statements the automaton ignores. -/
theorem Within.follows_bind {h : Handler α} (within : h.Within P post) {φ : Type}
    {δ : φ → (q : Stmt) → Except SqlError q.Result → φ → Prop} {a : φ}
    (ignored : ∀ q res, P q → δ a q res a) {final : φ → Except ApiError β → Prop}
    {f : α → Handler β} (rest : ∀ x, post x → (f x).Follows δ final a)
    (error : ∀ e, final a (.error e)) : (h >>= f).Follows δ final a := by
  rw [Handler.follows_bind]
  exact within.follows ignored rest error

/-- What the statements of a handler do to the database, the handler does. -/
theorem Within.performs {h : Handler α}
    (within : h.Within P post) {env : Env} {R : Db → Db → Prop} (refl : ∀ db, R db db)
    (trans : ∀ {a b c}, R a b → R b c → R a c)
    (each : ∀ q db, P q → R db (Stmt.exec env q db).2) (db : Db) :
    R db (h.perform env db).2 ∧ ∀ x, (h.perform env db).1 = .ok x → post x := by
  have general : ∀ (p : Prog Stmt (fun q => Except SqlError q.Result) (Except ApiError α)) (db : Db),
      p.Within P (fun r => ∀ x, r = .ok x → post x) →
      R db (p.run (Stmt.exec env) db).2 ∧
        ∀ x, (p.run (Stmt.exec env) db).1 = .ok x → post x := by
    intro p
    induction p with
    | done r => exact fun db within => ⟨refl db, within⟩
    | stmt q k ih =>
        intro db within
        obtain ⟨after, answers⟩ := ih _ (Stmt.exec env q db).2 (within.2 (Stmt.exec env q db).1)
        exact ⟨trans (each q db within.1) after, answers⟩
  exact general h db within

end Within

section Answers

variable {t t' : List (Exchange Stmt fun q => Except SqlError q.Result)}

/-- The handler makes these exchanges and answers the value. -/
def Answers (h : Handler α) (t : List (Exchange Stmt fun q => Except SqlError q.Result))
    (x : α) : Prop :=
  Prog.Runs h t (.ok x)

/-- The handler makes these exchanges and goes on as the other. -/
def Leads (h : Handler α) (t : List (Exchange Stmt fun q => Except SqlError q.Result))
    (p : Handler α) : Prop :=
  Prog.Steps h t p

theorem Answers.leads {m : Handler α} {f : α → Handler β} {x : α} {p : Handler β}
    (first : m.Answers t x) (rest : (f x).Leads t' p) : (m >>= f).Leads (t ++ t') p :=
  Prog.Runs.bind first rest

theorem Answers.bind {m : Handler α} {f : α → Handler β} {x : α} {y : β} (first : m.Answers t x)
    (rest : (f x).Answers t' y) : (m >>= f).Answers (t ++ t') y :=
  Prog.Runs.bind first rest

theorem answers_pure (x : α) : (pure x : Handler α).Answers [] x := .nil _

theorem answers_sql (q : Stmt) (res : q.Result) :
    @Answers (no_index q.Result) (sql q) [⟨q, .ok res⟩] res := .cons (.nil _)

theorem answers_ensure {c : Bool} (holds : c = true) (e : ApiError) : (ensure c e).Answers [] () := by
  subst holds
  exact .nil _

theorem answers_okOr {o : Option α} {x : α} (found : o = some x) (e : ApiError) :
    (okOr o e).Answers [] x := by
  subst found
  exact .nil _

end Answers

end Handler

/-- `str::as_bytes`. -/
def utf8 (s : String) : Bytes := s.toUTF8.data.toList

/-- `char::is_whitespace`. -/
def isWhitespace (c : Char) : Bool :=
  let n := c.toNat
  decide (9 ≤ n ∧ n ≤ 13 ∨ n = 0x20 ∨ n = 0x85 ∨ n = 0xa0 ∨ n = 0x1680 ∨
    0x2000 ≤ n ∧ n ≤ 0x200a ∨ n = 0x2028 ∨ n = 0x2029 ∨ n = 0x202f ∨ n = 0x205f ∨ n = 0x3000)

/-- Drop the matching characters at both ends. -/
def trimMatches (p : Char → Bool) (s : String) : String :=
  String.ofList (((s.toList.dropWhile p).reverse.dropWhile p).reverse)

/-- `str::trim`. -/
def trim (s : String) : String := trimMatches isWhitespace s

/-- The digits of an unsigned decimal number, most significant first. -/
def parseDigits : List Char → Option Nat
  | [] => none
  | cs => cs.foldl (fun acc c => acc.bind fun n =>
      if c.isDigit then some (10 * n + (c.toNat - '0'.toNat)) else none) (some 0)

/-- `str::parse::<i64>`. -/
def parseI64 (s : String) : Option Int :=
  let value : Option Int :=
    match s.toList with
    | '-' :: ds => (parseDigits ds).map fun n => -(n : Int)
    | '+' :: ds => (parseDigits ds).map fun n => (n : Int)
    | ds => (parseDigits ds).map fun n => (n : Int)
  value.filter fun n => decide (-(2 ^ 63) ≤ n ∧ n ≤ maxBigint)

end Sentinel.Api
