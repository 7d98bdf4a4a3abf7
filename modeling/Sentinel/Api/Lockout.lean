import Mathlib
import Sentinel.Api.SecondFactor

/-!
# The second-factor lockout under concurrent guesses

`check_totp_code` reads the lock, compares the code and then counts a failure. Here any
number of such checks of one account run interleaved while the clock advances.

`failures` are the times of the wrong codes counted since the last success. A check that
has found its code wrong and has not counted it yet is `Failing`. `GuessesBounded` is the
promise of the lock: five wrong codes until it closes, and one more for each fifteen
minutes afterwards. It holds as long as no two checks are `Engaged` at once, that is between
the look at the lock and the update of the counter.
-/

namespace Sentinel.Api

open Atomic Handler Relational

/-- The arguments of one check. -/
structure TotpCheck where
  ip : String
  code : String

def TotpCheck.handler (env : Env) (account : Uuid) (c : TotpCheck) : Handler Response := do
  checkTotpCode env account c.ip c.code
  pure .ok

/-- What a counted failure or a success does to the list of failures. -/
def countFailure (account : Uuid) (times : List Time) (q : Stmt) (now : Time) : List Time :=
  match q with
  | .bumpLockout a => if a = account then times ++ [now] else times
  | .clearLockout a => if a = account then [] else times
  | _ => times

variable {ι : Type}

/-- When wrong codes were counted, since the last success. -/
def failures (account : Uuid) (h : List (Event ι Stmt Db)) : List Time :=
  h.foldl (fun times e => countFailure account times e.q e.before.clock) []

theorem failures_append (account : Uuid) (h : List (Event ι Stmt Db)) (e : Event ι Stmt Db) :
    failures account (h ++ [e]) =
      countFailure account (failures account h) e.q e.before.clock := by
  rw [failures, List.foldl_append]
  rfl

/-- The statements of a check between its look at the lock and its update of the row. -/
def Stmt.checks (account : Uuid) : Stmt → Bool
  | .now => true
  | .totpSecretEnc a | .bumpLockout a | .clearLockout a => decide (a = account)
  | _ => false

/-- The check has looked at the lock and has neither ended nor updated the row. -/
def Engaged (account : Uuid) (s : ServerPool ι) (i : ι) : Prop :=
  match s.prog i with
  | .done _ => False
  | .stmt q _ => q.checks account = true

instance (account : Uuid) (s : ServerPool ι) (i : ι) : Decidable (Engaged account s i) := by
  unfold Engaged
  split <;> infer_instance

/-- The check has compared a wrong code that is not counted yet. -/
def Failing (account : Uuid) (s : ServerPool ι) (i : ι) : Prop :=
  match s.prog i with
  | .done _ => False
  | .stmt q _ => q = .bumpLockout account

instance (account : Uuid) (s : ServerPool ι) (i : ι) : Decidable (Failing account s i) := by
  unfold Failing
  split <;> infer_instance

/-- From the fifth failure on, each one comes fifteen minutes after the one before. -/
def Spaced (times : List Time) : Prop :=
  ∀ (past : List Time) a b rest, times = past ++ a :: b :: rest → 4 ≤ past.length →
    a + minutes 15 ≤ b

/-- The bound on guesses, in one state. -/
structure GuessesBounded (account : Uuid) (times : List Time) (s : ServerPool ι) : Prop where
  /-- Until the lock closes, at most five wrong codes have been compared. -/
  few : times.length < 5 → ∀ checks : List ι, checks.Nodup →
    (∀ i ∈ checks, Failing account s i) → times.length + checks.length ≤ 5
  /-- Afterwards one at a time, when the last lock has run out. -/
  one : 5 ≤ times.length → ∀ i j, Failing account s i → Failing account s j → i = j
  late : 5 ≤ times.length → ∀ i, Failing account s i → ∀ last, times.getLast? = some last →
    last + minutes 15 ≤ s.shared.clock
  spaced : Spaced times

theorem Spaced.concat {times : List Time} (h : Spaced times) {t : Time}
    (late : 5 ≤ times.length → ∀ last, times.getLast? = some last → last + minutes 15 ≤ t) :
    Spaced (times ++ [t]) := by
  intro past a b rest eq long
  rcases List.eq_nil_or_concat' rest with rfl | ⟨rest', x, rfl⟩
  · have shape : times ++ [t] = (past ++ [a]) ++ [b] := by rw [eq, List.append_assoc]; rfl
    obtain ⟨rfl, last⟩ := List.append_inj' shape rfl
    cases last
    refine late ?_ a List.getLast?_concat
    rw [List.length_append, List.length_singleton]
    omega
  · have shape : times ++ [t] = (past ++ a :: b :: rest') ++ [x] := by
      rw [eq, List.append_assoc]
      rfl
    obtain ⟨same, -⟩ := List.append_inj' shape rfl
    exact h past a b rest' same long

/-- The row of the table after these failures. -/
def lockoutRow (account : Uuid) (times : List Time) : Option TotpLockout :=
  times.getLast?.map fun last =>
    { account, failedCount := times.length
      lockedUntil := if 5 ≤ times.length then some (last + minutes 15) else none }

/-- How far a check has come. -/
inductive CheckPhase where
  | start
  | deciding (until_ : Time)
  | passed
  | known
  | failing
  | succeeding
  | ended

/-- The phases between the look at the lock and the update of the row. -/
def CheckPhase.engaged : CheckPhase → Bool
  | .start | .ended => false
  | _ => true

/-- The phases in which the lock was found open. -/
def CheckPhase.beyond : CheckPhase → Bool
  | .passed | .known | .failing | .succeeding => true
  | _ => false

theorem CheckPhase.ne_deciding {a : CheckPhase} (past : a.beyond = true) (u : Time) :
    a ≠ .deciding u := by
  intro eq
  subst eq
  cases past

/-- What one statement of a check can be, phase by phase. -/
inductive CheckStep (account : Uuid) :
    CheckPhase → (q : Stmt) → Except SqlError q.Result → CheckPhase → Prop
  | free : CheckStep account .start (.lockedUntil account) (.ok none) .passed
  | read (u : Time) : CheckStep account .start (.lockedUntil account) (.ok (some u)) (.deciding u)
  | readFailed (e : SqlError) : CheckStep account .start (.lockedUntil account) (.error e) .ended
  | lapsed (u now : Time) (open_ : ¬ now < u) :
      CheckStep account (.deciding u) .now (.ok now) .passed
  | locked (u : Time) (res : Except SqlError Time) : CheckStep account (.deciding u) .now res .ended
  | secret (enc : Option Bytes) :
      CheckStep account .passed (.totpSecretEnc account) (.ok enc) .known
  | secretFailed (res : Except SqlError (Option Bytes)) :
      CheckStep account .passed (.totpSecretEnc account) res .ended
  | wrong (res : Except SqlError Time) : CheckStep account .known .now res .failing
  | right (res : Except SqlError Time) : CheckStep account .known .now res .succeeding
  | timeFailed (res : Except SqlError Time) : CheckStep account .known .now res .ended
  | bump (res : Except SqlError Unit) :
      CheckStep account .failing (.bumpLockout account) res .ended
  | clear (res : Except SqlError Unit) :
      CheckStep account .succeeding (.clearLockout account) res .ended
  | monitors (q : Stmt) (res : Except SqlError q.Result) (monitor : q.isMonitor = true) :
      CheckStep account .ended q res .ended

/-- A check answers when it has ended. -/
def CheckPhase.final {α : Type} (a : CheckPhase) (_ : Except ApiError α) : Prop := a = .ended

theorem ended_follows {α : Type} {account : Uuid} {h : Handler α} {post : α → Prop}
    (within : h.Within (fun q => q.isMonitor = true) post) :
    h.Follows (CheckStep account) CheckPhase.final .ended :=
  within.follows (fun q res monitor => .monitors q res monitor) (fun _ _ => rfl) fun _ => rfl

/-- The part of a check after the lock was found open. -/
theorem compare_follows (env : Env) (account : Uuid) (ip code : String) :
    (do let enc ← sql (.totpSecretEnc account)
        let enc ← okOr enc (.badRequest "totp not enrolled")
        let secret ← okOr (openSecret env enc) .internal
        let now ← nowSecs
        if totpVerifyCode env secret code now then sql (.clearLockout account)
        else do
          sql (.bumpLockout account)
          record env (some account) .totpFail ip none
          maybeAutoban env ip
          throw .unauthorized : Handler Unit).Follows (CheckStep account) CheckPhase.final
      .passed := by
  have counted : (do
      record env (some account) .totpFail ip none
      maybeAutoban env ip
      throw .unauthorized : Handler Unit).Within (fun q => q.isMonitor = true) fun _ => True := by
    simp only [record, within_bind, within_sqlIgnore]
    exact ⟨rfl, (maybeAutoban_within env ip).mono (fun _ h => h)
      fun _ _ => (within_throw _).mpr trivial⟩
  simp only [follows_bind, follows_sql]
  refine ⟨fun enc => ?_, fun e => ⟨_, .secretFailed _, rfl⟩⟩
  cases enc with
  | none => exact ⟨.ended, .secretFailed _, rfl⟩
  | some enc =>
      cases secret : openSecret env enc with
      | none =>
          refine ⟨.ended, .secretFailed _, ?_⟩
          simp only [follows_andThen_ok, follows_bind, follows_okOr, Option.some.injEq, secret,
            reduceCtorEq, false_implies, implies_true, true_and, and_true, forall_eq']
          exact fun _ => rfl
      | some key =>
          refine ⟨.known, .secret _, ?_⟩
          simp only [follows_andThen_ok, follows_bind, follows_okOr, Option.some.injEq, secret,
            reduceCtorEq, false_implies, and_true, forall_eq', nowSecs, follows_sql, follows_pure]
          refine ⟨fun now => ?_, fun e => ⟨_, .timeFailed _, rfl⟩⟩
          split
          · refine ⟨_, .right _, ?_⟩
            rw [follows_sql]
            exact ⟨fun _ => ⟨_, .clear _, rfl⟩, fun e => ⟨_, .clear _, rfl⟩⟩
          · refine ⟨_, .wrong _, ?_⟩
            rw [follows_bind, follows_sql]
            exact ⟨fun _ => ⟨_, .bump _, ended_follows counted⟩, fun e => ⟨_, .bump _, rfl⟩⟩

theorem checkTotpCode_checks (env : Env) (account : Uuid) (ip code : String) :
    (checkTotpCode env account ip code).Follows (CheckStep account) CheckPhase.final .start := by
  rw [checkTotpCode, follows_bind, enforceLockout, follows_bind, follows_sql]
  refine ⟨fun locked => ?_, fun e => ⟨_, .readFailed e, rfl⟩⟩
  cases locked with
  | none => exact ⟨_, .free, compare_follows env account ip code⟩
  | some u =>
      refine ⟨_, .read u, ?_⟩
      simp only [follows_andThen_ok, follows_bind, follows_sql]
      refine ⟨fun now => ?_, fun e => ⟨_, .locked u _, rfl⟩⟩
      split <;> rename_i closed
      · refine ⟨_, .locked u _, ?_⟩
        simp only [record, follows_bind, follows_sqlIgnore, follows_andThen_ok, follows_throw]
        exact fun res => ⟨_, .monitors _ res rfl, rfl⟩
      · exact ⟨_, .lapsed u now closed, compare_follows env account ip code⟩

theorem TotpCheck.handler_follows (env : Env) (account : Uuid) (c : TotpCheck) :
    (c.handler env account).Follows (CheckStep account) CheckPhase.final .start := by
  rw [TotpCheck.handler, follows_bind]
  refine (checkTotpCode_checks env account c.ip c.code).mono fun b r done => ?_
  cases r <;> exact done

theorem CheckStep.engaged_or {account : Uuid} {a b : CheckPhase} {q : Stmt}
    {res : Except SqlError q.Result} (step : CheckStep account a q res b)
    (inside : a.engaged = true) : q.checks account = true := by
  cases step <;> simp_all [CheckPhase.engaged, Stmt.checks]

/-- A check in one of the inner phases is engaged. -/
theorem engaged_of_phase {account : Uuid} {s : ServerPool ι} {i : ι} {a : CheckPhase}
    (follows : Handler.Follows (s.prog i) (CheckStep account) CheckPhase.final a)
    (inside : a.engaged = true) : Engaged account s i := by
  unfold Engaged
  cases next : s.prog i with
  | done r =>
      rw [next] at follows
      rw [show a = .ended from follows] at inside
      cases inside
  | stmt q k =>
      rw [next] at follows
      obtain ⟨b, step, -⟩ := follows (.error .constraint)
      exact step.engaged_or inside

/-- A check that is about to count a failure is in the phase before that. -/
theorem phase_of_failing {account : Uuid} {s : ServerPool ι} {i : ι} {a : CheckPhase}
    (follows : Handler.Follows (s.prog i) (CheckStep account) CheckPhase.final a)
    (failing : Failing account s i) : a = .failing := by
  unfold Failing at failing
  cases next : s.prog i with
  | done r =>
      rw [next] at failing
      cases failing
  | stmt q k =>
      rw [next] at failing follows
      obtain ⟨b, step, -⟩ := follows (.error .constraint)
      obtain rfl : q = .bumpLockout account := failing
      cases step with
      | bump => rfl
      | monitors _ _ monitor => cases monitor

/-- What holds between the statements of any number of checks, no two of which are engaged
at once. -/
structure LockoutInvariant (account : Uuid) (h : List (Event ι Stmt Db)) (ph : ι → CheckPhase)
    (db : Db) : Prop where
  /-- The row counts the failures, and is locked from the fifth on. -/
  row : db.totpLockouts.find? account = lockoutRow account (failures account h)
  spaced : Spaced (failures account h)
  /-- A check that has read the lock has read the current one. -/
  deciding : ∀ i u, ph i = .deciding u →
    (db.totpLockouts.find? account).bind TotpLockout.lockedUntil = some u
  /-- A check that is past the lock is past the current one. -/
  beyond : ∀ i, (ph i).beyond = true → ∀ u,
    (db.totpLockouts.find? account).bind TotpLockout.lockedUntil = some u → u ≤ db.clock
  /-- The account of a secret exists. -/
  exists_ : ∀ i, ph i = .known ∨ ph i = .failing → db.hasAccount account = true

theorem lockedUntil_lockoutRow {account : Uuid} {times : List Time} {last : Time}
    (long : 5 ≤ times.length) (final : times.getLast? = some last) :
    (lockoutRow account times).bind TotpLockout.lockedUntil = some (last + minutes 15) := by
  simp [lockoutRow, final, long]

/-- Counting one more failure. -/
theorem exec_bumpLockout (env : Env) {account : Uuid} {db : Db} {times : List Time}
    (row : db.totpLockouts.find? account = lockoutRow account times)
    (known : db.hasAccount account = true) :
    (Stmt.exec env (.bumpLockout account) db).2.totpLockouts.find? account =
      lockoutRow account (times ++ [db.clock]) := by
  simp only [Stmt.exec, known, if_true, Table.find?_insertOr, row]
  rcases List.eq_nil_or_concat' times with rfl | ⟨rest, t, rfl⟩
  · simp [lockoutRow]
  · simp [lockoutRow]

namespace LockoutInvariant

variable {account : Uuid} {h : List (Event ι Stmt Db)} {ph : ι → CheckPhase} {db : Db} {env : Env}
variable [DecidableEq ι]

/-- A statement that leaves the lockouts and the accounts alone. -/
theorem quiet (inv : LockoutInvariant account h ph db) {i : ι} {q : Stmt} {b : CheckPhase}
    (other : ∀ times now, countFailure account times q now = times)
    (lockouts : (Stmt.exec env q db).2.totpLockouts = db.totpLockouts)
    (accounts : (Stmt.exec env q db).2.accounts = db.accounts)
    (clock : (Stmt.exec env q db).2.clock = db.clock)
    (read : ∀ u, b = .deciding u →
      (db.totpLockouts.find? account).bind TotpLockout.lockedUntil = some u)
    (open_ : b.beyond = true → ∀ u,
      (db.totpLockouts.find? account).bind TotpLockout.lockedUntil = some u → u ≤ db.clock)
    (known : b = .known ∨ b = .failing → db.hasAccount account = true) :
    LockoutInvariant account (h ++ [⟨i, q, db⟩]) (Function.update ph i b)
      (Stmt.exec env q db).2 := by
  have same : failures account (h ++ [(⟨i, q, db⟩ : Event ι Stmt Db)]) = failures account h := by
    rw [failures_append, other]
  have account_ : (Stmt.exec env q db).2.hasAccount account = db.hasAccount account := by
    rw [Db.hasAccount, accounts, Db.hasAccount]
  constructor
  · rw [same, lockouts, inv.row]
  · rw [same]
    exact inv.spaced
  · intro j u phase
    rw [lockouts]
    by_cases here : j = i
    · subst here
      rw [Function.update_self] at phase
      exact read u phase
    · rw [Function.update_of_ne here] at phase
      exact inv.deciding j u phase
  · intro j phase u
    rw [lockouts, clock]
    by_cases here : j = i
    · subst here
      rw [Function.update_self] at phase
      exact open_ phase u
    · rw [Function.update_of_ne here] at phase
      exact inv.beyond j phase u
  · intro j phase
    rw [account_]
    by_cases here : j = i
    · subst here
      rw [Function.update_self] at phase
      exact known phase
    · rw [Function.update_of_ne here] at phase
      exact inv.exists_ j phase

/-- A statement after which the check is past the lock. -/
theorem quiet_beyond (inv : LockoutInvariant account h ph db) {i : ι} {q : Stmt} {b : CheckPhase}
    (other : ∀ times now, countFailure account times q now = times)
    (lockouts : (Stmt.exec env q db).2.totpLockouts = db.totpLockouts)
    (accounts : (Stmt.exec env q db).2.accounts = db.accounts)
    (clock : (Stmt.exec env q db).2.clock = db.clock) (past : b.beyond = true)
    (open_ : ∀ u, (db.totpLockouts.find? account).bind TotpLockout.lockedUntil = some u →
      u ≤ db.clock)
    (known : b = .known ∨ b = .failing → db.hasAccount account = true) :
    LockoutInvariant account (h ++ [⟨i, q, db⟩]) (Function.update ph i b)
      (Stmt.exec env q db).2 := by
  refine inv.quiet other lockouts accounts clock ?_ (fun _ => open_) known
  intro u eq
  exact absurd eq (CheckPhase.ne_deciding past u)

/-- A statement that ends a check, or comes after its end. -/
theorem quiet_ended (inv : LockoutInvariant account h ph db) {i : ι} {q : Stmt}
    (other : ∀ times now, countFailure account times q now = times)
    (lockouts : (Stmt.exec env q db).2.totpLockouts = db.totpLockouts)
    (accounts : (Stmt.exec env q db).2.accounts = db.accounts)
    (clock : (Stmt.exec env q db).2.clock = db.clock) :
    LockoutInvariant account (h ++ [⟨i, q, db⟩]) (Function.update ph i .ended)
      (Stmt.exec env q db).2 := by
  refine inv.quiet other lockouts accounts clock ?_ ?_ ?_
  · intro u eq
    cases eq
  · intro past
    cases past
  · intro inside
    rcases inside with eq | eq <;> cases eq

/-- The update of the row by the only engaged check. -/
theorem settle {i : ι} {q : Stmt} (alone : ∀ j, (ph j).engaged = true → j = i)
    (row : (Stmt.exec env q db).2.totpLockouts.find? account =
      lockoutRow account (failures account (h ++ [(⟨i, q, db⟩ : Event ι Stmt Db)])))
    (spaced : Spaced (failures account (h ++ [(⟨i, q, db⟩ : Event ι Stmt Db)]))) :
    LockoutInvariant account (h ++ [⟨i, q, db⟩]) (Function.update ph i .ended)
      (Stmt.exec env q db).2 := by
  have outside : ∀ j, (Function.update ph i CheckPhase.ended j).engaged = false := by
    intro j
    by_cases here : j = i
    · subst here
      rw [Function.update_self]
      rfl
    · rw [Function.update_of_ne here]
      exact Bool.eq_false_iff.mpr fun inside => here (alone j inside)
  refine ⟨row, spaced, fun j u phase => ?_, fun j phase => ?_, fun j phase => ?_⟩
  · have := outside j
    rw [phase] at this
    cases this
  · have := outside j
    cases eq : Function.update ph i CheckPhase.ended j <;> rw [eq] at this phase <;>
      first | cases phase; done | cases this
  · have := outside j
    rcases phase with eq | eq <;> rw [eq] at this <;> cases this

/-- One statement of one check. -/
theorem step (inv : LockoutInvariant account h ph db) {i : ι} {q : Stmt} {b : CheckPhase}
    (alone : ∀ j k, (ph j).engaged = true → (ph k).engaged = true → j = k)
    (step : CheckStep account (ph i) q (Stmt.exec env q db).1 b) :
    LockoutInvariant account (h ++ [⟨i, q, db⟩]) (Function.update ph i b)
      (Stmt.exec env q db).2 := by
  generalize phase : ph i = a at step
  generalize result : (Stmt.exec env q db).1 = res at step
  have beyond : a.beyond = true → ∀ u,
      (db.totpLockouts.find? account).bind TotpLockout.lockedUntil = some u → u ≤ db.clock :=
    fun past => inv.beyond i (phase ▸ past)
  cases step with
  | free =>
      have none_ := Except.ok.inj result
      refine inv.quiet_beyond (fun _ _ => rfl) rfl rfl rfl rfl (fun u locked => ?_) (by simp)
      rw [none_] at locked
      cases locked
  | read u =>
      refine inv.quiet (fun _ _ => rfl) rfl rfl rfl ?_ ?_ (by simp)
      · intro u' eq
        cases eq
        exact Except.ok.inj result
      · intro past
        cases past
  | readFailed e => cases result
  | lapsed u now open_ =>
      have time : db.clock = now := Except.ok.inj result
      refine inv.quiet_beyond (fun _ _ => rfl) rfl rfl rfl rfl (fun u' locked => ?_) (by simp)
      rw [inv.deciding i u phase] at locked
      cases locked
      rw [time]
      exact not_lt.mp open_
  | locked u res => exact inv.quiet_ended (fun _ _ => rfl) rfl rfl rfl
  | secret enc =>
      have found : db.hasAccount account = true := by
        simp only [Stmt.exec] at result
        unfold Db.hasAccount
        cases row : db.accounts.find? account with
        | none =>
            rw [row] at result
            cases result
        | some a => rfl
      refine inv.quiet_beyond (fun _ _ => rfl) ?_ ?_ ?_ rfl (beyond rfl) fun _ => found
      all_goals rw [Stmt.exec_readOnly rfl]
  | secretFailed res =>
      refine inv.quiet_ended (fun _ _ => rfl) ?_ ?_ ?_
      all_goals rw [Stmt.exec_readOnly rfl]
  | wrong res =>
      exact inv.quiet_beyond (fun _ _ => rfl) rfl rfl rfl rfl (beyond rfl)
        fun _ => inv.exists_ i (.inl phase)
  | right res =>
      exact inv.quiet_beyond (fun _ _ => rfl) rfl rfl rfl rfl (beyond rfl) (by simp)
  | timeFailed res => exact inv.quiet_ended (fun _ _ => rfl) rfl rfl rfl
  | bump res =>
      have times : failures account (h ++ [(⟨i, .bumpLockout account, db⟩ : Event ι Stmt Db)]) =
          failures account h ++ [db.clock] := by
        rw [failures_append]
        exact if_pos rfl
      refine LockoutInvariant.settle (fun j inside => alone j i inside (by rw [phase]; rfl)) ?_ ?_
      · rw [times]
        exact exec_bumpLockout env inv.row (inv.exists_ i (.inr phase))
      · rw [times]
        refine inv.spaced.concat fun long last final => beyond rfl _ ?_
        rw [inv.row]
        exact lockedUntil_lockoutRow long final
  | clear res =>
      have times : failures account (h ++ [(⟨i, .clearLockout account, db⟩ : Event ι Stmt Db)]) =
          [] := by
        rw [failures_append]
        exact if_pos rfl
      refine LockoutInvariant.settle (fun j inside => alone j i inside (by rw [phase]; rfl)) ?_ ?_
      · rw [times]
        simp only [Stmt.exec, Table.find?_deleteWhere]
        refine Option.filter_eq_none_iff.mpr fun l found => ?_
        simp [show l.account = account from Table.key_of_find? found]
      · rw [times]
        intro past a b rest eq
        simp at eq
  | monitors q res monitor =>
      obtain ⟨_, _, _, _, same⟩ := Stmt.exec_isMonitor env monitor db
      refine inv.quiet_ended ?_ (by rw [same]) (by rw [same]) (by rw [same])
      cases q <;> first | exact fun _ _ => rfl | cases monitor

end LockoutInvariant

section Runs

variable [DecidableEq ι] (env : Env) (account : Uuid) (db : Db) (checks : ι → TotpCheck)
variable (ls : List (Label ι Nat))

/-- The checks of the pool. -/
def totpChecks : ι → Handler Response := fun i => (checks i).handler env account

/-- In every state along the schedule at most one check is engaged. -/
def OneAtATime : Prop :=
  ∀ past rest, ls = past ++ rest → ∀ i j,
    Engaged account (serve env db (totpChecks env account checks) past) i →
    Engaged account (serve env db (totpChecks env account checks) past) j → i = j

instance [Fintype ι] : Decidable (OneAtATime env account db checks ls) :=
  decidable_of_iff (∀ past ∈ ls.inits, ∀ i j,
      Engaged account (serve env db (totpChecks env account checks) past) i →
      Engaged account (serve env db (totpChecks env account checks) past) j → i = j) <| by
    constructor
    · intro all past rest cut
      exact all past ((List.mem_inits _ _).mpr ⟨rest, cut.symm⟩)
    · intro all past mem
      obtain ⟨rest, cut⟩ := (List.mem_inits _ _).mp mem
      exact all past rest cut.symm

end Runs

/-- On every schedule of any number of checks of one account that starts without counted
failures: if no two checks are engaged at once, the bound on guesses holds. -/
theorem checkTotpCode_bounded [DecidableEq ι] (env : Env) (account : Uuid) (db : Db)
    (checks : ι → TotpCheck) (ls : List (Label ι Nat))
    (clean : db.totpLockouts.find? account = none)
    (serial : OneAtATime env account db checks ls) :
    GuessesBounded account (failures account (history env db (totpChecks env account checks) ls))
      (serve env db (totpChecks env account checks) ls) := by
  obtain ⟨ph, follows, inv⟩ := Pool.phases_while (Stmt.exec env) tick
    (δ := fun _ => CheckStep account) (I := LockoutInvariant account)
    (G := fun s : ServerPool ι => ∀ i j, Engaged account s i → Engaged account s j → i = j)
    (fun h ph p i q b single progs step inv => inv.step (fun j k insideJ insideK =>
      single j k (engaged_of_phase (progs j) insideJ) (engaged_of_phase (progs k) insideK)) step)
    (fun h ph x n inv => ⟨inv.row, inv.spaced, inv.deciding,
      fun i past u locked => (inv.beyond i past u locked).trans (Int.le_add_of_nonneg_right (Int.natCast_nonneg n)),
      inv.exists_⟩)
    { shared := db, prog := totpChecks env account checks }
    (fun i => (checks i).handler_follows env account)
    ⟨clean, by intro past a b rest eq; simp [failures] at eq, nofun, nofun, by simp⟩ ls serial
  have single : ∀ i j, Failing account (serve env db (totpChecks env account checks) ls) i →
      Failing account (serve env db (totpChecks env account checks) ls) j → i = j := by
    intro i j hi hj
    refine serial ls [] (List.append_nil ls).symm i j (engaged_of_phase (follows i) ?_)
      (engaged_of_phase (follows j) ?_)
    · rw [phase_of_failing (follows i) hi]
      rfl
    · rw [phase_of_failing (follows j) hj]
      rfl
  constructor
  · intro short pending nodup failing
    have small : pending.length ≤ 1 := by
      match pending, nodup, failing with
      | [], _, _ => exact Nat.zero_le _
      | [_], _, _ => exact le_rfl
      | a :: b :: _, nodup, failing =>
          have same := single a b (failing a (by simp)) (failing b (by simp))
          simp [same] at nodup
    omega
  · exact fun _ => single
  · intro long i failing last final
    refine inv.beyond i (by rw [phase_of_failing (follows i) failing]; rfl) _ ?_
    rw [inv.row]
    exact lockedUntil_lockoutRow long final
  · exact inv.spaced

/-- Wrong codes from any number of clients. -/
def wrongCodes {n : Nat} : Fin n → TotpCheck := fun _ => ⟨"", "000000"⟩

/-- Five wrong codes, one after the other, a sixth that meets the lock, and a seventh when it is
over. -/
def orderlyGuesses : List (Label (Fin 7) Nat) :=
  (([0, 1, 2, 3, 4] : List (Fin 7)).flatMap fun i => List.replicate 5 i).map Label.thread ++
    (List.replicate 3 5 : List (Fin 7)).map Label.thread ++ [Label.env (seconds 901).toNat] ++
    (List.replicate 6 6 : List (Fin 7)).map Label.thread

theorem orderlyGuesses_bounded :
    (failures 10 (history factorEnv confirmedDb (totpChecks factorEnv 10 wrongCodes)
      orderlyGuesses)).length = 6 ∧
    GuessesBounded 10 (failures 10 (history factorEnv confirmedDb
        (totpChecks factorEnv 10 wrongCodes) orderlyGuesses))
      (serve factorEnv confirmedDb (totpChecks factorEnv 10 wrongCodes) orderlyGuesses) :=
  ⟨by decide +kernel, checkTotpCode_bounded factorEnv 10 confirmedDb wrongCodes orderlyGuesses
    (by decide) (by decide +kernel)⟩

/-- Six checks look at the lock and compare their codes before any of them counts. -/
def overlappingGuesses : List (Label (Fin 6) Nat) :=
  ((List.finRange 6).flatMap fun i => List.replicate 3 i).map Label.thread

/-- Six wrong codes have been compared, and the account is not locked. -/
theorem overlappingGuesses_not_bounded :
    ¬ GuessesBounded 10 (failures 10 (history factorEnv confirmedDb
        (totpChecks factorEnv 10 wrongCodes) overlappingGuesses))
      (serve factorEnv confirmedDb (totpChecks factorEnv 10 wrongCodes) overlappingGuesses) := by
  intro bounded
  have none_ : failures 10 (history factorEnv confirmedDb (totpChecks factorEnv 10 wrongCodes)
      overlappingGuesses) = [] := by decide +kernel
  have six : ∀ i : Fin 6, Failing 10 (serve factorEnv confirmedDb
      (totpChecks factorEnv 10 wrongCodes) overlappingGuesses) i := by decide +kernel
  have few := bounded.few (by rw [none_]; decide) (List.finRange 6) (List.nodup_finRange 6)
    fun i _ => six i
  rw [none_, List.length_finRange] at few
  exact absurd few (by decide)

end Sentinel.Api
