import Sentinel.Api.Routes

/-!
# Requests served concurrently

A server pool runs one handler per request on the shared database, statement by
statement, while the clock advances. `serve` is the pool after a schedule and
`history` the statements performed. The second half says once which statements the
shared pieces of the handlers can perform, so that an argument about one table can
pass over them.
-/

namespace Sentinel.Api

open Atomic Handler Relational

variable {ι : Type} [DecidableEq ι]

abbrev ServerPool (ι : Type) :=
  Pool ι Stmt (fun q => Except SqlError q.Result) (Except ApiError Response) Db

/-- The clock advances. -/
def tick (elapsed : Nat) (db : Db) : Db := { db with clock := db.clock + elapsed }

@[simp] theorem tick_vaults (n : Nat) (db : Db) : (tick n db).vaults = db.vaults := rfl

/-- A server without bootstrap token, proxy, auto-ban or updater, whose third-party
functions are never reached. -/
def Env.bare : Env where
  bootstrapToken := none
  trustForwardedFor := false
  autobanThreshold := 0
  autobanWindowSecs := 600
  autobanMinutes := 60
  updateFlagDir := false
  totpEncKey := []
  sha256 _ := []
  hmacSha1 _ _ := []
  aeadSeal _ _ _ _ := []
  aeadOpen _ _ _ _ := none
  googleVerify _ := none
  parseIp _ := none
  random _ _ := []
  urlSafe _ := ""

/-- Account 10, the only one. -/
def ownAccounts : Accounts where
  rows := [{ id := 10, googleSub := "sub", email := "me@example.com", totpSecretEnc := none
             totpConfirmedAt := none, createdAt := 0, isBootstrapOwner := false
             pwAuthSalt := none, pwAuthHash := none }]
  nodup := by decide

/-- Device 11 of account 10. -/
def ownDesktop : Devices where
  rows := [{ id := 11, account := 10, name := "desktop", platform := .linux, status := .approved
             phonePubP256 := none, pushToken := none, approvedBy := none, createdAt := 0 }]
  nodup := by decide

section Serve

variable (env : Env) (db : Db) (requests : ι → Handler Response)

/-- The pool after a schedule. -/
def serve (ls : List (Label ι Nat)) : ServerPool ι :=
  Pool.run (Stmt.exec env) tick { shared := db, prog := requests } ls

/-- The statements performed by a schedule, each with the database it started from. -/
def history (ls : List (Label ι Nat)) : List (Event ι Stmt Db) :=
  Pool.events (Stmt.exec env) tick
    { shared := db, prog := requests : ServerPool ι } ls

/-- The request has been answered. -/
def Answered (ls : List (Label ι Nat)) (i : ι) (answer : Except ApiError Response) : Prop :=
  (serve env db requests ls).prog i = .done answer

/-- `Pool.phases` for a server pool. -/
theorem serve_phases {φ : Type} {δ : ι → φ → (q : Stmt) → Except SqlError q.Result → φ → Prop}
    {final : ι → φ → Except ApiError Response → Prop}
    {I : List (Event ι Stmt Db) → (ι → φ) → Db → Prop} {start : ι → φ}
    (thread : ∀ h ph x i q b, δ i (ph i) q (Stmt.exec env q x).1 b → I h ph x →
      I (h ++ [⟨i, q, x⟩]) (Function.update ph i b) (Stmt.exec env q x).2)
    (clock : ∀ h ph x n, I h ph x → I h ph (tick n x))
    (programs : ∀ i, (requests i).Follows (δ i) (final i) (start i))
    (init : I [] start db) (ls : List (Label ι Nat)) :
    ∃ ph, (∀ i, Handler.Follows ((serve env db requests ls).prog i) (δ i) (final i) (ph i)) ∧
      I (history env db requests ls) ph (serve env db requests ls).shared :=
  Pool.phases (Stmt.exec env) tick thread clock
    { shared := db, prog := requests } programs init ls

/-- `Pool.within` for a server pool. -/
theorem serve_within {P : ι → Stmt → Prop} {post : ι → Response → Prop}
    {I : List (Event ι Stmt Db) → Db → Prop}
    (thread : ∀ h x i q, P i q → I h x → I (h ++ [⟨i, q, x⟩]) (Stmt.exec env q x).2)
    (clock : ∀ h x n, I h x → I h (tick n x))
    (programs : ∀ i, (requests i).Within (P i) (post i))
    (init : I [] db) (ls : List (Label ι Nat)) :
    I (history env db requests ls) (serve env db requests ls).shared :=
  Pool.within (Stmt.exec env) tick thread clock
    { shared := db, prog := requests } programs init ls

variable {env db requests}

/-- `Pool.since` for a server pool. -/
theorem history_since {ls : List (Label ι Nat)} {past rest : List (Event ι Stmt Db)}
    {e : Event ι Stmt Db} (cut : history env db requests ls = past ++ e :: rest) {J : Db → Prop}
    (clock : ∀ n x, J x → J (tick n x)) (start : J (Stmt.exec env e.q e.before).2)
    (kept : ∀ f ∈ rest, ∀ x, J x → J (Stmt.exec env f.q x).2) :
    (∀ f ∈ rest, J f.before) ∧ J (serve env db requests ls).shared :=
  Pool.since (Stmt.exec env) tick clock _ _ cut start kept

/-- An answer fits the phase its request is in. -/
theorem Answered.final {φ : Type} {δ : φ → (q : Stmt) → Except SqlError q.Result → φ → Prop}
    {final : φ → Except ApiError Response → Prop} {a : φ} {ls : List (Label ι Nat)} {i : ι}
    {answer : Except ApiError Response} (answered : Answered env db requests ls i answer)
    (follows : Handler.Follows ((serve env db requests ls).prog i) δ final a) :
    final a answer := by
  rw [show (serve env db requests ls).prog i = .done answer from answered] at follows
  exact follows

/-- A request in a phase the automaton cannot leave has been answered. -/
theorem answered_of_stuck {φ : Type} {δ : φ → (q : Stmt) → Except SqlError q.Result → φ → Prop}
    {final : φ → Except ApiError Response → Prop} {a : φ} {ls : List (Label ι Nat)} {i : ι}
    (follows : Handler.Follows ((serve env db requests ls).prog i) δ final a)
    (stuck : ∀ q e b, ¬ δ a q (.error e) b) :
    ∃ answer, Answered env db requests ls i answer ∧ final a answer := by
  unfold Answered
  cases next : (serve env db requests ls).prog i with
  | done answer =>
      rw [next] at follows
      exact ⟨answer, rfl, follows⟩
  | stmt q k =>
      rw [next] at follows
      obtain ⟨b, step, -⟩ := follows (.error .constraint)
      exact absurd step (stuck q _ b)

end Serve

namespace Stmt

/-- Statements that leave the database as it is. -/
def readOnly : Stmt → Bool
  | .now | .tokenIssued _ | .isBanned _ | .countFailures .. | .ownerSeen _ | .eventsSince ..
  | .eventCounts | .activeBans | .flaggedOwner | .accountEmail _ | .totpConfirmedAt _
  | .totpSecretEnc _ | .pwAuthRows | .lockedUntil _ | .deviceStatus _ | .devicesOf _
  | .deviceInAccount .. | .findRefresh _ | .vaultRow _ | .vaultVersion _ | .wrappedBlob ..
  | .unlockRow .. | .liveTransferBytes _ | .transfersFor .. | .transferRow .. => true
  | _ => false

theorem exec_readOnly {env : Env} {db : Db} {q : Stmt} (h : q.readOnly = true) :
    (exec env q db).2 = db := by
  cases q <;> simp only [readOnly, reduceCtorEq] at h <;> simp only [exec] <;> split <;> rfl

/-- No statement moves the clock. -/
@[simp] theorem exec_clock (env : Env) (q : Stmt) (db : Db) : (exec env q db).2.clock = db.clock := by
  cases q <;> first
    | rfl
    | (simp only [exec, Db.upsertAccount, Db.addAccount]
       split <;> first | rfl | (split <;> rfl))

/-- The statements of the token extractors. -/
def isTokenCheck : Stmt → Bool
  | .tokenIssued _ | .now => true
  | _ => false

theorem readOnly_of_isTokenCheck {q : Stmt} (h : q.isTokenCheck = true) : q.readOnly = true := by
  cases q <;> first | rfl | exact nomatch h

/-- The statements of the attack monitor and the rate limiter. -/
def isMonitor : Stmt → Bool
  | .limiterCheck .. | .isBanned _ | .record .. | .countFailures .. | .ownerSeen _
  | .autoban .. => true
  | _ => false

/-- The monitor writes its own tables only. -/
theorem exec_isMonitor (env : Env) {q : Stmt} (h : q.isMonitor = true) (db : Db) :
    ∃ limiter securityEvents bannedIps supply,
      (exec env q db).2 = { db with limiter, securityEvents, bannedIps, supply } := by
  cases q <;> first
    | cases h; done
    | exact ⟨_, _, _, _, rfl⟩
    | (simp only [exec]; split <;> exact ⟨_, _, _, _, rfl⟩)

end Stmt

/-- Rows agree in everything but the revocation, which is never taken back. -/
def RefreshToken.AtMostRevoked (row row' : RefreshToken) : Prop :=
  row'.id = row.id ∧ row'.account = row.account ∧ row'.device = row.device ∧
    row'.parent = row.parent ∧ (row.revokedAt ≠ none → row'.revokedAt ≠ none)

/-- The table has changed by revocations only. -/
structure Revokes (db db' : Db) : Prop where
  back : ∀ row' ∈ db'.refreshTokens.rows, ∃ row ∈ db.refreshTokens.rows, row.AtMostRevoked row'
  forth : ∀ row ∈ db.refreshTokens.rows, ∃ row' ∈ db'.refreshTokens.rows, row.AtMostRevoked row'

namespace Revokes

variable {db db' : Db}

theorem of_eq (same : db'.refreshTokens = db.refreshTokens) : Revokes db db' where
  back row mem := ⟨row, same ▸ mem, rfl, rfl, rfl, rfl, id⟩
  forth row mem := ⟨row, same.symm ▸ mem, rfl, rfl, rfl, rfl, id⟩

theorem of_updateWhere {p : RefreshToken → Bool} {at_ : Time}
    (update : db'.refreshTokens = db.refreshTokens.updateWhere p
      (fun t => { t with revokedAt := some at_ }) (fun _ => rfl)) : Revokes db db' := by
  have each : ∀ row : RefreshToken, row.AtMostRevoked
      (if p row then { row with revokedAt := some at_ } else row) := by
    intro row
    split
    · exact ⟨rfl, rfl, rfl, rfl, fun _ => nofun⟩
    · exact ⟨rfl, rfl, rfl, rfl, id⟩
  constructor
  · intro row' mem
    rw [update] at mem
    obtain ⟨row, rowMem, rfl⟩ := List.mem_map.mp mem
    exact ⟨row, rowMem, each row⟩
  · intro row mem
    refine ⟨_, ?_, each row⟩
    rw [update]
    exact List.mem_map_of_mem mem

end Revokes

/-- The statement that inserts into the token table. -/
def Stmt.insertsToken : Stmt → Bool
  | .insertRefresh .. => true
  | _ => false

/-- Only an insertion does more to the token table than revoke. -/
theorem Stmt.exec_revokes (env : Env) {q : Stmt} (h : q.insertsToken = false) (db : Db) :
    Revokes db (Stmt.exec env q db).2 := by
  cases q <;> first
    | exact .of_eq rfl
    | exact .of_updateWhere rfl
    | cases h; done
    | (refine .of_eq ?_
       simp only [Stmt.exec, Db.upsertAccount, Db.addAccount]
       split <;> first | rfl | (split <;> rfl))

theorem exec_insertRefresh (env : Env) (account device : Uuid) (hash : Bytes)
    (parent : Option Uuid) (expires : Time) (db : Db) :
    (∃ c : RefreshToken, c.parent = parent ∧ c.account = account ∧ c.device = device ∧
      (∀ row ∈ db.refreshTokens.rows, row.id ≠ c.id) ∧
      (Stmt.exec env (.insertRefresh account device hash parent expires) db).1 = .ok () ∧
      (Stmt.exec env (.insertRefresh account device hash parent expires) db).2.refreshTokens.rows =
        db.refreshTokens.rows ++ [c]) ∨
    ((Stmt.exec env (.insertRefresh account device hash parent expires) db).1 =
        .error .constraint ∧
      (Stmt.exec env (.insertRefresh account device hash parent expires) db).2 = db) := by
  simp only [Stmt.exec]
  split
  · split <;> rename_i inserted
    · refine .inl ⟨_, rfl, rfl, rfl, ?_, rfl, Table.rows_of_insert inserted⟩
      refine Table.find?_eq_none_iff.mp ?_
      by_contra taken
      rw [Table.insert_eq_none_iff.mpr taken] at inserted
      cases inserted
    · exact .inr ⟨rfl, rfl⟩
  · exact .inr ⟨rfl, rfl⟩

theorem verifyWithKind_within (bearer : Option AccessClaims) (kind : TokenKind) :
    (verifyWithKind bearer kind).Within (fun q => q.isTokenCheck = true) fun a =>
      ∃ claims, bearer = some claims ∧ claims.tok = kind ∧
        a = { account := claims.sub, device := claims.dev } := by
  simp only [verifyWithKind, nowSecs, within_bind, within_okOr, within_sql, within_ensure,
    within_pure, Stmt.isTokenCheck, true_and, decide_eq_true_eq]
  rintro claims rfl _ _ _ _ sameKind
  exact ⟨claims, rfl, sameKind, rfl⟩

theorem maybeAutoban_within (env : Env) (ip : String) :
    (maybeAutoban env ip).Within (fun q => q.isMonitor = true) fun _ => True := by
  unfold maybeAutoban
  split
  · exact (within_pure ()).mpr trivial
  split
  · exact (within_pure ()).mpr trivial
  simp only [within_bind, within_sqlOr, Stmt.isMonitor, true_and]
  intro fails
  split
  · exact (within_pure ()).mpr trivial
  simp only [within_bind, within_sqlOr, true_and]
  intro owner
  split
  · exact (within_pure ()).mpr trivial
  simp only [within_bind, within_sqlIgnore, record, true_and]

/-- The answer of the guard is the caller's address. -/
theorem guard_within (env : Env) (caller : Caller) (action : LimitAction) (max : Nat)
    (secs : Int) : (guard env caller action max secs).Within (fun q => q.isMonitor = true)
      fun ip => ip = clientIp env caller := by
  have banned : (isBanned env (clientIp env caller)).Within (fun q => q.isMonitor = true)
      fun _ => True := by
    unfold isBanned
    split
    · exact (within_pure _).mpr trivial
    · simp only [within_sqlOr, Stmt.isMonitor, true_and, implies_true]
  simp only [guard, within_bind]
  refine banned.mono (fun _ stmt => stmt) fun blocked _ => ?_
  split
  · simp only [within_bind, record, within_sqlIgnore, within_throw, Stmt.isMonitor, and_true]
  simp only [within_bind, within_sql, Stmt.isMonitor, true_and]
  intro allowed
  split
  · exact (within_pure _).mpr rfl
  simp only [within_bind, record, within_sqlIgnore, true_and]
  exact (maybeAutoban_within env _).mono (fun _ stmt => stmt) fun _ _ => (within_throw _).mpr trivial

/-- The statements of the long poll. -/
theorem pollUnlock_performs {P : Stmt → Prop} {account id : Uuid} (reads : P (.unlockRow id account))
    (clock : P .now) (expires : P (.expireUnlock id)) (rounds : Nat) (request : Option UnlockMeta) :
    (pollUnlock account id rounds request).Within P fun _ => True := by
  induction rounds generalizing request with
  | zero => exact (within_pure _).mpr trivial
  | succ rounds ih =>
      have again : ∀ (row : UnlockRequest) (state : UnlockState),
          (if state = .pending then pollUnlock account id rounds (some row.requestMeta)
            else pure (.unlock state (some row.requestMeta) row.responsePayload)).Within P
            fun _ => True := by
        intro row state
        split
        · exact ih _
        · exact (within_pure _).mpr trivial
      simp only [pollUnlock, within_bind, within_sql, within_okOr]
      refine ⟨reads, fun _ row _ => ?_⟩
      unfold settleExpiry
      split
      · simp only [within_bind, within_sql]
        refine ⟨clock, fun now => ?_⟩
        split
        · simp only [within_bind, within_sql, within_pure]
          exact ⟨expires, fun _ => again row _⟩
        · exact (within_pure _).mpr (again row _)
      · exact (within_pure _).mpr (again row _)

theorem pollUnlock_within (account id : Uuid) (rounds : Nat) (request : Option UnlockMeta) :
    (pollUnlock account id rounds request).Within
      (fun q => q.readOnly = true ∨ q = .expireUnlock id) fun _ => True :=
  pollUnlock_performs (.inl rfl) (.inl rfl) (.inr rfl) rounds request

end Sentinel.Api
