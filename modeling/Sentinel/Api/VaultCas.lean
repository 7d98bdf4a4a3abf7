import Sentinel.Api.Interleaving

/-!
# The vault register under concurrent writers

`vault_put` reads the stored version, compares it with `If-Match` in the process,
and then updates the row without repeating the comparison. Here any number of
requests of one account run interleaved, statement by statement.

`CompareAndSwap` is what a versioned register promises; `UpdatesMeetBase` is the
condition under which the two statements behave as one: each `UPDATE` that goes
through finds the version its request named. The two are equivalent on every
schedule, and the trigger does not help: it sees consecutive versions either way.
-/

namespace Sentinel.Api

open Atomic Handler Relational

/-- A `PUT /v1/vault`: the bearer's claims, up to the account, the header and the
decoded body. -/
structure PutRequest where
  token : AccessClaims
  ifMatch : Option String
  ciphertext : Option Bytes

namespace PutRequest

/-- The version the request was made against. -/
def base (r : PutRequest) : Option Int := ifMatchVersion r.ifMatch

def handler (account : Uuid) (r : PutRequest) : Handler Response :=
  vaultPut (some { r.token with sub := account }) r.ifMatch r.ciphertext

end PutRequest

/-- The version of the account's row. -/
def storedVersion (account : Uuid) (db : Db) : Option Int :=
  (db.vaults.find? account).map VaultRow.version

/-- The ciphertext of the account's row. -/
def storedCiphertext (account : Uuid) (db : Db) : Option Bytes :=
  (db.vaults.find? account).map VaultRow.ciphertext

/-- The `UPDATE` of `vault_put` is not refused: the device row its `updated_by`
refers to exists and the next version is a `bigint`. -/
def updateLands (account device : Uuid) (db : Db) : Prop :=
  db.hasDevice device = true ∧ ∀ v, storedVersion account db = some v → v < maxBigint

section Statements

variable (env : Env) (account device : Uuid) (ct : Bytes) (db : Db)

theorem exec_insertVault :
    ((Stmt.exec env (.insertVault account ct device) db).1 = .ok () ∧
      storedVersion account db = none ∧
      storedVersion account (Stmt.exec env (.insertVault account ct device) db).2 = some 1 ∧
      storedCiphertext account (Stmt.exec env (.insertVault account ct device) db).2 = some ct) ∨
    ((Stmt.exec env (.insertVault account ct device) db).1 = .error .constraint ∧
      (Stmt.exec env (.insertVault account ct device) db).2 = db) := by
  simp only [Stmt.exec]
  split
  · split <;> rename_i inserted
    · left
      have found := Table.find?_of_insert inserted account
      have fresh : db.vaults.find? account = none := by
        by_contra taken
        rw [Table.insert_eq_none_iff.mpr taken] at inserted
        cases inserted
      rw [if_pos rfl] at found
      simp [storedVersion, storedCiphertext, found, fresh]
    · exact .inr ⟨rfl, rfl⟩
  · exact .inr ⟨rfl, rfl⟩

theorem exec_updateVault :
    ((Stmt.exec env (.updateVault account ct device) db).1 = .ok () ∧
      updateLands account device db ∧
      storedVersion account (Stmt.exec env (.updateVault account ct device) db).2 =
        (storedVersion account db).map (· + 1) ∧
      storedCiphertext account (Stmt.exec env (.updateVault account ct device) db).2 =
        (storedVersion account db).map fun _ => ct) ∨
    ((Stmt.exec env (.updateVault account ct device) db).1 = .error .constraint ∧
      ¬ updateLands account device db ∧
      (Stmt.exec env (.updateVault account ct device) db).2 = db) := by
  have lands : (db.hasDevice device && (db.vaults.find? account).all fun v =>
      vaultVersionMonotonic v { v with
        version := v.version + 1, ciphertext := ct, updatedAt := db.clock
        updatedBy := some device } && decide (v.version + 1 ≤ maxBigint)) = true ↔
      updateLands account device db := by
    cases row : db.vaults.find? account <;>
      simp [updateLands, storedVersion, row, vaultVersionMonotonic]
  simp only [Stmt.exec]
  split <;> rename_i allowed
  · refine .inl ⟨rfl, lands.mp allowed, ?_, ?_⟩
    all_goals
      cases row : db.vaults.find? account with
      | none => simp [storedVersion, storedCiphertext, Table.find?_updateWhere, row]
      | some v =>
          have key : v.account = account := Table.key_of_find? row
          simp [storedVersion, storedCiphertext, Table.find?_updateWhere, row, key]
  · exact .inr ⟨rfl, fun h => allowed (lands.mpr h), rfl⟩

end Statements

/-- How far a request has come. -/
inductive PutPhase where
  | checking
  | compared (current : Option Int)
  | stored (version : Int)
  | failed

/-- What one statement of a `vault_put` can be, phase by phase. -/
inductive PutStep (account : Uuid) (r : PutRequest) :
    PutPhase → (q : Stmt) → Except SqlError q.Result → PutPhase → Prop
  | look (q : Stmt) (res : Except SqlError q.Result) (reads : q.readOnly = true) :
      PutStep account r .checking q res .checking
  | read (v : Option Int) :
      PutStep account r .checking (.vaultVersion account) (.ok v) (.compared v)
  | readFailed (e : SqlError) :
      PutStep account r .checking (.vaultVersion account) (.error e) .failed
  | insert (ct : Bytes) (body : r.ciphertext = some ct) (base : r.base = some 0) :
      PutStep account r (.compared none) (.insertVault account ct r.token.dev) (.ok ()) (.stored 1)
  | update (v : Int) (ct : Bytes) (body : r.ciphertext = some ct) (base : r.base = some v) :
      PutStep account r (.compared (some v)) (.updateVault account ct r.token.dev) (.ok ())
        (.stored (v + 1))
  | insertFailed (ct : Bytes) (e : SqlError) :
      PutStep account r (.compared none) (.insertVault account ct r.token.dev) (.error e) .failed
  | updateFailed (v : Int) (ct : Bytes) (e : SqlError) :
      PutStep account r (.compared (some v)) (.updateVault account ct r.token.dev) (.error e)
        .failed

/-- The answer given in a phase. -/
def PutPhase.answers : PutPhase → Except ApiError Response → Prop
  | .stored w, answer => answer = .ok (.version w)
  | _, answer => ∀ w, answer ≠ .ok (.version w)

theorem vaultStore_follows (account : Uuid) (r : PutRequest) {a : Auth} (sub : a.account = account)
    (dev : a.device = r.token.dev) {v : Int} (base : r.base = some v) {ct : Bytes}
    (body : r.ciphertext = some ct) :
    (vaultStore a v ct).Follows (PutStep account r) PutPhase.answers .checking := by
  subst sub
  rw [vaultStore, dev, follows_bind, follows_sql]
  refine ⟨fun current => ⟨_, .read current, ?_⟩, fun e => ⟨_, .readFailed e, by rintro _ ⟨⟩⟩⟩
  cases current with
  | none =>
      simp only [follows_andThen_ok, follows_bind, follows_ensure, decide_eq_true_eq,
        follows_andThen_error, follows_sql, follows_pure]
      refine ⟨?_, by rintro _ _ ⟨⟩⟩
      rintro rfl
      exact ⟨fun _ => ⟨_, .insert ct body base, rfl⟩,
        fun e => ⟨_, .insertFailed ct e, by rintro _ ⟨⟩⟩⟩
  | some u =>
      simp only [follows_andThen_ok, follows_bind, follows_ensure, decide_eq_true_eq,
        follows_andThen_error, follows_sql, follows_pure]
      refine ⟨?_, by rintro _ _ ⟨⟩⟩
      rintro rfl
      exact ⟨fun _ => ⟨_, .update v ct body base, rfl⟩,
        fun e => ⟨_, .updateFailed v ct e, by rintro _ ⟨⟩⟩⟩

theorem handler_follows (account : Uuid) (r : PutRequest) :
    (r.handler account).Follows (PutStep account r) PutPhase.answers .checking := by
  rw [PutRequest.handler, vaultPut, follows_bind]
  refine (verifyWithKind_within _ _).follows
    (fun q res check => .look q res (Stmt.readOnly_of_isTokenCheck check)) ?_ (by rintro _ _ ⟨⟩)
  rintro a ⟨claims, presented, -, rfl⟩
  cases presented
  simp only [follows_andThen_ok, vaultPutAs, requireApprovedDevice, follows_bind, follows_sql,
    follows_okOr, follows_ensure, follows_andThen_error]
  refine ⟨fun status => ⟨_, .look _ _ rfl, fun _ _ => ⟨fun _ => ⟨fun v base => ⟨fun ct body =>
    ⟨fun _ => ?_, ?_⟩, ?_⟩, ?_⟩, ?_⟩, ?_⟩, fun e => ⟨_, .look _ _ rfl, by rintro _ ⟨⟩⟩⟩
  · exact vaultStore_follows account r rfl rfl base body
  all_goals rintro _ _ ⟨⟩

variable {ι : Type}

/-- The statement makes the row reach the version. -/
def Reaches (env : Env) (account : Uuid) (e : Event ι Stmt Db) (w : Int) : Prop :=
  storedVersion account e.before ≠ some w ∧
    storedVersion account (Stmt.exec env e.q e.before).2 = some w

theorem Reaches.unique {env : Env} {account : Uuid} {e : Event ι Stmt Db} {w w' : Int}
    (h : Reaches env account e w) (h' : Reaches env account e w') : w = w' := by
  rw [Reaches, h.2] at h'
  exact Option.some.inj h'.2

/-- What holds between the statements of any number of `vault_put`s of one account. -/
structure PutInvariant (env : Env) (account : Uuid) (reqs : ι → PutRequest)
    (h : List (Event ι Stmt Db)) (ph : ι → PutPhase) (db : Db) : Prop where
  /-- A version that was read is not above the stored one. -/
  compared : ∀ i v, ph i = .compared (some v) → ∃ u, storedVersion account db = some u ∧ v ≤ u
  /-- A request that stored something moved the row. -/
  stored : ∀ i w, ph i = .stored w → ∃ e ∈ h, ∃ u, e.thread = i ∧ Reaches env account e u
  /-- A statement that moves the row is an `INSERT` on no row, or an `UPDATE`. -/
  moved : ∀ e ∈ h, ∀ u, Reaches env account e u → ∃ v, (reqs e.thread).base = some v ∧
    ph e.thread = .stored (v + 1) ∧
    storedCiphertext account (Stmt.exec env e.q e.before).2 = (reqs e.thread).ciphertext ∧
    (u = v + 1 ∨ ∃ ct, e.q = .updateVault account ct (reqs e.thread).token.dev ∧
      updateLands account (reqs e.thread).token.dev e.before ∧
      storedVersion account e.before = some (u - 1))
  bounded : ∀ e ∈ h, ∀ u, Reaches env account e u →
    ∃ current, storedVersion account db = some current ∧ u ≤ current
  /-- No version is reached twice, and no request moves the row twice. -/
  ordered : ∀ e ∈ h, ∀ e' ∈ h, ∀ u u', Reaches env account e u → Reaches env account e' u' →
    (u = u' ↔ e.thread = e'.thread)
  /-- An `UPDATE` that is not refused moves the row by one. -/
  lands : ∀ e ∈ h, ∀ ct d, e.q = .updateVault account ct d → updateLands account d e.before →
    ∃ u, storedVersion account e.before = some u ∧ Reaches env account e (u + 1)

namespace PutInvariant

variable {env : Env} {account : Uuid} {reqs : ι → PutRequest} {h : List (Event ι Stmt Db)}
variable {ph : ι → PutPhase} {db : Db}

/-- A phase that is not `stored` belongs to a request that has not moved the row. -/
theorem other_thread (inv : PutInvariant env account reqs h ph db) {i : ι}
    (running : ∀ w, ph i ≠ .stored w) {e : Event ι Stmt Db} (mem : e ∈ h) {u : Int}
    (reaches : Reaches env account e u) : e.thread ≠ i := by
  obtain ⟨v, -, phase, -⟩ := inv.moved e mem u reaches
  rintro rfl
  exact running _ phase

variable [DecidableEq ι]

/-- A statement that leaves the row alone. -/
theorem quiet (inv : PutInvariant env account reqs h ph db) {i : ι} {q : Stmt} {b : PutPhase}
    (running : ∀ w, ph i ≠ .stored w) (same : (Stmt.exec env q db).2.vaults = db.vaults)
    (next : ∀ w, b ≠ .stored w)
    (read : ∀ v, b = .compared (some v) → ∃ u, storedVersion account db = some u ∧ v ≤ u)
    (refused : ∀ ct d, q = .updateVault account ct d → ¬ updateLands account d db) :
    PutInvariant env account reqs (h ++ [⟨i, q, db⟩]) (Function.update ph i b)
      (Stmt.exec env q db).2 := by
  have version : storedVersion account (Stmt.exec env q db).2 = storedVersion account db := by
    rw [storedVersion, same, storedVersion]
  have still : ∀ u, ¬ Reaches env account (⟨i, q, db⟩ : Event ι Stmt Db) u := by
    rintro u ⟨before, after⟩
    exact before (version ▸ after)
  have old : ∀ e ∈ h ++ [(⟨i, q, db⟩ : Event ι Stmt Db)], ∀ u, Reaches env account e u →
      e ∈ h := by
    intro e mem u reaches
    rcases List.mem_append.mp mem with mem | mem
    · exact mem
    · rw [List.mem_singleton.mp mem] at reaches
      exact absurd reaches (still u)
  constructor
  · intro j v phase
    rw [version]
    by_cases same : j = i
    · subst same
      rw [Function.update_self] at phase
      exact read v phase
    · rw [Function.update_of_ne same] at phase
      exact inv.compared j v phase
  · intro j w phase
    by_cases same : j = i
    · subst same
      rw [Function.update_self] at phase
      exact absurd phase (next w)
    · rw [Function.update_of_ne same] at phase
      obtain ⟨e, mem, moved⟩ := inv.stored j w phase
      exact ⟨e, List.mem_append_left _ mem, moved⟩
  · intro e mem u reaches
    have mem := old e mem u reaches
    rw [Function.update_of_ne (inv.other_thread running mem reaches)]
    exact inv.moved e mem u reaches
  · intro e mem u reaches
    rw [version]
    exact inv.bounded e (old e mem u reaches) u reaches
  · intro e mem e' mem' u u' reaches reaches'
    exact inv.ordered e (old e mem u reaches) e' (old e' mem' u' reaches') u u' reaches reaches'
  · intro e mem ct d stmt lands
    rcases List.mem_append.mp mem with mem | mem
    · exact inv.lands e mem ct d stmt lands
    · rw [List.mem_singleton.mp mem] at stmt lands
      exact absurd lands (refused ct d stmt)

/-- A statement that moves the row to the next version. -/
theorem write (inv : PutInvariant env account reqs h ph db) {i : ι} {q : Stmt} {v w : Int}
    (running : ∀ w, ph i ≠ .stored w) (base : (reqs i).base = some v)
    (above : ∀ u, storedVersion account db = some u → u < w)
    (after : storedVersion account (Stmt.exec env q db).2 = some w)
    (body : storedCiphertext account (Stmt.exec env q db).2 = (reqs i).ciphertext)
    (kind : w = v + 1 ∨ ∃ ct, q = .updateVault account ct (reqs i).token.dev ∧
      updateLands account (reqs i).token.dev db ∧ storedVersion account db = some (w - 1))
    (updates : ∀ ct d, q = .updateVault account ct d → storedVersion account db = some (w - 1)) :
    PutInvariant env account reqs (h ++ [⟨i, q, db⟩]) (Function.update ph i (.stored (v + 1)))
      (Stmt.exec env q db).2 := by
  have reaches : Reaches env account (⟨i, q, db⟩ : Event ι Stmt Db) w :=
    ⟨fun already => lt_irrefl _ (above w already), after⟩
  have below : ∀ e ∈ h, ∀ u, Reaches env account e u → u < w := by
    intro e mem u moved
    obtain ⟨current, now, le⟩ := inv.bounded e mem u moved
    exact lt_of_le_of_lt le (above current now)
  constructor
  · intro j u phase
    by_cases same : j = i
    · subst same
      rw [Function.update_self] at phase
      cases phase
    · rw [Function.update_of_ne same] at phase
      obtain ⟨current, now, le⟩ := inv.compared j u phase
      exact ⟨w, after, le.trans (above current now).le⟩
  · intro j u phase
    by_cases same : j = i
    · subst same
      exact ⟨_, List.mem_append_right _ (List.mem_singleton_self _), w, rfl, reaches⟩
    · rw [Function.update_of_ne same] at phase
      obtain ⟨e, mem, moved⟩ := inv.stored j u phase
      exact ⟨e, List.mem_append_left _ mem, moved⟩
  · intro e mem u moved
    rcases List.mem_append.mp mem with mem | mem
    · rw [Function.update_of_ne (inv.other_thread running mem moved)]
      exact inv.moved e mem u moved
    · rw [List.mem_singleton.mp mem] at moved ⊢
      obtain rfl := moved.unique reaches
      exact ⟨v, base, Function.update_self .., body, kind⟩
  · intro e mem u moved
    refine ⟨w, after, ?_⟩
    rcases List.mem_append.mp mem with mem | mem
    · exact (below e mem u moved).le
    · rw [List.mem_singleton.mp mem] at moved
      exact (moved.unique reaches).le
  · intro e mem e' mem' u u' moved moved'
    rcases List.mem_append.mp mem with mem | mem <;>
      rcases List.mem_append.mp mem' with mem' | mem'
    · exact inv.ordered e mem e' mem' u u' moved moved'
    · rw [List.mem_singleton.mp mem'] at moved' ⊢
      obtain rfl := moved'.unique reaches
      exact iff_of_false (below e mem u moved).ne (inv.other_thread running mem moved)
    · rw [List.mem_singleton.mp mem] at moved ⊢
      obtain rfl := moved.unique reaches
      exact iff_of_false (below e' mem' u' moved').ne'
        (inv.other_thread running mem' moved').symm
    · rw [List.mem_singleton.mp mem] at moved ⊢
      rw [List.mem_singleton.mp mem'] at moved' ⊢
      exact iff_of_true (moved.unique moved') rfl
  · intro e mem ct d stmt lands
    rcases List.mem_append.mp mem with mem | mem
    · exact inv.lands e mem ct d stmt lands
    · rw [List.mem_singleton.mp mem] at stmt ⊢
      refine ⟨w - 1, updates ct d stmt, ?_⟩
      rw [Int.sub_add_cancel]
      exact reaches

/-- One statement of one request. -/
theorem step (inv : PutInvariant env account reqs h ph db) {i : ι} {q : Stmt} {b : PutPhase}
    (step : PutStep account (reqs i) (ph i) q (Stmt.exec env q db).1 b) :
    PutInvariant env account reqs (h ++ [⟨i, q, db⟩]) (Function.update ph i b)
      (Stmt.exec env q db).2 := by
  generalize phase : ph i = a at step
  generalize result : (Stmt.exec env q db).1 = res at step
  cases step with
  | look q res reads =>
      refine inv.quiet (by simp [phase]) (by rw [Stmt.exec_readOnly reads]) (by simp) (by simp) ?_
      rintro ct d rfl
      cases reads
  | read v =>
      refine inv.quiet (by simp [phase]) rfl (by simp) ?_ (by simp)
      rintro u eq
      cases eq
      exact ⟨u, Except.ok.inj result, le_rfl⟩
  | readFailed e => cases result
  | insert ct body base =>
      rcases exec_insertVault env account (reqs i).token.dev ct db with
        ⟨-, before, after, stored⟩ | ⟨failed, -⟩
      · exact inv.write (w := 1) (by simp [phase]) base (by simp [before]) after (stored.trans body.symm)
          (.inl rfl) nofun
      · rw [failed] at result
        cases result
  | update v ct body base =>
      obtain ⟨u, now, le⟩ := inv.compared i v phase
      rcases exec_updateVault env account (reqs i).token.dev ct db with
        ⟨-, lands, after, stored⟩ | ⟨failed, -⟩
      · rw [now] at after stored
        have previous : storedVersion account db = some (u + 1 - 1) := by
          rw [now, Int.add_sub_cancel]
        exact inv.write (w := u + 1) (by simp [phase]) base (by simp [now]) after
          (stored.trans body.symm) (.inr ⟨ct, rfl, lands, previous⟩) fun _ _ _ => previous
      · rw [failed] at result
        cases result
  | insertFailed ct e =>
      rcases exec_insertVault env account (reqs i).token.dev ct db with ⟨ok, -⟩ | ⟨-, unchanged⟩
      · rw [ok] at result
        cases result
      · exact inv.quiet (by simp [phase]) (by rw [unchanged]) (by simp) (by simp) (by simp)
  | updateFailed v ct e =>
      rcases exec_updateVault env account (reqs i).token.dev ct db with
        ⟨ok, -⟩ | ⟨-, refused, unchanged⟩
      · rw [ok] at result
        cases result
      · refine inv.quiet (by simp [phase]) (by rw [unchanged]) (by simp) (by simp) ?_
        rintro ct' d eq
        cases eq
        exact refused

end PutInvariant

section Runs

variable [DecidableEq ι] (env : Env) (account : Uuid) (db : Db) (reqs : ι → PutRequest)
variable (ls : List (Label ι Nat))

/-- The requests of the pool. -/
def puts : ι → Handler Response := fun i => (reqs i).handler account

/-- The promise of a versioned register, after a schedule: one success per base
version, and an answered version belongs to the request that stored it. -/
def CompareAndSwap : Prop :=
  (∀ i j v w w', (reqs i).base = some v → (reqs j).base = some v →
    Answered env db (puts account reqs) ls i (.ok (.version w)) →
    Answered env db (puts account reqs) ls j (.ok (.version w')) → i = j) ∧
  ∀ i w, Answered env db (puts account reqs) ls i (.ok (.version w)) →
    (∃ e ∈ history env db (puts account reqs) ls, Reaches env account e w ∧ e.thread = i ∧
      storedCiphertext account (Stmt.exec env e.q e.before).2 = (reqs i).ciphertext) ∧
    ∀ e ∈ history env db (puts account reqs) ls, Reaches env account e w → e.thread = i

/-- Every `UPDATE` that is not refused finds the version its request named. -/
def UpdatesMeetBase : Prop :=
  ∀ e ∈ history env db (puts account reqs) ls, ∀ ct d, e.q = .updateVault account ct d →
    updateLands account d e.before → storedVersion account e.before = (reqs e.thread).base

/-- The invariant holds after every schedule. -/
theorem puts_invariant : ∃ ph, (∀ i, Handler.Follows ((serve env db (puts account reqs) ls).prog i)
      (PutStep account (reqs i)) PutPhase.answers (ph i)) ∧
    PutInvariant env account reqs (history env db (puts account reqs) ls) ph
      (serve env db (puts account reqs) ls).shared :=
  serve_phases env db (puts account reqs)
    (fun _ _ _ _ _ _ step inv => inv.step step)
    (fun _ _ _ _ inv => ⟨inv.compared, inv.stored, inv.moved, inv.bounded, inv.ordered, inv.lands⟩)
    (fun i => handler_follows account (reqs i))
    ⟨by simp, by simp, by simp, by simp, by simp, by simp⟩ ls

variable {env account db reqs ls}

/-- Under the condition, the version a request reaches is the one it answers. -/
theorem UpdatesMeetBase.reaches (fresh : UpdatesMeetBase env account db reqs ls)
    {ph : ι → PutPhase} {x : Db}
    (inv : PutInvariant env account reqs (history env db (puts account reqs) ls) ph x)
    {i : ι} {w : Int} (phase : ph i = .stored w) :
    ∃ e ∈ history env db (puts account reqs) ls, Reaches env account e w ∧ e.thread = i ∧
      storedCiphertext account (Stmt.exec env e.q e.before).2 = (reqs i).ciphertext ∧
      (reqs i).base = some (w - 1) := by
  obtain ⟨e, mem, u, rfl, reaches⟩ := inv.stored i w phase
  obtain ⟨v, base, stored, body, kind⟩ := inv.moved e mem u reaches
  obtain rfl : w = v + 1 := PutPhase.stored.inj (phase.symm.trans stored)
  have reached : u = v + 1 := by
    rcases kind with direct | ⟨ct, stmt, lands, before⟩
    · exact direct
    · have met := fresh e mem ct _ stmt lands
      rw [before, base] at met
      have := Option.some.inj met
      omega
  subst reached
  exact ⟨e, mem, reaches, rfl, body, by rw [base, Int.add_sub_cancel]⟩

theorem compareAndSwap_of_updatesMeetBase (fresh : UpdatesMeetBase env account db reqs ls) :
    CompareAndSwap env account db reqs ls := by
  obtain ⟨ph, follows, inv⟩ := puts_invariant env account db reqs ls
  have phase : ∀ i w, Answered env db (puts account reqs) ls i (.ok (.version w)) →
      ph i = .stored w := by
    intro i w answered
    have fits := answered.final (follows i)
    cases h : ph i with
    | stored u =>
        rw [h] at fits
        cases fits
        rfl
    | checking | compared _ | failed =>
        rw [h] at fits
        exact absurd rfl (fits w)
  have owner : ∀ i w, ph i = .stored w → ∀ e ∈ history env db (puts account reqs) ls,
      Reaches env account e w → e.thread = i := by
    intro i w stored e mem reaches
    obtain ⟨e', mem', reaches', rfl, -⟩ := fresh.reaches inv stored
    exact (inv.ordered e mem e' mem' w w reaches reaches').mp rfl
  refine ⟨fun i j v w w' basei basej hi hj => ?_, fun i w answered => ?_⟩
  · obtain ⟨e, mem, reaches, rfl, -, base⟩ := fresh.reaches inv (phase i w hi)
    obtain ⟨-, -, -, -, -, base'⟩ := fresh.reaches inv (phase j w' hj)
    have same : w' = w := by
      rw [basei] at base
      rw [basej] at base'
      have := Option.some.inj base
      have := Option.some.inj base'
      omega
    subst same
    exact owner j _ (phase j _ hj) e mem reaches
  · obtain ⟨e, mem, reaches, thread, body, -⟩ := fresh.reaches inv (phase i w answered)
    exact ⟨⟨e, mem, reaches, thread, body⟩, owner i w (phase i w answered)⟩

theorem updatesMeetBase_of_compareAndSwap (cas : CompareAndSwap env account db reqs ls) :
    UpdatesMeetBase env account db reqs ls := by
  obtain ⟨ph, follows, inv⟩ := puts_invariant env account db reqs ls
  intro e mem ct d stmt lands
  obtain ⟨u, before, reaches⟩ := inv.lands e mem ct d stmt lands
  obtain ⟨v, base, phase, -⟩ := inv.moved e mem _ reaches
  -- the request has answered `v + 1`, so it must be the one that reached `v + 1`
  have answered : Answered env db (puts account reqs) ls e.thread (.ok (.version (v + 1))) := by
    have here := follows e.thread
    rw [phase] at here
    obtain ⟨answer, answered, fits⟩ := answered_of_stuck here (by rintro q e b ⟨⟩)
    exact fits ▸ answered
  obtain ⟨⟨e', mem', reaches', thread, -⟩, -⟩ := cas.2 e.thread (v + 1) answered
  have same := (inv.ordered e mem e' mem' _ _ reaches reaches').mpr thread.symm
  rw [before, base]
  exact congrArg some (by omega)

end Runs

/-- On every schedule of any number of `vault_put` requests of one account,
starting from any database: the compare-and-swap promise holds exactly when every
`UPDATE` that goes through finds the version its request named. -/
theorem vaultPut_compareAndSwap_iff [DecidableEq ι] (env : Env) (account : Uuid) (db : Db)
    (reqs : ι → PutRequest) (ls : List (Label ι Nat)) :
    CompareAndSwap env account db reqs ls ↔ UpdatesMeetBase env account db reqs ls :=
  ⟨updatesMeetBase_of_compareAndSwap, compareAndSwap_of_updatesMeetBase⟩

/-- Account 10 with two approved desktops, 11 and 12, and a stored vault at version 1. -/
def twoDesktops : Db where
  accounts := ownAccounts
  devices := ⟨[11, 12].map fun id =>
    { id, account := 10, name := "desktop", platform := .linux, status := .approved
      phonePubP256 := none, pushToken := none, approvedBy := none, createdAt := 0 }, by decide⟩
  vaults := ⟨[{ account := 10, version := 1, ciphertext := List.replicate 32 0, updatedAt := 0
                updatedBy := some 11 }], by decide⟩
  issued := [11, 12].map fun dev => { sub := 10, dev, iat := 0, exp := 600, tok := .access }
  supply := 20

/-- Each desktop writes its own ciphertext against version 1. -/
def rivalPuts : Bool → PutRequest
  | false => ⟨{ sub := 10, dev := 11, iat := 0, exp := 600, tok := .access }, some "1",
      some (List.replicate 32 1)⟩
  | true => ⟨{ sub := 10, dev := 12, iat := 0, exp := 600, tok := .access }, some "1",
      some (List.replicate 32 2)⟩

/-- Both requests read version 1 before either updates. -/
def rivalSchedule : List (Label Bool Nat) :=
  [false, false, false, false, true, true, true, true, false, true].map .thread

/-- Both requests carry `If-Match: 1` and both are answered with version 2; the
second `UPDATE` has overwritten what the first one stored. -/
theorem rivalPuts_not_compareAndSwap :
    ¬ CompareAndSwap Env.bare 10 twoDesktops rivalPuts rivalSchedule := by
  intro cas
  have first : Answered Env.bare twoDesktops (puts 10 rivalPuts) rivalSchedule false
      (.ok (.version 2)) := rfl
  have second : Answered Env.bare twoDesktops (puts 10 rivalPuts) rivalSchedule true
      (.ok (.version 2)) := rfl
  have same := cas.1 false true 1 2 2 (by decide) (by decide) first second
  cases same

end Sentinel.Api
