import Sentinel.Api.Requests

/-!
# The confirmed second factor

`totp_enroll` takes a pending token and stores a new secret; its comment says the
secret is stored before confirmation, but nothing looks at `totp_confirmed_at`.
`totp_verify` checks the code against whatever secret is stored.

Here every route of the server runs, interleaved statement by statement, against an
account whose factor is confirmed. `GuardedByFactor` says what the factor is for;
it holds in every run in which no enrollment writes to a confirmed account.
-/

namespace Sentinel.Api

open Atomic Handler Relational

/-- The sealed secret an account stores. -/
def storedSecret (account : Uuid) (db : Db) : Option Bytes :=
  (db.accounts.find? account).bind Account.totpSecretEnc

/-- When an account's factor was confirmed. -/
def confirmedAt (account : Uuid) (db : Db) : Option Time :=
  (db.accounts.find? account).bind Account.totpConfirmedAt

namespace Stmt

/-- Statements that write the account table. -/
def writesAccounts : Stmt → Bool
  | .rekeyBootstrap .. | .upsertAccount .. | .adoptOwner | .insertBootstrapAccount
  | .setTotpSecret .. | .confirmTotp _ | .setPwAuth .. => true
  | _ => false

theorem exec_accounts {env : Env} {q : Stmt} (h : q.writesAccounts = false) (db : Db) :
    (exec env q db).2.accounts = db.accounts := by
  cases q <;> first
    | rfl
    | cases h; done
    | (simp only [exec]; split <;> first | rfl | (split <;> rfl))

/-- Statements that approve the bearer's device or hand it a session. -/
def admits : Stmt → Bool
  | .approveByTotp _ | .insertRefresh .. => true
  | _ => false

end Stmt

section Accounts

variable {db : Db} {account : Uuid} {a : Account}

/-- The row is still there, with its secret, and confirmed if it was. -/
def KeepsFactor (a : Account) (found : Option Account) : Prop :=
  ∃ a', found = some a' ∧ a'.totpSecretEnc = a.totpSecretEnc ∧
    (a.totpConfirmedAt ≠ none → a'.totpConfirmedAt ≠ none)

theorem KeepsFactor.update (found : db.accounts.find? account = some a) {p : Account → Bool}
    {f : Account → Account} (keyed : ∀ r, (f r).id = r.id)
    (keeps : p a = true → (f a).totpSecretEnc = a.totpSecretEnc ∧
      (a.totpConfirmedAt ≠ none → (f a).totpConfirmedAt ≠ none)) :
    KeepsFactor a ((db.accounts.updateWhere p f keyed).find? account) := by
  rw [Table.find?_updateWhere, found]
  by_cases selected : p a = true
  · exact ⟨f a, by simp [selected], keeps selected⟩
  · exact ⟨a, by simp [selected], rfl, id⟩

theorem KeepsFactor.addAccount (found : db.accounts.find? account = some a) (sub email : String)
    (owner : Bool) : KeepsFactor a ((db.addAccount sub email owner).2.accounts.find? account) := by
  unfold Db.addAccount
  split <;> rename_i inserted
  · exact ⟨a, found, rfl, id⟩
  · have other : db.supply ≠ account := by
      rintro rfl
      rw [Table.insert_eq_none_iff.mpr (by simp [found])] at inserted
      cases inserted
    refine ⟨a, ?_, rfl, id⟩
    rw [Table.find?_of_insert inserted, if_neg other, found]

theorem KeepsFactor.upsertAccount (found : db.accounts.find? account = some a)
    (sub email : String) (owner : Bool) :
    KeepsFactor a ((db.upsertAccount sub email owner).2.accounts.find? account) := by
  unfold Db.upsertAccount
  split
  · exact .update found (by intro; rfl) fun _ => ⟨rfl, id⟩
  · exact .addAccount found sub email owner

/-- Only an enrollment of the account replaces its secret; nothing takes a
confirmation back. -/
theorem exec_keepsFactor (env : Env) (found : db.accounts.find? account = some a) {q : Stmt}
    (h : ∀ enc, q ≠ .setTotpSecret enc account) :
    KeepsFactor a ((Stmt.exec env q db).2.accounts.find? account) := by
  by_cases writes : q.writesAccounts = true
  · cases q with
    | rekeyBootstrap sub email =>
        simp only [Stmt.exec]
        split
        · split
          · exact ⟨a, found, rfl, id⟩
          · exact .update found (by intro; rfl) fun _ => ⟨rfl, id⟩
        · exact ⟨a, found, rfl, id⟩
    | upsertAccount sub email => exact .upsertAccount found sub email false
    | adoptOwner =>
        simp only [Stmt.exec]
        split
        · exact .update found (by intro; rfl) fun _ => ⟨rfl, id⟩
        · exact ⟨a, found, rfl, id⟩
    | insertBootstrapAccount => exact .upsertAccount found _ _ _
    | setTotpSecret enc other =>
        refine .update found (by intro; rfl) fun selected => ?_
        have key : a.id = account := Table.key_of_find? found
        rw [decide_eq_true_eq, key] at selected
        exact absurd (selected ▸ rfl) (h enc)
    | confirmTotp other => exact .update found (by intro; rfl) fun _ => ⟨rfl, by rintro _ ⟨⟩⟩
    | setPwAuth salt hash other => exact .update found (by intro; rfl) fun _ => ⟨rfl, id⟩
    | _ => cases writes
  · rw [Stmt.exec_accounts (Bool.not_eq_true _ ▸ writes)]
    exact ⟨a, found, rfl, id⟩

end Accounts

/-- How far a `totp_verify` has come. -/
inductive FactorPhase where
  | before
  | read (enc : Option Bytes)
  | timed (enc : Option Bytes) (now : Time)
  | passed

/-- What one statement of a request can be, phase by phase: a `totp_verify` admits
its device only after its code was valid for the secret it read. -/
inductive FactorStep (env : Env) (r : Request) :
    FactorPhase → (q : Stmt) → Except SqlError q.Result → FactorPhase → Prop
  | other {a : FactorPhase} (q : Stmt) (res : Except SqlError q.Result) (performs : r.Performs q)
      (quiet : ∀ caller bearer code, r = .totpVerify caller bearer code → q.admits = false) :
      FactorStep env r a q res a
  | read (caller : Caller) (c : AccessClaims) (code : String) (enc : Option Bytes)
      (verify : r = .totpVerify caller (some c) code) :
      FactorStep env r .before (.totpSecretEnc c.sub) (.ok enc) (.read enc)
  | time (enc : Option Bytes) (now : Time) :
      FactorStep env r (.read enc) .now (.ok now) (.timed enc now)
  | pass (caller : Caller) (c : AccessClaims) (code : String) (enc secret : Bytes) (now : Time)
      (verify : r = .totpVerify caller (some c) code) (opened : openSecret env enc = some secret)
      (valid : totpVerifyCode env secret code (unixTimestamp now) = true)
      (res : Except SqlError Unit) :
      FactorStep env r (.timed (some enc) now) (.clearLockout c.sub) res .passed
  | enter (q : Stmt) (res : Except SqlError q.Result) (performs : r.Performs q) :
      FactorStep env r .passed q res .passed

theorem Stmt.admits_of_readOnly {q : Stmt} (h : q.readOnly = true) : q.admits = false := by
  cases q <;> trivial

theorem Stmt.admits_of_isMonitor {q : Stmt} (h : q.isMonitor = true) : q.admits = false := by
  cases q <;> trivial

section Follows

variable {env : Env} {r : Request}

theorem FactorStep.reads {a : FactorPhase} (q : Stmt) (res : Except SqlError q.Result)
    (h : q.readOnly = true) : FactorStep env r a q res a :=
  .other q res (Request.performs_of_readOnly h) fun _ _ _ _ => Stmt.admits_of_readOnly h

theorem FactorStep.monitors {a : FactorPhase} (q : Stmt) (res : Except SqlError q.Result)
    (h : q.isMonitor = true) : FactorStep env r a q res a :=
  .other q res (Request.performs_of_isMonitor h) fun _ _ _ _ => Stmt.admits_of_isMonitor h

theorem checkTotpCode_follows {caller : Caller} {c : AccessClaims} {code : String}
    (verify : r = .totpVerify caller (some c) code) (ip : String)
    {final : FactorPhase → Except ApiError Unit → Prop} (ok : final .passed (.ok ()))
    (error : ∀ b e, final b (.error e)) :
    (checkTotpCode env c.sub ip code).Follows (FactorStep env r) final .before := by
  rw [checkTotpCode, follows_bind]
  refine (enforceLockout_within c.sub ip).follows
    (fun q res h => h.elim (FactorStep.reads q res) (FactorStep.monitors q res)) (fun _ _ => ?_)
    fun e => error _ e
  simp only [follows_andThen_ok, follows_bind, follows_sql, follows_okOr, nowSecs, follows_pure,
    follows_andThen_error]
  refine ⟨fun enc => ⟨_, .read caller c code enc verify, ?_⟩,
    fun e => ⟨_, .reads _ _ rfl, error _ _⟩⟩
  refine ⟨fun sealed stored => ⟨fun secret opened => ⟨fun now => ⟨_, .time enc now, ?_⟩,
    fun e => ⟨_, .reads _ _ rfl, error _ _⟩⟩, fun _ => error _ _⟩, fun _ => error _ _⟩
  subst stored
  split <;> rename_i valid
  · rw [follows_sql]
    exact ⟨fun _ => ⟨_, .pass caller c code sealed secret now verify opened valid _, ok⟩,
      fun e => ⟨_, .pass caller c code sealed secret now verify opened valid _, error _ _⟩⟩
  · have bump : ∀ res, FactorStep env r (.timed (some sealed) now) (.bumpLockout c.sub) res
        (.timed (some sealed) now) := fun res => .other _ res trivial fun _ _ _ _ => rfl
    simp only [follows_bind, follows_sql, record, follows_sqlIgnore, follows_andThen_ok,
      follows_andThen_error]
    refine ⟨fun _ => ⟨_, bump _, fun res => ⟨_, .monitors _ res rfl, ?_⟩⟩,
      fun e => ⟨_, bump _, error _ _⟩⟩
    exact (maybeAutoban_within env ip).follows (fun q res => FactorStep.monitors q res)
      (fun _ _ => error _ _) fun e => error _ e

theorem handle_followsFactor (env : Env) (r : Request) :
    (handle env r).Follows (FactorStep env r) (fun _ _ => True) .before := by
  by_cases verify : ∃ caller bearer code, r = .totpVerify caller bearer code
  · obtain ⟨caller, bearer, code, rfl⟩ := verify
    rw [handle, totpVerify, follows_bind]
    refine (verifyWithKind_within bearer .pending).follows
      (fun q res h => .reads q res (Stmt.readOnly_of_isTokenCheck h)) ?_ fun _ => trivial
    rintro a ⟨c, rfl, -, rfl⟩
    rw [follows_andThen_ok, follows_bind]
    refine (guard_within env caller (.totp c.sub) 10 60).follows
      (fun q res => FactorStep.monitors q res) ?_ fun _ => trivial
    rintro ip -
    rw [follows_andThen_ok, follows_bind]
    refine checkTotpCode_follows rfl ip ?_ fun _ _ => trivial
    exact (totpAdmission_within caller c code ip).follows (fun q res h => .enter q res h)
      (fun _ _ => trivial) fun _ => trivial
  · refine (handle_within env r).follows (fun q res performs => .other q res performs ?_)
      (fun _ _ => trivial) fun _ => trivial
    exact fun caller bearer code eq => absurd ⟨caller, bearer, code, eq⟩ verify

end Follows

variable {ι : Type}

/-- The sealed secret was confirmed: it is the one the run started with, or it was
stored when some `totp_verify` of the account succeeded. -/
def ConfirmedBefore (account : Uuid) (start : Db) (h : List (Event ι Stmt Db)) (enc : Bytes) :
    Prop :=
  storedSecret account start = some enc ∨
    ∃ e ∈ h, e.q = .confirmTotp account ∧ storedSecret account e.before = some enc

/-- The code was valid for the sealed secret when the request read the clock. -/
def CodeAccepted (env : Env) (h : List (Event ι Stmt Db)) (i : ι) (code : String) (enc : Bytes) :
    Prop :=
  ∃ secret, openSecret env enc = some secret ∧ ∃ e ∈ h, e.thread = i ∧ e.q = .now ∧
    totpVerifyCode env secret code (unixTimestamp e.before.clock) = true

/-- A `totp_verify` of the account that approves its device, or hands it tokens, was
given a code for a secret confirmed before the pending token was signed. -/
def GuardedByFactor (env : Env) (account : Uuid) (start : Db) (reqs : ι → Request)
    (h : List (Event ι Stmt Db)) : Prop :=
  ∀ past (issue : Event ι Stmt Db) rest, h = past ++ issue :: rest →
    ∀ e ∈ h, ∀ caller claims code,
    reqs e.thread = .totpVerify caller (some claims) code → claims.sub = account →
    issue.q = .issueToken claims → e.q.admits = true →
    ∃ enc, ConfirmedBefore account start past enc ∧ CodeAccepted env h e.thread code enc

/-- The statement stores a new secret for the account although its factor is
confirmed. -/
def enrollsConfirmed (account : Uuid) (e : Event ι Stmt Db) : Bool :=
  match e.q with
  | .setTotpSecret _ enrolled => decide (enrolled = account) && (confirmedAt account e.before).isSome
  | _ => false

/-- No enrollment writes to the account while its factor is confirmed. -/
def EnrollsUnconfirmed (account : Uuid) (h : List (Event ι Stmt Db)) : Prop :=
  ∀ e ∈ h, enrollsConfirmed account e = false

theorem CodeAccepted.mono {env : Env} {h h' : List (Event ι Stmt Db)} {i : ι} {code : String}
    {enc : Bytes} (accepted : CodeAccepted env h i code enc) (sub : h ⊆ h') :
    CodeAccepted env h' i code enc := by
  obtain ⟨secret, opened, e, mem, rest⟩ := accepted
  exact ⟨secret, opened, e, sub mem, rest⟩

/-- What holds between the statements of a run: the factor is as it was, and what the
`totp_verify`s of the account have read is that factor. -/
structure FactorInvariant (env : Env) (account : Uuid) (a : Account) (reqs : ι → Request)
    (h : List (Event ι Stmt Db)) (ph : ι → FactorPhase) (db : Db) : Prop where
  kept : KeepsFactor a (db.accounts.find? account)
  read : ∀ i caller claims code, reqs i = .totpVerify caller (some claims) code →
    claims.sub = account → ∀ enc, ph i = .read enc → enc = a.totpSecretEnc
  timed : ∀ i caller claims code, reqs i = .totpVerify caller (some claims) code →
    claims.sub = account → ∀ enc now, ph i = .timed enc now → enc = a.totpSecretEnc ∧
      ∃ e ∈ h, e.thread = i ∧ e.q = .now ∧ e.before.clock = now
  passed : ∀ i caller claims code, reqs i = .totpVerify caller (some claims) code →
    claims.sub = account → ph i = .passed →
    ∃ enc, a.totpSecretEnc = some enc ∧ CodeAccepted env h i code enc
  admitted : ∀ e ∈ h, ∀ caller claims code, reqs e.thread = .totpVerify caller (some claims) code →
    claims.sub = account → e.q.admits = true →
    ∃ enc, a.totpSecretEnc = some enc ∧ CodeAccepted env h e.thread code enc

namespace FactorInvariant

variable {env : Env} {account : Uuid} {a : Account} {reqs : ι → Request}
variable {h : List (Event ι Stmt Db)} {ph : ι → FactorPhase} {db : Db}

/-- A statement of a run that respects the condition, with what its request may
conclude from it in the next phase. -/
theorem advance [DecidableEq ι] (inv : FactorInvariant env account a reqs h ph db)
    {i : ι} {q : Stmt} {b : FactorPhase} (keeps : ∀ enc, q ≠ .setTotpSecret enc account)
    (next : ∀ caller claims code, reqs i = .totpVerify caller (some claims) code →
      claims.sub = account →
      (∀ enc, b = .read enc → enc = a.totpSecretEnc) ∧
      (∀ enc now, b = .timed enc now → enc = a.totpSecretEnc ∧
        ∃ e : Event ι Stmt Db, e ∈ h ++ [⟨i, q, db⟩] ∧
          e.thread = i ∧ e.q = .now ∧ e.before.clock = now) ∧
      (b = .passed ∨ q.admits = true →
        ∃ enc, a.totpSecretEnc = some enc ∧ CodeAccepted env h i code enc)) :
    FactorInvariant env account a reqs (h ++ [⟨i, q, db⟩]) (Function.update ph i b)
      (Stmt.exec env q db).2 := by
  have grows : h ⊆ h ++ [⟨i, q, db⟩] := List.subset_append_left _ _
  constructor
  · obtain ⟨a', found, secret, confirmed⟩ := inv.kept
    obtain ⟨a'', found', secret', confirmed'⟩ := exec_keepsFactor env found keeps
    exact ⟨a'', found', secret'.trans secret, fun h => confirmed' (confirmed h)⟩
  · intro j caller claims code verify sub enc phase
    by_cases same : j = i
    · subst same
      rw [Function.update_self] at phase
      exact (next caller claims code verify sub).1 enc phase
    · rw [Function.update_of_ne same] at phase
      exact inv.read j caller claims code verify sub enc phase
  · intro j caller claims code verify sub enc now phase
    by_cases same : j = i
    · subst same
      rw [Function.update_self] at phase
      exact (next caller claims code verify sub).2.1 enc now phase
    · rw [Function.update_of_ne same] at phase
      obtain ⟨stored, e, mem, rest⟩ := inv.timed j caller claims code verify sub enc now phase
      exact ⟨stored, e, grows mem, rest⟩
  · intro j caller claims code verify sub phase
    by_cases same : j = i
    · subst same
      rw [Function.update_self] at phase
      obtain ⟨enc, stored, accepted⟩ := (next caller claims code verify sub).2.2 (.inl phase)
      exact ⟨enc, stored, accepted.mono grows⟩
    · rw [Function.update_of_ne same] at phase
      obtain ⟨enc, stored, accepted⟩ := inv.passed j caller claims code verify sub phase
      exact ⟨enc, stored, accepted.mono grows⟩
  · intro e mem caller claims code verify sub admits
    rcases List.mem_append.mp mem with mem | mem
    · obtain ⟨enc, stored, accepted⟩ := inv.admitted e mem caller claims code verify sub admits
      exact ⟨enc, stored, accepted.mono grows⟩
    · rw [List.mem_singleton.mp mem] at verify admits ⊢
      obtain ⟨enc, stored, accepted⟩ := (next caller claims code verify sub).2.2 (.inr admits)
      exact ⟨enc, stored, accepted.mono grows⟩

/-- One statement of one request. -/
theorem step [DecidableEq ι] (inv : FactorInvariant env account a reqs h ph db) {i : ι} {q : Stmt}
    {b : FactorPhase} (step : FactorStep env (reqs i) (ph i) q (Stmt.exec env q db).1 b)
    (keeps : ∀ enc, q ≠ .setTotpSecret enc account) :
    FactorInvariant env account a reqs (h ++ [⟨i, q, db⟩]) (Function.update ph i b)
      (Stmt.exec env q db).2 := by
  have grows : h ⊆ h ++ [⟨i, q, db⟩] := List.subset_append_left _ _
  refine inv.advance keeps fun caller claims code verify sub => ?_
  generalize phase : ph i = p at step
  generalize result : (Stmt.exec env q db).1 = res at step
  cases step with
  | other q res performs quiet =>
      refine ⟨fun enc eq => ?_, fun enc now eq => ?_, fun done => ?_⟩
      · exact inv.read i caller claims code verify sub enc (phase.trans eq)
      · obtain ⟨stored, e, mem, rest⟩ :=
          inv.timed i caller claims code verify sub enc now (phase.trans eq)
        exact ⟨stored, e, grows mem, rest⟩
      · rcases done with eq | admits
        · exact inv.passed i caller claims code verify sub (phase.trans eq)
        · rw [quiet caller (some claims) code verify] at admits
          cases admits
  | read caller' c code' enc verify' =>
      refine ⟨fun enc' eq => ?_, by simp, by simp [Stmt.admits]⟩
      cases eq
      have same : claims = c := by
        rw [verify] at verify'
        cases verify'
        rfl
      obtain ⟨a', found, secret, -⟩ := inv.kept
      subst same sub
      simp only [Stmt.exec, found, Except.ok.injEq] at result
      rw [← result, secret]
  | time enc now =>
      refine ⟨by simp, fun enc' now' eq => ?_, by simp [Stmt.admits]⟩
      cases eq
      exact ⟨inv.read i caller claims code verify sub enc phase, _,
        List.mem_append_right _ (List.mem_singleton_self _), rfl, rfl, Except.ok.inj result⟩
  | pass caller' c code' enc secret now verify' opened valid res =>
      refine ⟨by simp, by simp, fun _ => ?_⟩
      rw [verify] at verify'
      cases verify'
      obtain ⟨stored, e, mem, thread, stmt, clock⟩ :=
        inv.timed i caller claims code verify sub (some enc) now phase
      exact ⟨enc, stored.symm, secret, opened, e, mem, thread, stmt, clock ▸ valid⟩
  | enter q res performs =>
      exact ⟨by simp, by simp, fun _ => inv.passed i caller claims code verify sub phase⟩

end FactorInvariant

section Runs

variable [DecidableEq ι] {env : Env} {db : Db} {account : Uuid} {a : Account}
variable {reqs : ι → Request} {ls : List (Label ι Nat)}

theorem routed_factorInvariant (found : db.accounts.find? account = some a)
    (confirmed : a.totpConfirmedAt ≠ none)
    (enrolls : EnrollsUnconfirmed account (history env db (routed env reqs) ls)) :
    ∃ ph, FactorInvariant env account a reqs (history env db (routed env reqs) ls) ph
      (serve env db (routed env reqs) ls).shared := by
  obtain ⟨ph, -, inv⟩ := serve_phases env db (routed env reqs)
    (I := fun h ph x => EnrollsUnconfirmed account h → FactorInvariant env account a reqs h ph x)
    (by
      intro h ph x i q b step inv enrolls
      obtain ⟨past, last⟩ := List.forall_mem_append.mp enrolls
      have now := inv past
      refine now.step step ?_
      rintro enc rfl
      -- the account is still confirmed, so an enrollment here would break the condition
      obtain ⟨a', found', -, still⟩ := now.kept
      have some_ := Option.isSome_iff_ne_none.mpr (still confirmed)
      simpa [enrollsConfirmed, confirmedAt, found', some_] using last _ (List.mem_singleton_self _))
    (fun h ph x n inv enrolls => ⟨(inv enrolls).kept, (inv enrolls).read, (inv enrolls).timed,
      (inv enrolls).passed, (inv enrolls).admitted⟩)
    (fun i => handle_followsFactor env (reqs i))
    (fun _ => ⟨⟨a, found, rfl, id⟩, by simp, by simp, by simp, by simp⟩) ls
  exact ⟨ph, inv enrolls⟩

/-- From an account with a confirmed factor, in every run of the server in which no
enrollment writes to the confirmed account: the factor guards the sign-in path, and
the confirmed secret stays. -/
theorem totpVerify_guardedByFactor (found : db.accounts.find? account = some a)
    (confirmed : a.totpConfirmedAt ≠ none)
    (enrolls : EnrollsUnconfirmed account (history env db (routed env reqs) ls)) :
    GuardedByFactor env account db reqs (history env db (routed env reqs) ls) ∧
      storedSecret account (serve env db (routed env reqs) ls).shared =
        storedSecret account db := by
  obtain ⟨ph, inv⟩ := routed_factorInvariant found confirmed enrolls
  constructor
  · intro past issue rest split e mem caller claims code verify sub issued admits
    obtain ⟨enc, stored, accepted⟩ := inv.admitted e mem caller claims code verify sub admits
    exact ⟨enc, .inl (by simp [storedSecret, found, stored]), accepted⟩
  · obtain ⟨a', found', secret, -⟩ := inv.kept
    simp [storedSecret, found, found', secret]

end Runs

/-- The identity fixture of the test verifier, and the values of the AEAD and the HMAC
at the two secrets below. -/
def factorEnv : Env :=
  { Env.bare with
    totpEncKey := List.replicate 32 7
    googleVerify := fun token =>
      if token = "fixture:sub:me@example.com" then some ⟨"sub", "me@example.com"⟩ else none
    random := fun draw n => List.replicate n (UInt8.ofNat draw)
    aeadSeal := fun _ _ nonce _ =>
      if nonce = List.replicate 24 2 then
        [219, 176, 1, 253, 137, 156, 54, 134, 71, 54, 100, 128, 48, 181, 22, 242, 71, 180, 26, 11,
          130, 12, 61, 206, 219, 171, 200, 251, 232, 36, 26, 161, 110, 254, 168, 28]
      else
        [45, 33, 100, 74, 20, 27, 122, 103, 197, 180, 172, 119, 13, 246, 95, 91, 63, 192, 39, 223,
          234, 192, 132, 132, 186, 253, 81, 219, 29, 187, 53, 8, 97, 250, 114, 20]
    aeadOpen := fun _ _ nonce _ =>
      if nonce = List.replicate 24 2 then some (List.replicate 20 1)
      else some (List.replicate 20 21)
    hmacSha1 := fun secret step =>
      if secret = List.replicate 20 1 then
        if step = toBeBytes 56666665 then
          [161, 107, 248, 37, 95, 213, 50, 68, 176, 176, 141, 83, 254, 40, 144, 220, 247, 18, 250,
            65]
        else if step = toBeBytes 56666666 then
          [107, 21, 182, 144, 124, 82, 197, 83, 184, 154, 53, 195, 139, 235, 176, 170, 204, 142,
            150, 170]
        else
          [98, 60, 152, 253, 20, 231, 75, 27, 229, 20, 120, 240, 115, 58, 45, 205, 116, 69,
            163, 34]
      else if step = toBeBytes 56666665 then
        [76, 65, 135, 213, 43, 158, 84, 176, 156, 219, 194, 0, 204, 169, 145, 221, 195, 169, 53,
          158]
      else
        [58, 173, 70, 78, 250, 153, 18, 145, 222, 29, 216, 59, 216, 176, 75, 220, 5, 187, 38, 83] }

/-- Account 10 with a confirmed second factor. -/
def confirmedAccount : Account where
  id := 10
  googleSub := "sub"
  email := "me@example.com"
  totpSecretEnc := some (List.replicate 24 2 ++
    factorEnv.aeadSeal factorEnv.totpEncKey totpAad (List.replicate 24 2) (List.replicate 20 1))
  totpConfirmedAt := some 0
  createdAt := 0
  isBootstrapOwner := false
  pwAuthSalt := none
  pwAuthHash := none

def confirmedDb : Db where
  accounts := ⟨[confirmedAccount], by decide⟩
  clock := seconds 1700000000
  supply := 20

/-- The pending token of the device that signs in below. -/
def pendingClaims : AccessClaims where
  sub := 10
  dev := 20
  iat := 1700000000
  exp := 1700000300
  tok := .pending

/-- A sign-in with the identity provider, an enrollment with its pending token, and a
verification with the given code. -/
def signInRequests (code : String) : Fin 3 → Request
  | 0 => .authGoogle ⟨none, none⟩
      ⟨"fixture:sub:me@example.com", { name := "laptop", platform := "linux" }⟩
  | 1 => .totpEnroll (some pendingClaims)
  | 2 => .totpVerify ⟨none, none⟩ (some pendingClaims) code

/-- The sign-in and the verification with the code of the confirmed secret. -/
def honestSignIn : List (Label (Fin 3) Nat) :=
  (List.replicate 7 0 ++ List.replicate 9 2 : List (Fin 3)).map .thread

theorem totpVerify_guardedByFactor_honest :
    confirmedDb.accounts.find? 10 = some confirmedAccount ∧
    EnrollsUnconfirmed 10 (history factorEnv confirmedDb
      (routed factorEnv (signInRequests "007787")) honestSignIn) ∧
    GuardedByFactor factorEnv 10 confirmedDb (signInRequests "007787") (history factorEnv confirmedDb
      (routed factorEnv (signInRequests "007787")) honestSignIn) :=
  have enrolls : EnrollsUnconfirmed 10 (history factorEnv confirmedDb
      (routed factorEnv (signInRequests "007787")) honestSignIn) := by
    unfold EnrollsUnconfirmed
    decide
  ⟨by decide, enrolls,
    (totpVerify_guardedByFactor (a := confirmedAccount) (by decide) (by decide) enrolls).1⟩

/-- The sign-in, then an enrollment that replaces the secret, then the verification
with a code of the new secret. -/
def hostileSignIn : List (Label (Fin 3) Nat) :=
  (List.replicate 7 0 ++ List.replicate 6 1 ++ List.replicate 9 2 : List (Fin 3)).map .thread

/-- A holder of nothing but a pending token replaces the confirmed secret and has
its device approved with a code of its own. -/
theorem hostileSignIn_not_guarded :
    ¬ GuardedByFactor factorEnv 10 confirmedDb (signInRequests "046034") (history factorEnv
        confirmedDb (routed factorEnv (signInRequests "046034")) hostileSignIn) ∧
      storedSecret 10 (serve factorEnv confirmedDb (routed factorEnv (signInRequests "046034"))
        hostileSignIn).shared ≠ storedSecret 10 confirmedDb := by
  constructor
  · intro guarded
    have length : 21 < (history factorEnv confirmedDb (routed factorEnv (signInRequests "046034"))
      hostileSignIn).length := by decide
    have cut := List.take_append_drop 6 (history factorEnv confirmedDb (routed factorEnv
      (signInRequests "046034")) hostileSignIn)
    rw [List.drop_eq_getElem_cons (Nat.lt_trans (by decide) length)] at cut
    obtain ⟨enc, confirmed, secret, opened, e, mem, -, -, valid⟩ := guarded _ _ _ cut.symm
      _ (List.get_mem _ ⟨21, length⟩) ⟨none, none⟩ pendingClaims "046034" rfl rfl rfl rfl
    have clock : ∀ e ∈ history factorEnv confirmedDb (routed factorEnv (signInRequests "046034"))
        hostileSignIn, e.before.clock = seconds 1700000000 := by decide
    have unconfirmed : ∀ e ∈ (history factorEnv confirmedDb (routed factorEnv
        (signInRequests "046034")) hostileSignIn).take 6, e.q ≠ .confirmTotp 10 := by decide
    rcases confirmed with start | ⟨e', mem', stmt, -⟩
    · obtain rfl : confirmedAccount.totpSecretEnc.getD [] = enc := by
        have stored : storedSecret 10 confirmedDb = confirmedAccount.totpSecretEnc := by decide
        rw [stored] at start
        rw [start, Option.getD_some]
      have real : openSecret factorEnv (confirmedAccount.totpSecretEnc.getD []) =
        some (List.replicate 20 1) := by decide
      rw [real] at opened
      cases opened
      rw [clock e mem] at valid
      exact absurd valid (by decide)
    · exact unconfirmed e' mem' stmt
  · decide

end Sentinel.Api
