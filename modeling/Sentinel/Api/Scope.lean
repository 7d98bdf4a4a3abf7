import Sentinel.Api.Sessions

/-!
# Statements within the scope of one account

Two databases that agree on the rows of one account, on the attack monitor's tables
and on the process state answer the account's statements alike, and these leave the
other accounts' rows as they are. Every statement with an id from the client either
carries the account itself or runs after a statement that does; `ScopeStep` records
what a request has learnt in this way, and `isolated_run` puts the two facts
together for whole programs.

Two statements reach further. Foreign keys on a device named in a body are checked
against all devices, so the databases must also agree on which of these exist; and
the token sweep of `device_revoke` selects by device alone, so nothing is said about
the tokens of the device it names.
-/

namespace Sentinel.Api

open Atomic Handler Relational

/-- The caller's account, the first draw of the random source still to come, the
devices named in the request's body, and the device a `device_revoke` names. -/
structure Scope where
  account : Uuid
  base : Nat
  named : List Uuid
  swept : Option Uuid

/-- The databases agree on the rows of the account, on the attack monitor and on the
process state. -/
structure SameView (S : Scope) (s t : Db) : Prop where
  accounts : Table.SameRows (fun a => decide (a.id = S.account)) s.accounts t.accounts
  devices : Table.SameRows (fun d => decide (d.account = S.account)) s.devices t.devices
  wrappedKeys : Table.SameRows (fun w => decide (w.account = S.account)) s.wrappedKeys t.wrappedKeys
  vaults : Table.SameRows (fun v => decide (v.account = S.account)) s.vaults t.vaults
  refreshTokens :
    Table.SameRows (fun r => decide (r.account = S.account)) s.refreshTokens t.refreshTokens
  totpLockouts :
    Table.SameRows (fun l => decide (l.account = S.account)) s.totpLockouts t.totpLockouts
  unlockRequests :
    Table.SameRows (fun u => decide (u.account = S.account)) s.unlockRequests t.unlockRequests
  fileTransfers :
    Table.SameRows (fun f => decide (f.account = S.account)) s.fileTransfers t.fileTransfers
  enrollCodes :
    Table.SameRows (fun c => decide (c.account = S.account)) s.enrollCodes t.enrollCodes
  named : ∀ d ∈ S.named, s.hasDevice d = t.hasDevice d
  securityEvents : s.securityEvents = t.securityEvents
  bannedIps : s.bannedIps = t.bannedIps
  limiter : s.limiter = t.limiter
  issued : s.issued = t.issued
  updateRequested : s.updateRequested = t.updateRequested
  clock : s.clock = t.clock
  supply : s.supply = t.supply

/-- The rows of the other accounts are as they were; of the refresh tokens, those that
are not of the device named by a `device_revoke`. -/
structure OthersKept (S : Scope) (s s' : Db) : Prop where
  accounts : Table.SameRows (fun a => decide (a.id ≠ S.account)) s'.accounts s.accounts
  devices : Table.SameRows (fun d => decide (d.account ≠ S.account)) s'.devices s.devices
  wrappedKeys :
    Table.SameRows (fun w => decide (w.account ≠ S.account)) s'.wrappedKeys s.wrappedKeys
  vaults : Table.SameRows (fun v => decide (v.account ≠ S.account)) s'.vaults s.vaults
  refreshTokens : Table.SameRows
    (fun r => decide (r.account ≠ S.account ∧ some r.device ≠ S.swept)) s'.refreshTokens
    s.refreshTokens
  totpLockouts :
    Table.SameRows (fun l => decide (l.account ≠ S.account)) s'.totpLockouts s.totpLockouts
  unlockRequests :
    Table.SameRows (fun u => decide (u.account ≠ S.account)) s'.unlockRequests s.unlockRequests
  fileTransfers :
    Table.SameRows (fun f => decide (f.account ≠ S.account)) s'.fileTransfers s.fileTransfers
  enrollCodes :
    Table.SameRows (fun c => decide (c.account ≠ S.account)) s'.enrollCodes s.enrollCodes

theorem OthersKept.refl (S : Scope) (s : Db) : OthersKept S s s :=
  ⟨rfl, rfl, rfl, rfl, rfl, rfl, rfl, rfl, rfl⟩

theorem OthersKept.trans {S : Scope} {s s' s'' : Db} (first : OthersKept S s s')
    (second : OthersKept S s' s'') : OthersKept S s s'' where
  accounts := second.accounts.trans first.accounts
  devices := second.devices.trans first.devices
  wrappedKeys := second.wrappedKeys.trans first.wrappedKeys
  vaults := second.vaults.trans first.vaults
  refreshTokens := second.refreshTokens.trans first.refreshTokens
  totpLockouts := second.totpLockouts.trans first.totpLockouts
  unlockRequests := second.unlockRequests.trans first.unlockRequests
  fileTransfers := second.fileTransfers.trans first.fileTransfers
  enrollCodes := second.enrollCodes.trans first.enrollCodes

/-- What a request has learnt: a device is the account's, an id is not that of another
account's unlock request or transfer, bytes are drawn for it. -/
inductive Fact where
  | device (d : Uuid)
  | unlock (id : Uuid)
  | transfer (id : Uuid)
  | drawn (b : Bytes)

section Scope

variable (env : Env) (S : Scope)

def Fact.Holds (db : Db) : Fact → Prop
  | .device d => DeviceOf S.account d db
  | .unlock id => ∀ u ∈ db.unlockRequests.rows, u.account ≠ S.account → u.id ≠ id
  | .transfer id => ∀ f ∈ db.fileTransfers.rows, f.account ≠ S.account → f.id ≠ id
  | .drawn b => ∃ n, S.base ≤ n ∧ b = env.random n 32

/-- The digest of the token made of a draw. -/
def drawnDigest (n : Nat) : Bytes := hashRefresh env (env.urlSafe (env.random n 32))

/-- No row of another account has an id or a digest that is still to be drawn. -/
structure Fresh (db : Db) : Prop where
  tokens : ∀ r ∈ db.refreshTokens.rows, r.account ≠ S.account →
    ∀ n, S.base ≤ n → r.id ≠ n ∧ r.tokenHash ≠ drawnDigest env n
  codes : ∀ c ∈ db.enrollCodes.rows, c.account ≠ S.account →
    ∀ n, S.base ≤ n → c.id ≠ n ∧ c.codeHash ≠ drawnDigest env n
  unlocks : ∀ u ∈ db.unlockRequests.rows, u.account ≠ S.account → ∀ n, S.base ≤ n → u.id ≠ n
  transfers : ∀ f ∈ db.fileTransfers.rows, f.account ≠ S.account → ∀ n, S.base ≤ n → f.id ≠ n

/-- The digest a statement stores is that of bytes drawn for the request. -/
def OwnDigest (known : List Fact) (hash : Bytes) : Prop :=
  ∃ b, .drawn b ∈ known ∧ hash = hashRefresh env (env.urlSafe b)

/-- The statement names the account, or an object the request has learnt is its own. -/
def Scoped (known : List Fact) : Stmt → Prop
  | .now | .randomBytes _ | .limiterCheck .. | .issueToken _ | .tokenIssued _ | .writeUpdateFlag
  | .isBanned _ | .record .. | .countFailures .. | .ownerSeen _ | .autoban .. | .banFor ..
  | .banForever _ | .unban _ | .eventsSince .. | .eventCounts | .activeBans => True
  | .accountEmail a | .totpConfirmedAt a | .totpSecretEnc a | .setTotpSecret _ a | .confirmTotp a
  | .setPwAuth _ _ a | .lockedUntil a | .bumpLockout a | .clearLockout a | .devicesOf a
  | .revokeDevice _ a | .pinDevice _ _ a | .setPushToken _ _ a | .deviceInAccount _ a
  | .logoutDevice a _ | .vaultRow a | .vaultVersion a | .wrappedBlob a _ | .deleteWrapped a _
  | .unlockRow _ a | .respondUnlock _ _ _ a _ | .liveTransferBytes a | .expireTransfers a
  | .transfersFor a _ | .transferRow _ a | .deleteTransfer _ a _ => a = S.account
  | .deviceStatus d | .approveByTotp d => .device d ∈ known
  | .approveDevice d _ a | .insertVault a _ d | .updateVault a _ d =>
      a = S.account ∧ .device d ∈ known
  | .insertRefresh a d hash parent _ =>
      a = S.account ∧ .device d ∈ known ∧ parent = none ∧ OwnDigest env known hash
  | .revokeDeviceTokens d => S.swept = some d
  | .upsertWrapped a _ device _ => a = S.account ∧ ∀ d ∈ device, d ∈ S.named
  | .insertEnrollCode a hash => a = S.account ∧ OwnDigest env known hash
  | .insertUnlock a d phone _ _ => a = S.account ∧ .device d ∈ known ∧ phone ∈ S.named
  | .expireUnlock id => .unlock id ∈ known
  | .insertTransfer a d recipient _ _ _ _ _ =>
      a = S.account ∧ .device d ∈ known ∧ ∀ r ∈ recipient, .device r ∈ known
  | .expireTransfer id | .consumeTransfer id | .markDelivered id => .transfer id ∈ known
  | _ => False

end Scope

/-- The tables of a statement; `process` is the process state and the attack monitor's. -/
inductive StmtGroup where
  | process | account | device | token | vault | unlock | transfer

def Stmt.group : Stmt → StmtGroup
  | .now | .randomBytes _ | .limiterCheck .. | .issueToken _ | .tokenIssued _ | .writeUpdateFlag
  | .isBanned _ | .record .. | .countFailures .. | .ownerSeen _ | .autoban .. | .banFor ..
  | .banForever _ | .unban _ | .eventsSince .. | .eventCounts | .activeBans => .process
  | .rekeyBootstrap .. | .upsertAccount .. | .flaggedOwner | .adoptOwner | .insertBootstrapAccount
  | .accountEmail _ | .totpConfirmedAt _ | .totpSecretEnc _ | .setTotpSecret .. | .confirmTotp _
  | .pwAuthRows | .setPwAuth .. | .lockedUntil _ | .bumpLockout _ | .clearLockout _ => .account
  | .insertDevice .. | .deviceStatus _ | .approveByTotp _ | .devicesOf _ | .approveDevice ..
  | .revokeDevice .. | .pinDevice .. | .setPushToken .. | .deviceInAccount .. => .device
  | .insertRefresh .. | .findRefresh _ | .revokeChain .. | .revokeToken _ | .logoutDevice ..
  | .revokeDeviceTokens _ | .insertEnrollCode .. | .consumeEnrollCode _ => .token
  | .vaultRow _ | .vaultVersion _ | .insertVault .. | .updateVault .. | .wrappedBlob ..
  | .upsertWrapped .. | .deleteWrapped .. => .vault
  | .insertUnlock .. | .unlockRow .. | .expireUnlock _ | .respondUnlock .. => .unlock
  | .liveTransferBytes _ | .insertTransfer .. | .expireTransfers _ | .transfersFor ..
  | .transferRow .. | .expireTransfer _ | .consumeTransfer _ | .markDelivered _
  | .deleteTransfer .. => .transfer

theorem DeviceOf.account_of_mem {account d : Uuid} {db : Db} (h : DeviceOf account d db) {row : Device}
    (mem : row ∈ db.devices.rows) (id : row.id = d) : row.account = account := by
  obtain ⟨row', found, rfl⟩ := h
  have same := Table.find?_of_mem mem
  rw [id, found] at same
  cases same
  rfl

section Step

variable {env : Env} {S : Scope} {known : List Fact} {q : Stmt} {s t : Db}

/-! ## The rows of others -/

theorem exec_othersKept_process (group : q.group = .process) :
    OthersKept S s (Stmt.exec env q s).2 := by
  have refl := OthersKept.refl S s
  cases q with
  | _ => first
    | (cases group; done)
    | exact ⟨rfl, rfl, rfl, rfl, rfl, rfl, rfl, rfl, rfl⟩
    | (simp only [Stmt.exec]; split <;> exact ⟨rfl, rfl, rfl, rfl, rfl, rfl, rfl, rfl, rfl⟩)

theorem exec_othersKept_account (inScope : Scoped env S known q)
    (group : q.group = .account) : OthersKept S s (Stmt.exec env q s).2 := by
  have refl := OthersKept.refl S s
  cases q with
  | setTotpSecret _ a | confirmTotp a | setPwAuth _ _ a =>
      subst inScope
      exact { refl with
        accounts := .of_updateWhere _ (by intro; rfl) (by intro; rfl) (by intro r _ h; simpa using h) }
  | bumpLockout a =>
      subst inScope
      simp only [Stmt.exec]
      split
      · exact { refl with
          totpLockouts := .of_insertOr _ (by intro; rfl) (by intro; rfl) (by simp) (by intro x _ h; simpa using h) }
      · exact refl
  | clearLockout a =>
      subst inScope
      exact { refl with totpLockouts := .of_deleteWhere _ (by intro r _ h; simpa using h) }
  | _ => first
    | (cases inScope; done)
    | (cases group; done)
    | exact refl
    | (simp only [Stmt.exec]; split <;> exact refl)

theorem exec_othersKept_device (inScope : Scoped env S known q)
    (facts : ∀ f ∈ known, f.Holds env S s)
    (group : q.group = .device) : OthersKept S s (Stmt.exec env q s).2 := by
  have refl := OthersKept.refl S s
  cases q with
  | approveByTotp d =>
      have owned : DeviceOf S.account d s := facts _ inScope
      exact { refl with
        devices := .of_updateWhere _ (by intro; rfl) (by intro; rfl) (by
          intro r mem h
          simpa using owned.account_of_mem mem (of_decide_eq_true h)) }
  | approveDevice approver id a =>
      obtain ⟨rfl, -⟩ := inScope
      simp only [Stmt.exec]
      split
      · exact { refl with
          devices := .of_updateWhere _ (by intro; rfl) (by intro; rfl) (by intro r _ h; simp_all) }
      · exact refl
  | revokeDevice _ a | pinDevice _ _ a | setPushToken _ _ a =>
      subst inScope
      exact { refl with devices := .of_updateWhere _ (by intro; rfl) (by intro; rfl) (by intro r _ h; simp_all) }
  | _ => first
    | (cases inScope; done)
    | (cases group; done)
    | exact refl

theorem exec_othersKept_token (inScope : Scoped env S known q)
    (group : q.group = .token) : OthersKept S s (Stmt.exec env q s).2 := by
  have refl := OthersKept.refl S s
  cases q with
  | insertRefresh a d hash parent expires =>
      obtain ⟨rfl, -⟩ := inScope
      simp only [Stmt.exec]
      split
      · split <;> rename_i inserted
        · exact { refl with refreshTokens := .of_insert inserted (by simp) }
        · exact refl
      · exact refl
  | logoutDevice a d =>
      subst inScope
      exact { refl with
        refreshTokens := .of_updateWhere _ (by intro; rfl) (by intro; rfl) (by intro r _ h; simp_all) }
  | revokeDeviceTokens d =>
      exact { refl with
        refreshTokens := .of_updateWhere _ (by intro; rfl) (by intro; rfl) (by
          intro r _ h
          simp_all [show S.swept = some d from inScope]) }
  | insertEnrollCode a hash =>
      obtain ⟨rfl, -⟩ := inScope
      simp only [Stmt.exec]
      split
      · split <;> rename_i inserted
        · exact { refl with enrollCodes := .of_insert inserted (by simp) }
        · exact refl
      · exact refl
  | _ => first
    | (cases inScope; done)
    | cases group

theorem exec_othersKept_vault (inScope : Scoped env S known q)
    (group : q.group = .vault) : OthersKept S s (Stmt.exec env q s).2 := by
  have refl := OthersKept.refl S s
  cases q with
  | insertVault a ct d =>
      obtain ⟨rfl, -⟩ := inScope
      simp only [Stmt.exec]
      split
      · split <;> rename_i inserted
        · exact { refl with vaults := .of_insert inserted (by simp) }
        · exact refl
      · exact refl
  | updateVault a ct d =>
      obtain ⟨rfl, -⟩ := inScope
      simp only [Stmt.exec]
      split
      · exact { refl with vaults := .of_updateWhere _ (by intro; rfl) (by intro; rfl) (by intro r _ h; simp_all) }
      · exact refl
  | upsertWrapped a wt d blob =>
      obtain ⟨rfl, -⟩ := inScope
      simp only [Stmt.exec]
      split
      · exact { refl with
          wrappedKeys := .of_insertOr _ (by intro; rfl) (by intro; rfl) (by simp) (by intro x _ h; simp_all) }
      · exact refl
  | deleteWrapped a wt =>
      subst inScope
      exact { refl with wrappedKeys := .of_deleteWhere _ (by intro r _ h; simp_all) }
  | _ => first
    | (cases inScope; done)
    | (cases group; done)
    | exact refl

theorem exec_othersKept_unlock (inScope : Scoped env S known q)
    (facts : ∀ f ∈ known, f.Holds env S s)
    (group : q.group = .unlock) : OthersKept S s (Stmt.exec env q s).2 := by
  have refl := OthersKept.refl S s
  cases q with
  | insertUnlock a d phone kind payload =>
      obtain ⟨rfl, -⟩ := inScope
      simp only [Stmt.exec]
      split
      · split <;> rename_i inserted
        · exact { refl with unlockRequests := .of_insert inserted (by simp) }
        · exact refl
      · exact refl
  | expireUnlock id =>
      have own : ∀ u ∈ s.unlockRequests.rows, u.account ≠ S.account → u.id ≠ id := facts _ inScope
      exact { refl with
        unlockRequests := .of_updateWhere _ (by intro; rfl) (by intro; rfl) (by
          intro r mem h
          by_contra other
          exact own r mem (by simpa using other) (of_decide_eq_true h)) }
  | respondUnlock state payload id a phone =>
      subst inScope
      exact { refl with
        unlockRequests := .of_updateWhere _ (by intro; rfl) (by intro; rfl) (by intro r _ h; simp_all) }
  | _ => first
    | (cases inScope; done)
    | (cases group; done)
    | exact refl

theorem exec_othersKept_transfer (inScope : Scoped env S known q)
    (facts : ∀ f ∈ known, f.Holds env S s)
    (group : q.group = .transfer) : OthersKept S s (Stmt.exec env q s).2 := by
  have refl := OthersKept.refl S s
  cases q with
  | insertTransfer a d recipient size ct ttl deleteOnDownload permanent =>
      obtain ⟨rfl, -⟩ := inScope
      simp only [Stmt.exec]
      split
      · split <;> rename_i inserted
        · exact { refl with fileTransfers := .of_insert inserted (by simp) }
        · exact refl
      · exact refl
  | expireTransfers a =>
      subst inScope
      exact { refl with
        fileTransfers := .of_updateWhere _ (by intro; rfl) (by intro; rfl) (by intro r _ h; simp_all) }
  | expireTransfer id | markDelivered id =>
      have own : ∀ f ∈ s.fileTransfers.rows, f.account ≠ S.account → f.id ≠ id := facts _ inScope
      exact { refl with
        fileTransfers := .of_updateWhere _ (by intro; rfl) (by intro; rfl) (by
          intro r mem h
          by_contra other
          exact own r mem (by simpa using other) (by simp_all)) }
  | consumeTransfer id =>
      have own : ∀ f ∈ s.fileTransfers.rows, f.account ≠ S.account → f.id ≠ id := facts _ inScope
      exact { refl with
        fileTransfers := .of_deleteWhere _ (by
          intro r mem h
          by_contra other
          exact own r mem (by simpa using other) (of_decide_eq_true h)) }
  | deleteTransfer id a d =>
      subst inScope
      exact { refl with fileTransfers := .of_deleteWhere _ (by intro r _ h; simp_all) }
  | _ => first
    | (cases inScope; done)
    | (cases group; done)
    | exact refl

/-- A scoped statement leaves the other accounts alone. -/
theorem exec_othersKept (inScope : Scoped env S known q) (facts : ∀ f ∈ known, f.Holds env S s) :
    OthersKept S s (Stmt.exec env q s).2 := by
  cases group : q.group with
  | process => exact exec_othersKept_process group
  | account => exact exec_othersKept_account inScope group
  | device => exact exec_othersKept_device inScope facts group
  | token => exact exec_othersKept_token inScope group
  | vault => exact exec_othersKept_vault inScope group
  | unlock => exact exec_othersKept_unlock inScope facts group
  | transfer => exact exec_othersKept_transfer inScope facts group

/-- Refresh tokens of other accounts keep their ids and digests. -/
theorem exec_otherTokens (inScope : Scoped env S known q) {r' : RefreshToken}
    (mem : r' ∈ (Stmt.exec env q s).2.refreshTokens.rows) (other : r'.account ≠ S.account) :
    ∃ r ∈ s.refreshTokens.rows, r.account = r'.account ∧ r.id = r'.id ∧
      r.tokenHash = r'.tokenHash := by
  have unchanged : (Stmt.exec env q s).2.refreshTokens = s.refreshTokens →
      ∃ r ∈ s.refreshTokens.rows, r.account = r'.account ∧ r.id = r'.id ∧
        r.tokenHash = r'.tokenHash := by
    intro same
    rw [same] at mem
    exact ⟨r', mem, rfl, rfl, rfl⟩
  have revoked : ∀ (p : RefreshToken → Bool) (at_ : Time), (Stmt.exec env q s).2.refreshTokens.rows =
      s.refreshTokens.rows.map (fun t => if p t then { t with revokedAt := some at_ } else t) →
      ∃ r ∈ s.refreshTokens.rows, r.account = r'.account ∧ r.id = r'.id ∧
        r.tokenHash = r'.tokenHash := by
    intro p at_ update
    rw [update] at mem
    obtain ⟨r, rmem, rfl⟩ := List.mem_map.mp mem
    refine ⟨r, rmem, ?_⟩
    split <;> exact ⟨rfl, rfl, rfl⟩
  cases q with
  | logoutDevice | revokeDeviceTokens => exact revoked _ _ rfl
  | insertRefresh a d hash parent expires =>
      obtain ⟨rfl, -⟩ := inScope
      rcases exec_insertRefresh env S.account d hash parent expires s with
        ⟨c, -, account, -, -, -, rows⟩ | ⟨-, same⟩
      · rw [rows] at mem
        rcases List.mem_append.mp mem with old | new
        · exact ⟨r', old, rfl, rfl, rfl⟩
        · rw [List.mem_singleton.mp new] at other
          exact absurd account other
      · exact unchanged (by rw [same])
  | _ => first
    | exact unchanged rfl
    | (cases inScope; done)
    | (refine unchanged ?_
       simp only [Stmt.exec]
       split <;> first | rfl | (split <;> rfl))

theorem Fresh.exec (inScope : Scoped env S known q) (facts : ∀ f ∈ known, f.Holds env S s)
    (fresh : Fresh env S s) : Fresh env S (Stmt.exec env q s).2 := by
  have kept := exec_othersKept inScope facts
  constructor
  · intro r' mem other n drawn
    obtain ⟨r, rmem, account, id, hash⟩ := exec_otherTokens inScope mem other
    rw [← id, ← hash]
    exact fresh.tokens r rmem (account ▸ other) n drawn
  · exact fun c mem other => fresh.codes c (kept.enrollCodes.mem mem (by simpa using other)) other
  · exact fun u mem other =>
      fresh.unlocks u (kept.unlockRequests.mem mem (by simpa using other)) other
  · exact fun f mem other =>
      fresh.transfers f (kept.fileTransfers.mem mem (by simpa using other)) other

theorem Fact.Holds.exec (inScope : Scoped env S known q) (facts : ∀ f ∈ known, f.Holds env S s)
    {f : Fact} (h : f.Holds env S s) : f.Holds env S (Stmt.exec env q s).2 := by
  have kept := exec_othersKept inScope facts
  cases f with
  | device d => exact DeviceOf.exec h
  | unlock id => exact fun u mem other => h u (kept.unlockRequests.mem mem (by simpa using other)) other
  | transfer id => exact fun f mem other => h f (kept.fileTransfers.mem mem (by simpa using other)) other
  | drawn b => exact h

theorem exec_supply (db : Db) : db.supply ≤ (Stmt.exec env q db).2.supply := by
  cases q <;> first
    | exact Nat.le_refl _
    | exact Nat.le_succ _
    | (simp only [Stmt.exec, Db.upsertAccount, Db.addAccount]
       split <;> first
         | exact Nat.le_refl _
         | exact Nat.le_succ _
         | (split <;> first | exact Nat.le_refl _ | exact Nat.le_succ _))

/-! ## Two databases that look alike -/

namespace SameView

variable (same : SameView S s t)
include same

theorem account_eq : s.accounts.find? S.account = t.accounts.find? S.account :=
  same.accounts.find?_eq (fun _ _ id => decide_eq_true id) fun _ _ id => decide_eq_true id

theorem hasAccount_eq : s.hasAccount S.account = t.hasAccount S.account := by
  rw [Db.hasAccount, same.account_eq, Db.hasAccount]

theorem device_eq {d : Uuid} (ownS : DeviceOf S.account d s) (ownT : DeviceOf S.account d t) :
    s.devices.find? d = t.devices.find? d :=
  same.devices.find?_eq (fun _ mem id => decide_eq_true (ownS.account_of_mem mem id))
    fun _ mem id => decide_eq_true (ownT.account_of_mem mem id)

theorem lockout_eq : s.totpLockouts.find? S.account = t.totpLockouts.find? S.account :=
  same.totpLockouts.find?_eq (fun _ _ id => decide_eq_true id) fun _ _ id => decide_eq_true id

theorem vault_eq : s.vaults.find? S.account = t.vaults.find? S.account :=
  same.vaults.find?_eq (fun _ _ id => decide_eq_true id) fun _ _ id => decide_eq_true id

/-- A device update that keeps ids and accounts. -/
theorem updateDevices {p : Device → Bool} {f : Device → Device} (keyed : ∀ r, (f r).id = r.id)
    (keeps : ∀ r, (f r).account = r.account) :
    SameView S { s with devices := s.devices.updateWhere p f keyed }
      { t with devices := t.devices.updateWhere p f keyed } :=
  { same with
    devices := same.devices.updateWhere keyed fun r => by simp only [keeps]
    named := fun d mem => by
      have before := same.named d mem
      simp only [Db.hasDevice] at before
      simp only [Db.hasDevice, Table.find?_updateWhere, Option.isSome_map, before] }

end SameView

/-- Two databases that look alike to a request, and what it has learnt of both. -/
structure Alike (env : Env) (S : Scope) (known : List Fact) (s t : Db) : Prop where
  same : SameView S s t
  freshS : Fresh env S s
  freshT : Fresh env S t
  base : S.base ≤ s.supply
  factsS : ∀ f ∈ known, f.Holds env S s
  factsT : ∀ f ∈ known, f.Holds env S t

namespace Alike

variable (alike : Alike env S known s t)
include alike

theorem base' : S.base ≤ t.supply := alike.same.supply ▸ alike.base

theorem device_eq {d : Uuid} (mem : .device d ∈ known) : s.devices.find? d = t.devices.find? d :=
  alike.same.device_eq (alike.factsS _ mem) (alike.factsT _ mem)

theorem hasDevice {d : Uuid} (mem : .device d ∈ known) : s.hasDevice d = t.hasDevice d := by
  rw [Db.hasDevice, alike.device_eq mem, Db.hasDevice]

end Alike

/-- The monitor, the clock and the other process state. -/
theorem exec_sameView_process (same : SameView S s t) (group : q.group = .process) :
    (Stmt.exec env q s).1 = (Stmt.exec env q t).1 ∧
      SameView S (Stmt.exec env q s).2 (Stmt.exec env q t).2 := by
  have clock := same.clock
  have events := same.securityEvents
  have bans := same.bannedIps
  have supply := same.supply
  have limiter := same.limiter
  have issued := same.issued
  cases q with
  | now => exact ⟨congrArg Except.ok clock, same⟩
  | randomBytes n =>
      exact ⟨by simp only [Stmt.exec, supply], { same with supply := congrArg (· + 1) supply }⟩
  | limiterCheck key max window =>
      refine ⟨by simp only [Stmt.exec, Db.checkLimit, limiter, clock], { same with limiter := ?_ }⟩
      simp only [Stmt.exec, Db.checkLimit, limiter, clock]
  | issueToken c =>
      exact ⟨rfl, { same with issued := congrArg (· ++ [c]) issued }⟩
  | tokenIssued c => exact ⟨by simp only [Stmt.exec, issued], same⟩
  | writeUpdateFlag => exact ⟨rfl, { same with updateRequested := rfl }⟩
  | record account kind ip detail =>
      refine ⟨rfl, { same with
        securityEvents := ?_
        supply := congrArg (· + 1) supply }⟩
      simp only [Stmt.exec, Db.recorded, events, supply, clock]
  | banForever ip =>
      refine ⟨rfl, { same with bannedIps := ?_ }⟩
      simp only [Stmt.exec, Db.banned, bans, clock]
  | autoban ip reason mins | banFor ip mins =>
      simp only [Stmt.exec, Db.banned, bans, clock]
      split
      · exact ⟨rfl, { same with bannedIps := rfl, clock := rfl }⟩
      · exact ⟨rfl, same⟩
  | unban ip =>
      refine ⟨rfl, { same with bannedIps := ?_ }⟩
      simp only [Stmt.exec, bans]
  | countFailures ip windowSecs =>
      simp only [Stmt.exec, events, clock]
      split <;> exact ⟨rfl, same⟩
  | isBanned ip | ownerSeen ip | eventsSince since limit | eventCounts | activeBans =>
      exact ⟨by simp only [Stmt.exec, events, bans, clock], same⟩
  | _ => cases group

theorem exec_sameView_account (inScope : Scoped env S known q) (alike : Alike env S known s t)
    (group : q.group = .account) : (Stmt.exec env q s).1 = (Stmt.exec env q t).1 ∧
      SameView S (Stmt.exec env q s).2 (Stmt.exec env q t).2 := by
  have same := alike.same
  have clock := same.clock
  cases q with
  | accountEmail a | totpConfirmedAt a | totpSecretEnc a =>
      subst inScope
      simp only [Stmt.exec, same.account_eq]
      split <;> exact ⟨rfl, same⟩
  | setTotpSecret enc a | setPwAuth salt hash a =>
      subst inScope
      exact ⟨rfl, { same with accounts := same.accounts.updateWhere (by intro; rfl) (by intro; rfl) }⟩
  | confirmTotp a =>
      subst inScope
      refine ⟨rfl, { same with accounts := ?_ }⟩
      simp only [Stmt.exec, clock]
      exact same.accounts.updateWhere (by intro; rfl) (by intro; rfl)
  | lockedUntil a =>
      subst inScope
      exact ⟨by simp only [Stmt.exec, same.lockout_eq], same⟩
  | bumpLockout a =>
      subst inScope
      simp only [Stmt.exec, same.hasAccount_eq, clock]
      split
      · refine ⟨rfl, { same with clock := rfl, totpLockouts := ?_ }⟩
        exact same.totpLockouts.insertOr (by intro; rfl) (by intro; rfl) (fun _ _ id => decide_eq_true id)
          fun _ _ id => decide_eq_true id
      · exact ⟨rfl, same⟩
  | clearLockout a =>
      subst inScope
      exact ⟨rfl, { same with totpLockouts := same.totpLockouts.deleteWhere _ }⟩
  | _ => first
    | (cases inScope; done)
    | cases group

theorem exec_sameView_device (inScope : Scoped env S known q) (alike : Alike env S known s t)
    (group : q.group = .device) : (Stmt.exec env q s).1 = (Stmt.exec env q t).1 ∧
      SameView S (Stmt.exec env q s).2 (Stmt.exec env q t).2 := by
  have same := alike.same
  cases q with
  | deviceStatus d => exact ⟨by simp only [Stmt.exec, alike.device_eq inScope], same⟩
  | devicesOf a =>
      subst inScope
      exact ⟨by simp only [Stmt.exec, same.devices.filter_eq fun _ h => h], same⟩
  | deviceInAccount id a =>
      subst inScope
      have any := same.devices.any_eq (q := fun d => decide (d.id = id ∧ d.account = S.account))
        (fun r _ h => by simp_all) fun r _ h => by simp_all
      exact ⟨congrArg Except.ok any, same⟩
  | approveByTotp d => exact ⟨rfl, same.updateDevices (by intro; rfl) (by intro; rfl)⟩
  | approveDevice approver id a =>
      obtain ⟨rfl, mem⟩ := inScope
      have count := same.devices.countWhere_eq
        (q := fun d => decide (d.id = id ∧ d.account = S.account)) fun r h => by simp_all
      simp only [Stmt.exec, alike.hasDevice mem, count]
      split
      · exact ⟨rfl, same.updateDevices (by intro; rfl) (by intro; rfl)⟩
      · exact ⟨rfl, same⟩
  | revokeDevice id a | setPushToken token id a =>
      subst inScope
      exact ⟨rfl, same.updateDevices (by intro; rfl) (by intro; rfl)⟩
  | pinDevice pubKey id a =>
      subst inScope
      have count := same.devices.countWhere_eq
        (q := fun d => decide (d.id = id ∧ d.account = S.account ∧ d.platform = .ios))
        fun r h => by simp_all
      exact ⟨congrArg Except.ok count, same.updateDevices (by intro; rfl) (by intro; rfl)⟩
  | _ => first
    | (cases inScope; done)
    | cases group

theorem exec_sameView_token (inScope : Scoped env S known q) (alike : Alike env S known s t)
    (group : q.group = .token) : (Stmt.exec env q s).1 = (Stmt.exec env q t).1 ∧
      SameView S (Stmt.exec env q s).2 (Stmt.exec env q t).2 := by
  have same := alike.same
  have clock := same.clock
  have supply := same.supply
  cases q with
  | insertRefresh a d hash parent expires =>
      obtain ⟨rfl, mem, rfl, b, drawn, rfl⟩ := inScope
      obtain ⟨n, later, rfl⟩ := alike.factsS _ drawn
      have own : ∀ {x : Db}, Fresh env S x → ∀ r ∈ x.refreshTokens.rows,
          r.tokenHash = drawnDigest env n → decide (r.account = S.account) = true := by
        intro x fresh r rmem h
        by_contra other
        exact (fresh.tokens r rmem (by simpa using other) n later).2 h
      have key : ∀ {x : Db}, Fresh env S x → ∀ r ∈ x.refreshTokens.rows, r.id = t.supply →
          decide (r.account = S.account) = true := by
        intro x fresh r rmem id
        by_contra other
        exact (fresh.tokens r rmem (by simpa using other) _ alike.base').1 id
      simp only [Stmt.exec, same.hasAccount_eq, alike.hasDevice mem, clock, supply, Option.all_none]
      rw [same.refreshTokens.any_eq]
      · split
        · rcases same.refreshTokens.insert_cases
              (r := { id := t.supply, account := S.account, device := d
                      tokenHash := hashRefresh env (env.urlSafe (env.random n 32)), parent := none
                      expiresAt := expires, revokedAt := none, createdAt := t.clock })
              (key alike.freshS) (key alike.freshT) with ⟨first, second⟩ | ⟨t', u', first, second, inserted⟩
          · rw [first, second]
            exact ⟨rfl, same⟩
          · rw [first, second]
            exact ⟨rfl, { same with clock := rfl, supply := rfl, refreshTokens := inserted }⟩
        · exact ⟨rfl, same⟩
      · exact fun r rmem h => own alike.freshS r rmem (of_decide_eq_true h)
      · exact fun r rmem h => own alike.freshT r rmem (of_decide_eq_true h)
  | logoutDevice a d | revokeDeviceTokens d =>
      refine ⟨rfl, { same with refreshTokens := ?_ }⟩
      simp only [Stmt.exec, clock]
      exact same.refreshTokens.updateWhere (by intro; rfl) (by intro; rfl)
  | insertEnrollCode a hash =>
      obtain ⟨rfl, b, drawn, rfl⟩ := inScope
      obtain ⟨n, later, rfl⟩ := alike.factsS _ drawn
      have own : ∀ {x : Db}, Fresh env S x → ∀ c ∈ x.enrollCodes.rows,
          c.codeHash = drawnDigest env n → decide (c.account = S.account) = true := by
        intro x fresh c cmem h
        by_contra other
        exact (fresh.codes c cmem (by simpa using other) n later).2 h
      have key : ∀ {x : Db}, Fresh env S x → ∀ c ∈ x.enrollCodes.rows, c.id = t.supply →
          decide (c.account = S.account) = true := by
        intro x fresh c cmem id
        by_contra other
        exact (fresh.codes c cmem (by simpa using other) _ alike.base').1 id
      simp only [Stmt.exec, same.hasAccount_eq, clock, supply]
      rw [same.enrollCodes.any_eq]
      · split
        · rcases same.enrollCodes.insert_cases
              (r := { id := t.supply, account := S.account
                      codeHash := hashRefresh env (env.urlSafe (env.random n 32))
                      createdAt := t.clock, expiresAt := t.clock + minutes 5, usedAt := none })
              (key alike.freshS) (key alike.freshT) with ⟨first, second⟩ | ⟨t', u', first, second, inserted⟩
          · rw [first, second]
            exact ⟨rfl, same⟩
          · rw [first, second]
            exact ⟨rfl, { same with clock := rfl, supply := rfl, enrollCodes := inserted }⟩
        · exact ⟨rfl, same⟩
      · exact fun c cmem h => own alike.freshS c cmem (of_decide_eq_true h)
      · exact fun c cmem h => own alike.freshT c cmem (of_decide_eq_true h)
  | _ => first
    | (cases inScope; done)
    | cases group

theorem exec_sameView_vault (inScope : Scoped env S known q) (alike : Alike env S known s t)
    (group : q.group = .vault) : (Stmt.exec env q s).1 = (Stmt.exec env q t).1 ∧
      SameView S (Stmt.exec env q s).2 (Stmt.exec env q t).2 := by
  have same := alike.same
  have clock := same.clock
  cases q with
  | vaultRow a | vaultVersion a =>
      subst inScope
      exact ⟨by simp only [Stmt.exec, same.vault_eq], same⟩
  | insertVault a ct d =>
      obtain ⟨rfl, mem⟩ := inScope
      simp only [Stmt.exec, same.hasAccount_eq, alike.hasDevice mem, clock]
      split
      · rcases same.vaults.insert_cases
            (r := { account := S.account, version := 1, ciphertext := ct, updatedAt := t.clock
                    updatedBy := some d })
            (fun _ _ id => decide_eq_true id) (fun _ _ id => decide_eq_true id) with
            ⟨first, second⟩ | ⟨t', u', first, second, inserted⟩
        · rw [first, second]
          exact ⟨rfl, same⟩
        · rw [first, second]
          exact ⟨rfl, { same with clock := rfl, vaults := inserted }⟩
      · exact ⟨rfl, same⟩
  | updateVault a ct d =>
      obtain ⟨rfl, mem⟩ := inScope
      simp only [Stmt.exec, alike.hasDevice mem, same.vault_eq, clock]
      split
      · refine ⟨rfl, { same with clock := rfl, vaults := ?_ }⟩
        exact same.vaults.updateWhere (by intro; rfl) (by intro; rfl)
      · exact ⟨rfl, same⟩
  | wrappedBlob a wt =>
      subst inScope
      have row := same.wrappedKeys.select_eq
        (q := fun w => decide (w.account = S.account ∧ w.wrapperType = wt))
        (fun r _ h => by simp_all) fun r _ h => by simp_all
      exact ⟨by simp only [Stmt.exec, row], same⟩
  | upsertWrapped a wt d blob =>
      obtain ⟨rfl, named⟩ := inScope
      have known : d.all s.hasDevice = d.all t.hasDevice := by
        cases d with
        | none => rfl
        | some d => exact same.named d (named d rfl)
      simp only [Stmt.exec, same.hasAccount_eq, known, clock]
      split
      · refine ⟨rfl, { same with clock := rfl, wrappedKeys := ?_ }⟩
        exact same.wrappedKeys.insertOr (by intro; rfl) (by intro; rfl)
          (fun _ _ id => decide_eq_true (Prod.mk.inj id).1)
          fun _ _ id => decide_eq_true (Prod.mk.inj id).1
      · exact ⟨rfl, same⟩
  | deleteWrapped a wt =>
      exact ⟨rfl, { same with wrappedKeys := same.wrappedKeys.deleteWhere _ }⟩
  | _ => first
    | (cases inScope; done)
    | cases group

theorem exec_sameView_unlock (inScope : Scoped env S known q) (alike : Alike env S known s t)
    (group : q.group = .unlock) : (Stmt.exec env q s).1 = (Stmt.exec env q t).1 ∧
      SameView S (Stmt.exec env q s).2 (Stmt.exec env q t).2 := by
  have same := alike.same
  have clock := same.clock
  have supply := same.supply
  cases q with
  | insertUnlock a d phone kind payload =>
      obtain ⟨rfl, mem, named⟩ := inScope
      have key : ∀ {x : Db}, Fresh env S x → ∀ u ∈ x.unlockRequests.rows, u.id = t.supply →
          decide (u.account = S.account) = true := by
        intro x fresh u umem id
        by_contra other
        exact fresh.unlocks u umem (by simpa using other) _ alike.base' id
      simp only [Stmt.exec, same.hasAccount_eq, alike.hasDevice mem, same.named phone named, clock, supply]
      split
      · rcases same.unlockRequests.insert_cases
            (r := { id := t.supply, account := S.account, desktopDevice := d, phoneDevice := phone
                    kind, requestPayload := payload, responsePayload := none, state := .pending
                    createdAt := t.clock, expiresAt := t.clock + minutes 2 })
            (key alike.freshS) (key alike.freshT) with ⟨first, second⟩ | ⟨t', u', first, second, inserted⟩
        · rw [first, second]
          exact ⟨rfl, same⟩
        · rw [first, second]
          exact ⟨rfl, { same with clock := rfl, supply := rfl, unlockRequests := inserted }⟩
      · exact ⟨rfl, same⟩
  | unlockRow id a =>
      subst inScope
      exact ⟨congrArg Except.ok (same.unlockRequests.find?_filter_eq id fun _ h => h), same⟩
  | expireUnlock id =>
      exact ⟨rfl, { same with unlockRequests := same.unlockRequests.updateWhere (by intro; rfl) (by intro; rfl) }⟩
  | respondUnlock state payload id a phone =>
      subst inScope
      have count := same.unlockRequests.countWhere_eq (q := fun u =>
        decide (u.id = id ∧ u.account = S.account ∧ u.phoneDevice = phone ∧ u.state = .pending))
        fun r h => by simp_all
      exact ⟨congrArg Except.ok count,
        { same with unlockRequests := same.unlockRequests.updateWhere (by intro; rfl) (by intro; rfl) }⟩
  | _ => first
    | (cases inScope; done)
    | cases group

theorem exec_sameView_transfer (inScope : Scoped env S known q) (alike : Alike env S known s t)
    (group : q.group = .transfer) : (Stmt.exec env q s).1 = (Stmt.exec env q t).1 ∧
      SameView S (Stmt.exec env q s).2 (Stmt.exec env q t).2 := by
  have same := alike.same
  have clock := same.clock
  have supply := same.supply
  cases q with
  | liveTransferBytes a =>
      subst inScope
      simp only [Stmt.exec, Db.liveBytes, clock]
      refine ⟨?_, same⟩
      rw [same.fileTransfers.filter_eq]
      simp_all
  | insertTransfer a d recipient size ct ttl deleteOnDownload permanent =>
      obtain ⟨rfl, mem, recipients⟩ := inScope
      have recipient_eq : recipient.all s.hasDevice = recipient.all t.hasDevice := by
        cases recipient with
        | none => rfl
        | some r => exact alike.hasDevice (recipients r rfl)
      have key : ∀ {x : Db}, Fresh env S x → ∀ f ∈ x.fileTransfers.rows, f.id = t.supply →
          decide (f.account = S.account) = true := by
        intro x fresh f fmem id
        by_contra other
        exact fresh.transfers f fmem (by simpa using other) _ alike.base' id
      simp only [Stmt.exec, same.hasAccount_eq, alike.hasDevice mem, recipient_eq, clock, supply]
      split
      · rcases same.fileTransfers.insert_cases
            (r := { id := t.supply, account := S.account, senderDevice := d
                    recipientDevice := recipient, sizeBytes := size, ciphertext := ct
                    state := .pending, createdAt := t.clock, expiresAt := t.clock + days ttl
                    deleteOnDownload, permanent })
            (key alike.freshS) (key alike.freshT) with ⟨first, second⟩ | ⟨t', u', first, second, inserted⟩
        · rw [first, second]
          exact ⟨rfl, same⟩
        · rw [first, second]
          exact ⟨rfl, { same with clock := rfl, supply := rfl, fileTransfers := inserted }⟩
      · exact ⟨rfl, same⟩
  | expireTransfers a =>
      refine ⟨rfl, { same with fileTransfers := ?_ }⟩
      simp only [Stmt.exec, clock]
      exact same.fileTransfers.updateWhere (by intro; rfl) (by intro; rfl)
  | transfersFor a d =>
      subst inScope
      refine ⟨?_, same⟩
      simp only [Stmt.exec]
      rw [same.fileTransfers.filter_eq]
      simp_all
  | transferRow id a =>
      subst inScope
      exact ⟨congrArg Except.ok (same.fileTransfers.find?_filter_eq id fun _ h => by simp_all), same⟩
  | expireTransfer id | markDelivered id =>
      exact ⟨rfl, { same with fileTransfers := same.fileTransfers.updateWhere (by intro; rfl) (by intro; rfl) }⟩
  | consumeTransfer id =>
      exact ⟨rfl, { same with fileTransfers := same.fileTransfers.deleteWhere _ }⟩
  | deleteTransfer id a d =>
      subst inScope
      have count := same.fileTransfers.countWhere_eq (q := fun f =>
        decide (f.id = id ∧ f.account = S.account) && f.visibleTo d) fun r h => by simp_all
      exact ⟨congrArg Except.ok count,
        { same with fileTransfers := same.fileTransfers.deleteWhere _ }⟩
  | _ => first
    | (cases inScope; done)
    | cases group

/-- A scoped statement answers alike on databases that look alike, and they still do
afterwards. -/
theorem exec_sameView (inScope : Scoped env S known q) (alike : Alike env S known s t) :
    (Stmt.exec env q s).1 = (Stmt.exec env q t).1 ∧
      SameView S (Stmt.exec env q s).2 (Stmt.exec env q t).2 := by
  cases group : q.group with
  | process => exact exec_sameView_process alike.same group
  | account => exact exec_sameView_account inScope alike group
  | device => exact exec_sameView_device inScope alike group
  | token => exact exec_sameView_token inScope alike group
  | vault => exact exec_sameView_vault inScope alike group
  | unlock => exact exec_sameView_unlock inScope alike group
  | transfer => exact exec_sameView_transfer inScope alike group

end Step

/-- What a statement teaches the request. -/
inductive ScopeStep (env : Env) (S : Scope) :
    List Fact → (q : Stmt) → Except SqlError q.Result → List Fact → Prop
  | plain {known : List Fact} (q : Stmt) (res : Except SqlError q.Result)
      (inScope : Scoped env S known q) : ScopeStep env S known q res known
  | drew {known : List Fact} (b : Bytes) :
      ScopeStep env S known (.randomBytes 32) (.ok b) (.drawn b :: known)
  | unlock {known : List Fact} (id : Uuid) (u : UnlockRequest) :
      ScopeStep env S known (.unlockRow id S.account) (.ok (some u)) (.unlock id :: known)
  | transfer {known : List Fact} (id : Uuid) (f : FileTransfer) :
      ScopeStep env S known (.transferRow id S.account) (.ok (some f)) (.transfer id :: known)
  | device {known : List Fact} (d : Uuid) :
      ScopeStep env S known (.deviceInAccount d S.account) (.ok true) (.device d :: known)

section Learning

variable {env : Env} {S : Scope} {known known' : List Fact} {q : Stmt} {s t : Db}

theorem ScopeStep.inScope {res : Except SqlError q.Result} (step : ScopeStep env S known q res known') :
    Scoped env S known q := by
  cases step with
  | plain q res inScope => exact inScope
  | drew b => trivial
  | unlock id u => rfl
  | transfer id f => rfl
  | device d => rfl

/-- A lookup that found a row of the account leaves no other row with its key. -/
theorem ne_of_find?_filter {α : Type} {id account : α → Uuid} {table : Table Uuid α id} {k : Uuid}
    {p : α → Bool} {row : α} {owner : Uuid} (found : (table.find? k).filter p = some row)
    (own : ∀ r, p r = true → account r = owner) :
    ∀ r ∈ table.rows, account r ≠ owner → id r ≠ k := by
  rintro r mem other rfl
  rw [Table.find?_of_mem mem, Option.filter_eq_some_iff] at found
  obtain ⟨same, selected⟩ := found
  cases same
  exact other (own row selected)

theorem ScopeStep.learns (step : ScopeStep env S known q (Stmt.exec env q s).1 known')
    (base : S.base ≤ s.supply) (facts : ∀ f ∈ known, f.Holds env S s) :
    ∀ f ∈ known', f.Holds env S (Stmt.exec env q s).2 := by
  have kept : ∀ f ∈ known, f.Holds env S (Stmt.exec env q s).2 :=
    fun f mem => Fact.Holds.exec step.inScope facts (facts f mem)
  generalize result : (Stmt.exec env q s).1 = res at step
  cases step with
  | plain q res inScope => exact kept
  | drew b => exact List.forall_mem_cons.mpr ⟨⟨s.supply, base, (Except.ok.inj result).symm⟩, kept⟩
  | unlock id u =>
      refine List.forall_mem_cons.mpr ⟨?_, kept⟩
      exact ne_of_find?_filter (Except.ok.inj result) fun _ h => of_decide_eq_true h
  | transfer id f =>
      refine List.forall_mem_cons.mpr ⟨?_, kept⟩
      exact ne_of_find?_filter (Except.ok.inj result) fun _ h => (of_decide_eq_true h).1
  | device d =>
      refine List.forall_mem_cons.mpr ⟨?_, kept⟩
      obtain ⟨row, mem, found⟩ := List.any_eq_true.mp (Except.ok.inj result)
      obtain ⟨rfl, account⟩ := of_decide_eq_true found
      exact DeviceOf.exec ⟨row, Table.find?_of_mem mem, account⟩

/-- The run lemma: induction over the program, with `exec_sameView` and
`exec_othersKept` for each statement. -/
theorem isolated_run {ρ : Type} {p : Prog Stmt (fun q => Except SqlError q.Result) ρ}
    {final : List Fact → ρ → Prop} (follows : p.Follows (ScopeStep env S) final known)
    (same : SameView S s t) (freshS : Fresh env S s) (freshT : Fresh env S t)
    (base : S.base ≤ s.supply) (factsS : ∀ f ∈ known, f.Holds env S s)
    (factsT : ∀ f ∈ known, f.Holds env S t) :
    (p.run (Stmt.exec env) s).1 = (p.run (Stmt.exec env) t).1 ∧
      SameView S (p.run (Stmt.exec env) s).2 (p.run (Stmt.exec env) t).2 ∧
      OthersKept S s (p.run (Stmt.exec env) s).2 := by
  induction p generalizing known s t with
  | done r => exact ⟨rfl, same, .refl S s⟩
  | stmt q k ih =>
      obtain ⟨known', step, rest⟩ := follows (Stmt.exec env q s).1
      have inScope := step.inScope
      obtain ⟨answer, same'⟩ := exec_sameView inScope ⟨same, freshS, freshT, base, factsS, factsT⟩
      have stepT : ScopeStep env S known q (Stmt.exec env q t).1 known' := answer ▸ step
      obtain ⟨answers, views, kept⟩ := ih _ rest same' (freshS.exec inScope factsS)
        (freshT.exec inScope factsT) (base.trans (exec_supply s)) (step.learns base factsS)
        (stepT.learns (same.supply ▸ base) factsT)
      rw [Prog.run_stmt, Prog.run_stmt, ← answer]
      exact ⟨answers, views, (exec_othersKept inScope factsS).trans kept⟩

end Learning

end Sentinel.Api
