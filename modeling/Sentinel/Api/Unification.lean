import Sentinel.Api.Scope

/-!
# One personal server, one account

`auth_google` and `auth_bootstrap` resolve an identity to an account: a Google identity by
its `sub`, after the synthetic account has been offered to it; the bootstrap token by the
flagged owner, then by adopting the only account, then by the synthetic account. Here the
two handlers run one after the other in any order, while the clock advances.

The ledger of a run lists who has signed in to what. `Directory` is the invariant that ties
it to the accounts: an unflagged synthetic account exists only beside two others, and the
flagged one only alone, so none of the four rules can change its mind.
-/

namespace Sentinel.Api

open Atomic Handler Relational

/-- The `google_sub` of the synthetic account. -/
def syntheticSub : String := "bootstrap:local"

/-- Who signs in. -/
inductive Identity where
  | google (sub : String)
  | bootstrap
  deriving DecidableEq, Repr

/-- An identity and the account it was given. -/
structure Visit where
  identity : Identity
  account : Uuid
  deriving DecidableEq, Repr

/-- One step of a run: a sign-in, or time that passes. -/
inductive SignIn where
  | google (caller : Caller) (req : GoogleReq)
  | bootstrap (caller : Caller) (req : BootstrapReq)
  | wait (elapsed : Nat)

/-- The account of a session, finished or pending. -/
def Response.account : Response → Option Uuid
  | .pendingResp pendingToken _ => some pendingToken.sub
  | .tokens resp => some resp.accessToken.sub
  | _ => none

/-- The visit that an answered sign-in makes. -/
def visit (identity : Option Identity) (answer : Except ApiError Response) : List Visit :=
  match identity, answer with
  | some identity, .ok resp => (resp.account.map fun account => ⟨identity, account⟩).toList
  | _, _ => []

/-- One step: the visit and the database after it. -/
def SignIn.step (env : Env) (db : Db) : SignIn → List Visit × Db
  | google caller req =>
      let done := (authGoogle env caller req).perform env db
      (visit ((env.googleVerify req.idToken).map fun c => .google c.sub) done.1, done.2)
  | bootstrap caller req =>
      let done := (authBootstrap env caller req).perform env db
      (visit (some .bootstrap) done.1, done.2)
  | wait elapsed => ([], tick elapsed db)

/-- The visits of a run, the last one first, and the database after it. -/
def signIns (env : Env) (db : Db) (steps : List SignIn) : List Visit × Db :=
  steps.foldl (fun run s => ((s.step env run.2).1 ++ run.1, (s.step env run.2).2)) ([], db)

/-- What decides the resolution of an identity. -/
structure AccountKey where
  id : Uuid
  sub : String
  owner : Bool
  deriving DecidableEq, Repr

def Account.accountKey (a : Account) : AccountKey := ⟨a.id, a.googleSub, a.isBootstrapOwner⟩

def Db.accountKeys (db : Db) : List AccountKey := db.accounts.rows.map Account.accountKey

/-- The ledger and the accounts fit together. -/
structure Consistent (ledger : List Visit) (keys : List AccountKey) : Prop where
  subs : (keys.map AccountKey.sub).Nodup
  owner : ∀ a ∈ keys, ∀ b ∈ keys, a.owner = true → b.owner = true → a = b
  /-- The synthetic account is the flagged owner as long as it is alone; one that was made
  beside others found two of them at least, and no owner. -/
  synthetic : ∀ a ∈ keys, a.sub = syntheticSub →
    (keys = [a] ∧ a.owner = true) ∨ (3 ≤ keys.length ∧ ∀ b ∈ keys, b.owner = false)
  /-- An account with a Google identity has been visited by it. -/
  keyed : ∀ a ∈ keys, a.sub ≠ syntheticSub → ⟨.google a.sub, a.id⟩ ∈ ledger
  google : ∀ sub account, ⟨.google sub, account⟩ ∈ ledger → sub ≠ syntheticSub ∧
    ∃ a ∈ keys, a.id = account ∧ a.sub = sub
  bootstrap : ∀ account, ⟨.bootstrap, account⟩ ∈ ledger → ∃ a ∈ keys,
    a.id = account ∧ (a.owner = true ∨ a.sub = syntheticSub)

namespace Consistent

variable {ledger : List Visit} {keys : List AccountKey}

theorem empty : Consistent [] [] where
  subs := by simp
  owner := by simp
  synthetic := by simp
  keyed := by simp
  google := by simp
  bootstrap := by simp

theorem eq_of_sub (h : Consistent ledger keys) {a b : AccountKey} (here : a ∈ keys) (there : b ∈ keys)
    (same : a.sub = b.sub) : a = b :=
  List.inj_on_of_nodup_map h.subs here there same

/-- An identity is given one account only. -/
theorem one_account (h : Consistent ledger keys) {identity : Identity} {account account' : Uuid}
    (first : ⟨identity, account⟩ ∈ ledger) (second : ⟨identity, account'⟩ ∈ ledger) :
    account = account' := by
  cases identity with
  | google sub =>
      obtain ⟨-, a, here, rfl, rfl⟩ := h.google sub account first
      obtain ⟨-, b, there, rfl, same⟩ := h.google _ account' second
      rw [h.eq_of_sub here there same.symm]
  | bootstrap =>
      obtain ⟨a, here, rfl, left⟩ := h.bootstrap account first
      obtain ⟨b, there, rfl, right⟩ := h.bootstrap account' second
      -- a flagged account beside a synthetic one is the same account
      have mixed : ∀ a ∈ keys, ∀ b ∈ keys, a.owner = true → b.sub = syntheticSub → a = b := by
        intro a here b there flagged synthetic
        obtain ⟨alone, -⟩ | ⟨-, unflagged⟩ := h.synthetic b there synthetic
        · rw [alone, List.mem_singleton] at here
          exact here
        · rw [unflagged a here] at flagged
          cases flagged
      obtain left | left := left <;> obtain right | right := right
      · rw [h.owner a here b there left right]
      · rw [mixed a here b there left right]
      · rw [mixed b there a here right left]
      · rw [h.eq_of_sub here there (left.trans right.symm)]

/-- With one Google identity there is one account. -/
theorem alone (h : Consistent ledger keys) {sub : String}
    (only : ∀ s account, ⟨.google s, account⟩ ∈ ledger → s = sub) : keys.length ≤ 1 := by
  have named : ∀ a ∈ keys, a.sub ≠ syntheticSub → a.sub = sub := by
    intro a mem own
    exact only a.sub a.id (h.keyed a mem own)
  by_cases synthetic : ∃ a ∈ keys, a.sub = syntheticSub
  · obtain ⟨a, mem, same⟩ := synthetic
    obtain ⟨single, -⟩ | ⟨long, -⟩ := h.synthetic a mem same
    · rw [single, List.length_singleton]
    · have two : keys.map AccountKey.sub ⊆ [syntheticSub, sub] := by
        intro s named'
        obtain ⟨b, there, rfl⟩ := List.mem_map.mp named'
        by_cases own : b.sub = syntheticSub
        · simp [own]
        · simp [named b there own]
      have short := (List.subperm_of_subset h.subs two).length_le
      rw [List.length_map, List.length_cons, List.length_singleton] at short
      omega
  · have one : keys.map AccountKey.sub ⊆ [sub] := by
      intro s named'
      obtain ⟨b, there, rfl⟩ := List.mem_map.mp named'
      exact List.mem_singleton.mpr (named b there fun own => synthetic ⟨b, there, own⟩)
    have short := (List.subperm_of_subset h.subs one).length_le
    rwa [List.length_map, List.length_singleton] at short

/-- A visited account exists. -/
theorem exists_of_visit (h : Consistent ledger keys) {v : Visit} (mem : v ∈ ledger) :
    ∃ a ∈ keys, a.id = v.account := by
  obtain ⟨identity, account⟩ := v
  cases identity with
  | google sub =>
      obtain ⟨-, a, there, same, -⟩ := h.google sub account mem
      exact ⟨a, there, same⟩
  | bootstrap =>
      obtain ⟨a, there, same, -⟩ := h.bootstrap account mem
      exact ⟨a, there, same⟩

theorem visit_google (h : Consistent ledger keys) {a : AccountKey} (mem : a ∈ keys)
    (real : a.sub ≠ syntheticSub) : Consistent (⟨.google a.sub, a.id⟩ :: ledger) keys where
  subs := h.subs
  owner := h.owner
  synthetic := h.synthetic
  keyed b there own := List.mem_cons_of_mem _ (h.keyed b there own)
  google := by
    intro sub account visited
    obtain now | before := List.mem_cons.mp visited
    · cases now
      exact ⟨real, a, mem, rfl, rfl⟩
    · exact h.google sub account before
  bootstrap := by
    intro account visited
    obtain now | before := List.mem_cons.mp visited
    · cases now
    · exact h.bootstrap account before

theorem visit_bootstrap (h : Consistent ledger keys) {a : AccountKey} (mem : a ∈ keys)
    (resolves : a.owner = true ∨ a.sub = syntheticSub) :
    Consistent (⟨.bootstrap, a.id⟩ :: ledger) keys where
  subs := h.subs
  owner := h.owner
  synthetic := h.synthetic
  keyed b there own := List.mem_cons_of_mem _ (h.keyed b there own)
  google := by
    intro sub account visited
    obtain now | before := List.mem_cons.mp visited
    · cases now
    · exact h.google sub account before
  bootstrap := by
    intro account visited
    obtain now | before := List.mem_cons.mp visited
    · cases now
      exact ⟨a, mem, rfl, resolves⟩
    · exact h.bootstrap account before

/-- The synthetic account is re-keyed when it is alone. -/
theorem rekey {a : AccountKey} (h : Consistent ledger [a]) (synthetic : a.sub = syntheticSub)
    {sub : String} (real : sub ≠ syntheticSub) :
    Consistent (⟨.google sub, a.id⟩ :: ledger) [{ a with sub }] where
  subs := by simp
  owner := by simp
  synthetic := by
    intro b there same
    rw [List.mem_singleton] at there
    rw [there] at same
    exact absurd same real
  keyed := by simp
  google := by
    intro s account visited
    obtain now | before := List.mem_cons.mp visited
    · cases now
      exact ⟨real, _, List.mem_singleton_self _, rfl, rfl⟩
    · obtain ⟨own, b, there, -, same⟩ := h.google s account before
      rw [List.mem_singleton] at there
      rw [← same, there] at own
      exact absurd synthetic own
  bootstrap := by
    intro account visited
    obtain now | before := List.mem_cons.mp visited
    · cases now
    · obtain ⟨b, there, rfl, -⟩ := h.bootstrap account before
      obtain ⟨-, flagged⟩ | ⟨long, -⟩ := h.synthetic a (List.mem_singleton_self a) synthetic
      · rw [List.mem_singleton] at there
        exact ⟨_, List.mem_singleton_self _, by rw [there], .inl flagged⟩
      · simp at long

/-- The only account is adopted. -/
theorem adopt {a : AccountKey} (h : Consistent ledger [a]) (unflagged : a.owner = false) :
    Consistent ledger [{ a with owner := true }] where
  subs := by simp
  owner := by simp
  synthetic := by
    intro b there same
    rw [List.mem_singleton] at there
    obtain ⟨-, flagged⟩ | ⟨long, -⟩ :=
      h.synthetic a (List.mem_singleton_self a) (by rw [there] at same; exact same)
    · rw [unflagged] at flagged
      cases flagged
    · simp at long
  keyed := by
    intro b there own
    rw [List.mem_singleton] at there
    subst there
    exact h.keyed a (List.mem_singleton_self a) own
  google := by
    intro sub account visited
    obtain ⟨own, b, there, rfl, rfl⟩ := h.google sub account visited
    rw [List.mem_singleton] at there
    subst there
    exact ⟨own, _, List.mem_singleton_self _, rfl, rfl⟩
  bootstrap := by
    intro account visited
    obtain ⟨b, there, rfl, -⟩ := h.bootstrap account visited
    rw [List.mem_singleton] at there
    subst there
    exact ⟨_, List.mem_singleton_self _, rfl, .inl rfl⟩

theorem subs_concat (h : Consistent ledger keys) {a : AccountKey}
    (unknown : ∀ b ∈ keys, b.sub ≠ a.sub) : ((keys ++ [a]).map AccountKey.sub).Nodup := by
  rw [List.map_append, List.map_singleton, List.nodup_append]
  refine ⟨h.subs, List.nodup_singleton _, ?_⟩
  intro s named t last
  obtain ⟨b, there, rfl⟩ := List.mem_map.mp named
  rw [List.mem_singleton.mp last]
  exact unknown b there

/-- A new Google identity, when the synthetic account is not alone. -/
theorem add_google (h : Consistent ledger keys) {sub : String} (real : sub ≠ syntheticSub)
    (unknown : ∀ a ∈ keys, a.sub ≠ sub) (accompanied : ∀ a, keys = [a] → a.sub ≠ syntheticSub)
    (id : Uuid) : Consistent (⟨.google sub, id⟩ :: ledger) (keys ++ [⟨id, sub, false⟩]) where
  subs := h.subs_concat unknown
  owner := by
    intro a here b there flagged flagged'
    rw [List.mem_append, List.mem_singleton] at here there
    obtain here | rfl := here
    · obtain there | rfl := there
      · exact h.owner a here b there flagged flagged'
      · cases flagged'
    · cases flagged
  synthetic := by
    intro a there same
    rw [List.mem_append, List.mem_singleton] at there
    obtain there | rfl := there
    · obtain ⟨single, -⟩ | ⟨long, unflagged⟩ := h.synthetic a there same
      · exact absurd same (accompanied a single)
      · refine .inr ⟨by rw [List.length_append]; omega, ?_⟩
        exact List.forall_mem_append.mpr ⟨unflagged, by simp⟩
    · exact absurd same real
  keyed := by
    intro a there own
    rw [List.mem_append, List.mem_singleton] at there
    obtain there | rfl := there
    · exact List.mem_cons_of_mem _ (h.keyed a there own)
    · exact List.mem_cons_self
  google := by
    intro s account visited
    obtain now | before := List.mem_cons.mp visited
    · cases now
      exact ⟨real, _, List.mem_append_right _ (List.mem_singleton_self _), rfl, rfl⟩
    · obtain ⟨own, a, there, rest⟩ := h.google s account before
      exact ⟨own, a, List.mem_append_left _ there, rest⟩
  bootstrap := by
    intro account visited
    obtain now | before := List.mem_cons.mp visited
    · cases now
    · obtain ⟨a, there, rest⟩ := h.bootstrap account before
      exact ⟨a, List.mem_append_left _ there, rest⟩

/-- The synthetic account of a server with several accounts and no owner. -/
theorem add_synthetic (h : Consistent ledger keys) (several : 2 ≤ keys.length)
    (unflagged : ∀ a ∈ keys, a.owner = false) (unknown : ∀ a ∈ keys, a.sub ≠ syntheticSub)
    (id : Uuid) : Consistent ledger (keys ++ [⟨id, syntheticSub, false⟩]) where
  subs := h.subs_concat unknown
  owner := by
    intro a here b _ flagged _
    rw [List.forall_mem_append.mpr ⟨unflagged, by simp⟩ a here] at flagged
    cases flagged
  synthetic := by
    intro a _ _
    refine .inr ⟨by rw [List.length_append, List.length_singleton]; omega, ?_⟩
    exact List.forall_mem_append.mpr ⟨unflagged, by simp⟩
  keyed := by
    intro a there own
    rw [List.mem_append, List.mem_singleton] at there
    obtain there | rfl := there
    · exact h.keyed a there own
    · exact absurd rfl own
  google := by
    intro s account visited
    obtain ⟨own, a, there, rest⟩ := h.google s account visited
    exact ⟨own, a, List.mem_append_left _ there, rest⟩
  bootstrap := by
    intro account visited
    obtain ⟨a, there, rest⟩ := h.bootstrap account visited
    exact ⟨a, List.mem_append_left _ there, rest⟩

/-- The synthetic account of an empty server. -/
theorem first_synthetic (h : Consistent ledger []) (id : Uuid) :
    Consistent ledger [⟨id, syntheticSub, true⟩] where
  subs := List.nodup_singleton _
  owner := by simp
  synthetic := by simp
  keyed := by simp
  google := by
    intro s account visited
    obtain ⟨-, a, there, -⟩ := h.google s account visited
    cases there
  bootstrap := by
    intro account visited
    obtain ⟨a, there, -⟩ := h.bootstrap account visited
    cases there

end Consistent

/-- The invariant of a run: the ledger is consistent, and the ids handed out are used up. -/
structure Directory (ledger : List Visit) (db : Db) : Prop where
  consistent : Consistent ledger db.accountKeys
  accountIds : ∀ a ∈ db.accountKeys, a.id < db.supply
  deviceIds : ∀ d ∈ db.devices.rows, d.id < db.supply

/-- Rows stay with their accounts: devices are only added, vaults and wrapped keys are not
touched, and no account goes. -/
structure Settled (db db' : Db) : Prop where
  devices : ∀ d ∈ db.devices.rows, d ∈ db'.devices.rows
  vaults : db'.vaults = db.vaults
  wrappedKeys : db'.wrappedKeys = db.wrappedKeys
  accounts : ∀ a ∈ db.accountKeys, ∃ a' ∈ db'.accountKeys, a'.id = a.id
  supply : db.supply ≤ db'.supply

namespace Settled

variable {db db' db'' : Db}

theorem refl (db : Db) : Settled db db := ⟨fun _ h => h, rfl, rfl, fun a h => ⟨a, h, rfl⟩, le_rfl⟩

theorem trans (first : Settled db db') (second : Settled db' db'') : Settled db db'' where
  devices d mem := second.devices d (first.devices d mem)
  vaults := second.vaults.trans first.vaults
  wrappedKeys := second.wrappedKeys.trans first.wrappedKeys
  accounts a mem := by
    obtain ⟨a', mem', same⟩ := first.accounts a mem
    obtain ⟨a'', mem'', same'⟩ := second.accounts a' mem'
    exact ⟨a'', mem'', same'.trans same⟩
  supply := first.supply.trans second.supply

end Settled

/-- Statements that leave accounts, devices, vaults and wrapped keys alone. -/
def Stmt.sparesDirectory (q : Stmt) : Bool :=
  q.isMonitor || q.readOnly ||
    match q with
    | .randomBytes _ | .issueToken _ | .insertRefresh .. => true
    | _ => false

/-- The tables of the directory are the same. -/
structure Quiet (db db' : Db) : Prop where
  accounts : db'.accounts = db.accounts
  devices : db'.devices = db.devices
  vaults : db'.vaults = db.vaults
  wrappedKeys : db'.wrappedKeys = db.wrappedKeys
  supply : db.supply ≤ db'.supply

namespace Quiet

variable {db db' db'' : Db}

theorem refl (db : Db) : Quiet db db := ⟨rfl, rfl, rfl, rfl, le_rfl⟩

theorem trans (first : Quiet db db') (second : Quiet db' db'') : Quiet db db'' where
  accounts := second.accounts.trans first.accounts
  devices := second.devices.trans first.devices
  vaults := second.vaults.trans first.vaults
  wrappedKeys := second.wrappedKeys.trans first.wrappedKeys
  supply := first.supply.trans second.supply

theorem exec (env : Env) {q : Stmt} (h : q.sparesDirectory = true) (db : Db) :
    Quiet db (Stmt.exec env q db).2 := by
  by_cases reads : q.readOnly = true
  · rw [Stmt.exec_readOnly reads]
    exact refl db
  refine ⟨?_, ?_, ?_, ?_, exec_supply db⟩ <;>
    cases q <;> first
      | rfl
      | exact absurd rfl reads
      | cases h; done
      | (simp only [Stmt.exec]; split <;> first | rfl | (split <;> rfl))

theorem accountKeys (h : Quiet db db') : db'.accountKeys = db.accountKeys := by
  rw [Db.accountKeys, h.accounts, Db.accountKeys]

theorem settled (h : Quiet db db') : Settled db db' where
  devices _ mem := h.devices ▸ mem
  vaults := h.vaults
  wrappedKeys := h.wrappedKeys
  accounts a mem := ⟨a, h.accountKeys ▸ mem, rfl⟩
  supply := h.supply

end Quiet

theorem Directory.quiet {ledger : List Visit} {db db' : Db} (h : Directory ledger db)
    (same : Quiet db db') : Directory ledger db' where
  consistent := same.accountKeys ▸ h.consistent
  accountIds a mem := lt_of_lt_of_le (h.accountIds a (same.accountKeys ▸ mem)) same.supply
  deviceIds d mem := lt_of_lt_of_le (h.deviceIds d (same.devices ▸ mem)) same.supply

/-- A part of a handler that spares the directory: it ends the handler with an error, or the
rest runs from a database with the same directory. -/
theorem perform_spared {α β : Type} {m : Handler α} {post : α → Prop} {f : α → Handler β}
    (within : m.Within (fun q => q.sparesDirectory = true) post) (env : Env) (db : Db) :
    (∃ e db', Quiet db db' ∧ (m >>= f).perform env db = (.error e, db')) ∨
      ∃ a db', Quiet db db' ∧ post a ∧ (m >>= f).perform env db = (f a).perform env db' := by
  obtain ⟨same, answers⟩ := within.performs Quiet.refl Quiet.trans
    (fun q db spares => Quiet.exec env spares db) db
  rw [perform_bind]
  cases answer : (m.perform env db).1 with
  | error e => exact .inl ⟨e, _, same, rfl⟩
  | ok a => exact .inr ⟨a, _, same, answers a answer, rfl⟩

/-- The tables beside the accounts are the same. -/
structure BesideAccounts (db db' : Db) : Prop where
  devices : db'.devices = db.devices
  vaults : db'.vaults = db.vaults
  wrappedKeys : db'.wrappedKeys = db.wrappedKeys
  supply : db.supply ≤ db'.supply

theorem BesideAccounts.settled {db db' : Db} (h : BesideAccounts db db')
    (accounts : ∀ a ∈ db.accountKeys, ∃ a' ∈ db'.accountKeys, a'.id = a.id) : Settled db db' where
  devices _ mem := h.devices ▸ mem
  vaults := h.vaults
  wrappedKeys := h.wrappedKeys
  accounts := accounts
  supply := h.supply

theorem BesideAccounts.directory {ledger ledger' : List Visit} {db db' : Db}
    (h : BesideAccounts db db') (before : Directory ledger db)
    (consistent : Consistent ledger' db'.accountKeys)
    (ids : ∀ a ∈ db'.accountKeys, a.id < db'.supply) : Directory ledger' db' where
  consistent := consistent
  accountIds := ids
  deviceIds d mem := lt_of_lt_of_le (before.deviceIds d (h.devices ▸ mem)) h.supply

/-- `INSERT .. ON CONFLICT (google_sub)`: the account of the identity, or a new one. -/
theorem upsertAccount_keys {db : Db} (ids : ∀ a ∈ db.accountKeys, a.id < db.supply)
    (sub email : String) (owner : Bool) :
    BesideAccounts db (db.upsertAccount sub email owner).2 ∧
    ((∃ a ∈ db.accountKeys, a.sub = sub ∧ (db.upsertAccount sub email owner).1 = .ok a.id ∧
        (db.upsertAccount sub email owner).2.accountKeys = db.accountKeys) ∨
      (∀ a ∈ db.accountKeys, a.sub ≠ sub) ∧ (db.upsertAccount sub email owner).1 = .ok db.supply ∧
        (db.upsertAccount sub email owner).2.accountKeys =
          db.accountKeys ++ [⟨db.supply, sub, owner⟩] ∧
        (db.upsertAccount sub email owner).2.supply = db.supply + 1) := by
  unfold Db.upsertAccount
  cases found : db.accounts.rows.find? fun a => decide (a.googleSub = sub) with
  | some a =>
      have mem : a ∈ db.accounts.rows := List.mem_of_find?_eq_some found
      have same : a.googleSub = sub := by simpa using List.find?_some found
      refine ⟨⟨rfl, rfl, rfl, le_rfl⟩, .inl ⟨a.accountKey, List.mem_map_of_mem mem, same, rfl, ?_⟩⟩
      simp only [Db.accountKeys, Table.updateWhere, List.map_map]
      apply List.map_congr_left
      intro b _
      by_cases hit : b.id = a.id <;> simp [hit, Account.accountKey]
  | none =>
      have unknown : ∀ a ∈ db.accountKeys, a.sub ≠ sub := by
        intro a mem
        obtain ⟨row, there, rfl⟩ := List.mem_map.mp mem
        simpa [Account.accountKey] using List.find?_eq_none.mp found row there
      have free : db.accounts.find? db.supply = none := by
        rw [Table.find?_eq_none_iff]
        intro row there
        exact Nat.ne_of_lt (ids row.accountKey (List.mem_map_of_mem there))
      simp only [Db.addAccount]
      split <;> rename_i inserted
      · rw [Table.insert_eq_none_iff, free] at inserted
        exact absurd rfl inserted
      · refine ⟨⟨rfl, rfl, rfl, Nat.le_succ _⟩, .inr ⟨unknown, rfl, ?_, rfl⟩⟩
        simp only [Db.accountKeys, Table.rows_of_insert inserted, List.map_append]
        rfl

section Resolve

variable {env : Env} {ledger : List Visit} {db : Db}

/-- An identity that is resolved by upserting a `sub`. -/
theorem upsertAccount_directory (h : Directory ledger db) {identity : Identity} {sub : String}
    (email : String) {owner : Bool}
    (known : ∀ a ∈ db.accountKeys, a.sub = sub →
      Consistent (⟨identity, a.id⟩ :: ledger) db.accountKeys)
    (fresh : (∀ a ∈ db.accountKeys, a.sub ≠ sub) →
      Consistent (⟨identity, db.supply⟩ :: ledger) (db.accountKeys ++ [⟨db.supply, sub, owner⟩])) :
    ∃ id db', db.upsertAccount sub email owner = (.ok id, db') ∧
      Directory (⟨identity, id⟩ :: ledger) db' ∧ Settled db db' := by
  obtain ⟨beside, found | created⟩ := upsertAccount_keys h.accountIds sub email owner
  · obtain ⟨a, mem, same, answer, keys⟩ := found
    refine ⟨a.id, _, Prod.ext answer rfl, ?_, ?_⟩
    · exact beside.directory h (keys ▸ known a mem same) fun a mem =>
        lt_of_lt_of_le (h.accountIds a (keys ▸ mem)) beside.supply
    · exact beside.settled fun a mem => ⟨a, keys ▸ mem, rfl⟩
  · obtain ⟨unknown, answer, keys, supply⟩ := created
    refine ⟨db.supply, _, Prod.ext answer rfl, ?_, ?_⟩
    · refine beside.directory h (keys ▸ fresh unknown) ?_
      rw [keys, supply]
      refine List.forall_mem_append.mpr ⟨fun a mem => ?_, by simp⟩
      exact Nat.lt_succ_of_lt (h.accountIds a mem)
    · exact beside.settled fun a mem => ⟨a, keys ▸ List.mem_append_left _ mem, rfl⟩

variable (env) in
/-- Re-keying: it fires when the synthetic account is alone. -/
theorem rekeyBootstrap_directory (h : Directory ledger db) {sub : String}
    (real : sub ≠ syntheticSub) (email : String) :
    (Stmt.exec env (.rekeyBootstrap sub email) db = (.ok none, db) ∧
      ∀ a, db.accountKeys = [a] → a.sub ≠ syntheticSub) ∨
    ∃ id db', Stmt.exec env (.rekeyBootstrap sub email) db = (.ok (some id), db') ∧
      Directory (⟨.google sub, id⟩ :: ledger) db' ∧ Settled db db' := by
  simp only [Stmt.exec]
  cases found : db.accounts.rows.find? fun a => decide (a.googleSub = "bootstrap:local") with
  | none =>
      refine .inl ⟨rfl, ?_⟩
      intro a keys synthetic
      have mem : a ∈ db.accountKeys := by rw [keys]; exact List.mem_singleton_self a
      obtain ⟨row, there, rfl⟩ := List.mem_map.mp mem
      have other := List.find?_eq_none.mp found row there
      exact other (by simpa [Account.accountKey, syntheticSub] using synthetic)
  | some a =>
      have mem : a ∈ db.accounts.rows := List.mem_of_find?_eq_some found
      have synthetic : a.googleSub = syntheticSub := by
        simpa [syntheticSub] using List.find?_some found
      simp only
      split <;> rename_i others
      · refine .inl ⟨rfl, ?_⟩
        intro k keys same
        obtain ⟨b, there, other⟩ := List.any_eq_true.mp others
        have here : b.accountKey ∈ db.accountKeys := List.mem_map_of_mem there
        rw [keys, List.mem_singleton] at here
        rw [← here] at same
        exact absurd same (by simpa [Account.accountKey, syntheticSub] using other)
      · have all : ∀ b ∈ db.accounts.rows, b.googleSub = syntheticSub := by
          intro b there
          by_contra other
          exact others (List.any_eq_true.mpr ⟨b, there, by simpa [syntheticSub] using other⟩)
        have single : db.accounts.rows = [a] := by
          have one : db.accountKeys.map AccountKey.sub ⊆ [syntheticSub] := by
            intro s named
            obtain ⟨k, key, rfl⟩ := List.mem_map.mp named
            obtain ⟨b, there, rfl⟩ := List.mem_map.mp key
            exact List.mem_singleton.mpr (all b there)
          have short := (List.subperm_of_subset h.consistent.subs one).length_le
          rw [List.length_map, Db.accountKeys, List.length_map, List.length_singleton] at short
          obtain ⟨b, eq⟩ := List.length_eq_one_iff.mp
            (le_antisymm short (List.length_pos_of_mem mem))
          rw [eq, List.mem_singleton] at mem
          rw [eq, mem]
        have keys : db.accountKeys = [a.accountKey] := by rw [Db.accountKeys, single]; rfl
        have consistent := h.consistent
        rw [keys] at consistent
        have keys' : ({ db with
            accounts := db.accounts.updateWhere (fun b => decide (b.id = a.id))
              (fun b => { b with googleSub := sub, email }) (fun _ => rfl) } : Db).accountKeys =
              [{ a.accountKey with sub }] := by
          simp [Db.accountKeys, Table.updateWhere, single, Account.accountKey]
        have beside : BesideAccounts db { db with
            accounts := db.accounts.updateWhere (fun b => decide (b.id = a.id))
              (fun b => { b with googleSub := sub, email }) (fun _ => rfl) } :=
          ⟨rfl, rfl, rfl, le_rfl⟩
        refine .inr ⟨a.id, _, rfl, ?_, ?_⟩
        · refine beside.directory h (keys' ▸ consistent.rekey synthetic real) ?_
          rw [keys', List.forall_mem_singleton]
          exact h.accountIds a.accountKey (by rw [keys]; exact List.mem_singleton_self _)
        · refine beside.settled ?_
          rw [keys, keys', List.forall_mem_singleton]
          exact ⟨_, List.mem_singleton_self _, rfl⟩

/-- The statement answers what the table operation does. -/
theorem upsertAccount_result {db : Db} {sub email : String} {P : Uuid → Db → Prop}
    (h : ∃ id db', db.upsertAccount sub email false = (.ok id, db') ∧ P id db') :
    ∃ id db', @perform (no_index Stmt.Result (.upsertAccount sub email))
      (sql (.upsertAccount sub email)) env db = (.ok id, db') ∧ P id db' := by
  obtain ⟨id, db', answer, rest⟩ := h
  refine ⟨id, db', ?_, rest⟩
  rw [perform_sql]
  simp only [Stmt.exec, answer]
  rfl

theorem insertBootstrapAccount_result {db : Db} {P : Uuid → Db → Prop}
    (h : ∃ id db', db.upsertAccount syntheticSub "personal@sentinel.local"
      (decide (db.accounts.rows.length = 0)) = (.ok id, db') ∧ P id db') :
    ∃ id db', @perform (no_index Stmt.Result .insertBootstrapAccount)
      (sql .insertBootstrapAccount) env db = (.ok id, db') ∧ P id db' := by
  obtain ⟨id, db', answer, rest⟩ := h
  refine ⟨id, db', ?_, rest⟩
  rw [perform_sql]
  simp only [syntheticSub] at answer
  simp only [Stmt.exec, answer]
  rfl

variable (env) in
/-- `auth_google` resolves the identity. -/
theorem googleAccount_directory (h : Directory ledger db) {claims : GoogleClaims}
    (real : claims.sub ≠ syntheticSub) :
    ∃ id db', (googleAccount claims).perform env db = (.ok id, db') ∧
      Directory (⟨.google claims.sub, id⟩ :: ledger) db' ∧ Settled db db' := by
  unfold googleAccount
  rw [perform_bind, perform_sql]
  obtain ⟨rekeyed, accompanied⟩ | ⟨id, db', rekeyed, done⟩ :=
    rekeyBootstrap_directory env h real claims.email
  · rw [rekeyed]
    exact upsertAccount_result (upsertAccount_directory h claims.email
      (fun a mem same => same ▸ h.consistent.visit_google mem (same ▸ real))
      fun unknown => h.consistent.add_google real unknown accompanied db.supply)
  · rw [rekeyed]
    exact ⟨id, db', rfl, done⟩

variable (env) in
/-- The only account is adopted; otherwise nothing happens. -/
theorem adoptOwner_directory (h : Directory ledger db)
    (unflagged : ∀ a ∈ db.accountKeys, a.owner = false) :
    (Stmt.exec env .adoptOwner db = (.ok none, db) ∧ db.accountKeys.length ≠ 1) ∨
    ∃ id db', Stmt.exec env .adoptOwner db = (.ok (some id), db') ∧
      Directory (⟨.bootstrap, id⟩ :: ledger) db' ∧ Settled db db' := by
  simp only [Stmt.exec]
  split <;> rename_i rows
  · rename_i a
    have keys : db.accountKeys = [a.accountKey] := by rw [Db.accountKeys, rows]; rfl
    have consistent := h.consistent
    rw [keys] at consistent unflagged
    have adopted := consistent.adopt (unflagged _ (List.mem_singleton_self _))
    have keys' : ({ db with
        accounts := db.accounts.updateWhere (fun b => decide (b.id = a.id))
          (fun b => { b with isBootstrapOwner := true }) (fun _ => rfl) } : Db).accountKeys =
          [{ a.accountKey with owner := true }] := by
      simp [Db.accountKeys, Table.updateWhere, rows, Account.accountKey]
    have beside : BesideAccounts db { db with
        accounts := db.accounts.updateWhere (fun b => decide (b.id = a.id))
          (fun b => { b with isBootstrapOwner := true }) (fun _ => rfl) } :=
      ⟨rfl, rfl, rfl, le_rfl⟩
    refine .inr ⟨a.id, _, rfl, ?_, ?_⟩
    · refine beside.directory h
        (keys' ▸ adopted.visit_bootstrap (List.mem_singleton_self _) (.inl rfl)) ?_
      rw [keys', List.forall_mem_singleton]
      exact h.accountIds a.accountKey (by rw [keys]; exact List.mem_singleton_self _)
    · refine beside.settled ?_
      rw [keys, keys', List.forall_mem_singleton]
      exact ⟨_, List.mem_singleton_self _, rfl⟩
  · refine .inl ⟨rfl, fun one => ?_⟩
    rw [Db.accountKeys, List.length_map, List.length_eq_one_iff] at one
    obtain ⟨a, eq⟩ := one
    exact rows a eq

variable (env) in
/-- `auth_bootstrap` resolves the token. -/
theorem bootstrapAccount_directory (h : Directory ledger db) :
    ∃ id db', bootstrapAccount.perform env db = (.ok id, db') ∧
      Directory (⟨.bootstrap, id⟩ :: ledger) db' ∧ Settled db db' := by
  unfold bootstrapAccount
  rw [perform_bind, perform_sql]
  simp only [Stmt.exec]
  cases found : db.accounts.rows.find? Account.isBootstrapOwner with
  | some a =>
      have mem : a ∈ db.accounts.rows := List.mem_of_find?_eq_some found
      have flagged : a.isBootstrapOwner = true := List.find?_some found
      refine ⟨a.id, db, rfl, ⟨?_, h.accountIds, h.deviceIds⟩, .refl db⟩
      exact h.consistent.visit_bootstrap (a := a.accountKey) (List.mem_map_of_mem mem)
        (.inl flagged)
  | none =>
      have unflagged : ∀ a ∈ db.accountKeys, a.owner = false := by
        intro a mem
        obtain ⟨row, there, rfl⟩ := List.mem_map.mp mem
        simpa [Account.accountKey] using List.find?_eq_none.mp found row there
      simp only [Option.map_none, Except.mapError, perform_andThen_ok]
      rw [perform_bind, perform_sql]
      obtain ⟨adopted, several⟩ | ⟨id, db', adopted, done⟩ :=
        adoptOwner_directory env h unflagged
      · rw [adopted]
        refine insertBootstrapAccount_result (upsertAccount_directory h "personal@sentinel.local"
          (fun a mem same => h.consistent.visit_bootstrap mem (.inr same)) fun unknown => ?_)
        cases rows : db.accounts.rows with
        | nil =>
            have keys : db.accountKeys = [] := by rw [Db.accountKeys, rows]; rfl
            have consistent := h.consistent
            rw [keys] at consistent ⊢
            exact (consistent.first_synthetic db.supply).visit_bootstrap
              (List.mem_singleton_self _) (.inl rfl)
        | cons a rest =>
            have two : 2 ≤ db.accountKeys.length := by
              rw [Db.accountKeys, List.length_map, rows, List.length_cons] at several ⊢
              omega
            exact (h.consistent.add_synthetic two unflagged unknown db.supply).visit_bootstrap
              (List.mem_append_right _ (List.mem_singleton_self _)) (.inr rfl)
      · rw [adopted]
        exact ⟨id, db', rfl, done⟩

theorem exists_account {a : AccountKey} (mem : a ∈ db.accountKeys) :
    ∃ row, db.accounts.find? a.id = some row := by
  obtain ⟨row, there, rfl⟩ := List.mem_map.mp mem
  exact ⟨row, Table.find?_of_mem there⟩

variable (env) in
/-- A new device of an existing account. -/
theorem insertDevice_directory (h : Directory ledger db) {account : Uuid}
    (exists_ : db.hasAccount account = true) (name : String) (platform : Platform)
    (status : DeviceStatus) :
    ∃ db', Stmt.exec env (.insertDevice account name platform status) db = (.ok db.supply, db') ∧
      Directory ledger db' ∧ Settled db db' ∧ db'.accounts = db.accounts := by
  have free : db.devices.find? db.supply = none := by
    rw [Table.find?_eq_none_iff]
    intro d there
    exact Nat.ne_of_lt (h.deviceIds d there)
  simp only [Stmt.exec, exists_, if_true]
  split <;> rename_i inserted
  · refine ⟨_, rfl, ⟨h.consistent, ?_, ?_⟩, ⟨?_, rfl, rfl, fun a mem => ⟨a, mem, rfl⟩, ?_⟩, rfl⟩
    · exact fun a mem => Nat.lt_succ_of_lt (h.accountIds a mem)
    · rw [Table.rows_of_insert inserted]
      refine List.forall_mem_append.mpr ⟨fun d there => Nat.lt_succ_of_lt (h.deviceIds d there), ?_⟩
      simp
    · intro d there
      rw [Table.rows_of_insert inserted]
      exact List.mem_append_left _ there
    · exact Nat.le_succ _
  · rw [Table.insert_eq_none_iff, free] at inserted
    exact absurd rfl inserted

theorem sparesDirectory_of_isMonitor {q : Stmt} (h : q.isMonitor = true) :
    q.sparesDirectory = true := by
  simp [Stmt.sparesDirectory, h]

theorem guard_spares (caller : Caller) (action : LimitAction) (max : Nat) (secs : Int) :
    (guard env caller action max secs).Within (fun q => q.sparesDirectory = true) fun _ => True :=
  (guard_within env caller action max secs).mono (fun _ => sparesDirectory_of_isMonitor)
    fun _ _ => trivial

theorem validDevice_spares (device : DeviceReq) :
    (validDevice device).Within (fun q => q.sparesDirectory = true) fun _ => True := by
  unfold validDevice
  split <;> simp

/-- A refused sign-in. -/
theorem rejected_spares {α : Type} (account : Option Uuid) (kind : EventKind) (ip : String)
    (e : ApiError) :
    (do record env account kind ip none
        maybeAutoban env ip
        throw e : Handler α).Within (fun q => q.sparesDirectory = true) fun _ => False := by
  simp only [record, within_bind, within_sqlIgnore]
  exact ⟨rfl, (maybeAutoban_within env ip).mono (fun _ => sparesDirectory_of_isMonitor)
    fun _ _ => (within_throw _).mpr trivial⟩

variable (env) in
theorem mintSession_spares (account device : Uuid) (parent : Option Uuid) :
    (mintSession env account device parent).Within (fun q => q.sparesDirectory = true)
      fun resp => resp.accessToken.sub = account := by
  simp only [mintSession, nowSecs, issueAccess, issue, mintRefresh, within_bind, within_sql,
    within_pure]
  simp [Stmt.sparesDirectory, Stmt.readOnly]

/-- What one sign-in does: its visit joins the ledger. -/
def Extends (ledger : List Visit) (db : Db) (visits : List Visit) (db' : Db) : Prop :=
  Directory (visits ++ ledger) db' ∧ Settled db db'

theorem extends_of_spared {identity : Option Identity} {h : Handler Response}
    {post : Response → Prop} (before : Directory ledger db)
    (within : h.Within (fun q => q.sparesDirectory = true) post)
    (silent : ∀ resp, post resp → visit identity (.ok resp) = []) :
    Extends ledger db (visit identity (h.perform env db).1) (h.perform env db).2 := by
  obtain ⟨same, answers⟩ := within.performs Quiet.refl Quiet.trans
    (fun q db spares => Quiet.exec env spares db) db
  have none_ : visit identity (h.perform env db).1 = [] := by
    cases answer : (h.perform env db).1 with
    | error e => cases identity <;> rfl
    | ok resp => exact silent resp (answers resp answer)
  rw [none_]
  exact ⟨before.quiet same, same.settled⟩

/-- A part that spares the directory can be passed over. -/
theorem extends_spared {α : Type} {identity : Option Identity} {m : Handler α}
    {f : α → Handler Response} (before : Directory ledger db)
    (within : m.Within (fun q => q.sparesDirectory = true) fun _ => True)
    (rest : ∀ a db', Directory ledger db' →
      Extends ledger db' (visit identity ((f a).perform env db').1) ((f a).perform env db').2) :
    Extends ledger db (visit identity ((m >>= f).perform env db).1)
      ((m >>= f).perform env db).2 := by
  obtain ⟨e, db', same, done⟩ | ⟨a, db', same, -, done⟩ :=
    perform_spared (f := f) within env db
  · rw [done]
    refine ⟨?_, same.settled⟩
    cases identity <;> exact before.quiet same
  · rw [done]
    obtain ⟨after, settled⟩ := rest a db' (before.quiet same)
    exact ⟨after, same.settled.trans settled⟩

theorem authGoogle_extends (before : Directory ledger db) (caller : Caller) (req : GoogleReq)
    (real : ∀ claims, env.googleVerify req.idToken = some claims → claims.sub ≠ syntheticSub) :
    Extends ledger db ((SignIn.google caller req).step env db).1
      ((SignIn.google caller req).step env db).2 := by
  simp only [SignIn.step, authGoogle]
  refine extends_spared before (guard_spares ..) fun ip db before => ?_
  refine extends_spared before (validDevice_spares _) fun platform db before => ?_
  cases verified : env.googleVerify req.idToken with
  | none => exact extends_of_spared before (rejected_spares ..) (by simp)
  | some claims =>
      simp only [Option.map_some]
      obtain ⟨id, db₁, resolved, directory, settled⟩ :=
        googleAccount_directory env before (real claims verified)
      rw [perform_bind, resolved, perform_andThen_ok]
      have visited := directory.consistent.google claims.sub id List.mem_cons_self
      obtain ⟨-, a, mem, rfl, -⟩ := visited
      obtain ⟨row, found⟩ := exists_account mem
      obtain ⟨db₂, inserted, directory, settled', accounts⟩ := insertDevice_directory env
        directory (by rw [Db.hasAccount, found]; rfl) req.device.name platform .pending
      rw [perform_bind, perform_sql, inserted]
      have known : db₂.accounts.find? a.id = some row := by rw [accounts, found]
      simp only [Except.mapError, perform_andThen_ok, perform_bind, perform_sql, Stmt.exec, known,
        nowSecs, issuePending, issue, perform_pure]
      have same : ∀ issued, Quiet db₂ { db₂ with issued } :=
        fun _ => ⟨rfl, rfl, rfl, rfl, le_rfl⟩
      exact ⟨directory.quiet (same _), settled.trans (settled'.trans (same _).settled)⟩

/-- The ledger may leave out a visit with the bootstrap token. -/
theorem Directory.forget {account : Uuid} (h : Directory (⟨.bootstrap, account⟩ :: ledger) db) :
    Directory ledger db where
  consistent :=
    { subs := h.consistent.subs
      owner := h.consistent.owner
      synthetic := h.consistent.synthetic
      keyed := by
        intro a mem own
        obtain now | before := List.mem_cons.mp (h.consistent.keyed a mem own)
        · cases now
        · exact before
      google := fun sub account visited =>
        h.consistent.google sub account (List.mem_cons_of_mem _ visited)
      bootstrap := fun account visited =>
        h.consistent.bootstrap account (List.mem_cons_of_mem _ visited) }
  accountIds := h.accountIds
  deviceIds := h.deviceIds

variable (env) in
/-- The session after the bootstrap token was resolved; it may not come about. -/
theorem signIn_extends {account : Uuid} (before : Directory (⟨.bootstrap, account⟩ :: ledger) db)
    (name : String) (platform : Platform) (ip detail : String) :
    Extends ledger db
      (visit (some .bootstrap) ((signIn env account name platform ip detail).perform env db).1)
      ((signIn env account name platform ip detail).perform env db).2 := by
  obtain ⟨a, mem, rfl, -⟩ := before.consistent.bootstrap account List.mem_cons_self
  obtain ⟨row, found⟩ := exists_account mem
  obtain ⟨db₁, inserted, directory, settled, -⟩ := insertDevice_directory env
    before (by rw [Db.hasAccount, found]; rfl) name platform .approved
  unfold signIn
  rw [perform_bind, perform_sql, inserted]
  simp only [Except.mapError, perform_andThen_ok]
  obtain ⟨e, db₂, same, done⟩ | ⟨resp, db₂, same, own, done⟩ := perform_spared
    (f := fun tokens => do
      record env (some a.id) .loginOk ip (some detail)
      pure (Response.tokens tokens))
    (mintSession_spares env a.id db.supply none) env db₁
  · rw [done]
    exact ⟨(directory.quiet same).forget, settled.trans same.settled⟩
  · rw [done]
    have recorded := Quiet.exec env
      (q := .record (some a.id) .loginOk (env.parseIp ip) (some detail)) rfl db₂
    have answer : ((do
        record env (some a.id) .loginOk ip (some detail)
        pure (Response.tokens resp) : Handler Response)).perform env db₂ =
          (.ok (.tokens resp),
            (Stmt.exec env (.record (some a.id) .loginOk (env.parseIp ip) (some detail)) db₂).2) :=
      rfl
    rw [answer]
    have visited : visit (some .bootstrap) (.ok (.tokens resp)) = [⟨.bootstrap, a.id⟩] := by
      rw [← own]
      rfl
    rw [visited]
    exact ⟨directory.quiet (same.trans recorded),
      settled.trans (same.trans recorded).settled⟩

theorem authBootstrap_extends (before : Directory ledger db) (caller : Caller)
    (req : BootstrapReq) :
    Extends ledger db ((SignIn.bootstrap caller req).step env db).1
      ((SignIn.bootstrap caller req).step env db).2 := by
  simp only [SignIn.step, authBootstrap]
  refine extends_spared before (guard_spares ..) fun ip db before => ?_
  refine extends_spared before (by simp [within_okOr]) fun expected db before => ?_
  split
  · refine extends_spared before (validDevice_spares _) fun platform db before => ?_
    obtain ⟨id, db₁, resolved, directory, settled⟩ :=
      bootstrapAccount_directory env before
    rw [perform_bind, resolved, perform_andThen_ok]
    obtain ⟨after, settled'⟩ := signIn_extends env directory req.device.name platform ip
      "bootstrap"
    exact ⟨after, settled.trans settled'⟩
  · exact extends_of_spared before (rejected_spares ..) (by simp)

/-- One step of a run. -/
theorem SignIn.step_extends (before : Directory ledger db)
    (real : ∀ token claims, env.googleVerify token = some claims → claims.sub ≠ syntheticSub)
    (s : SignIn) : Extends ledger db (s.step env db).1 (s.step env db).2 := by
  cases s with
  | google caller req => exact authGoogle_extends before caller req fun c v => real _ c v
  | bootstrap caller req => exact authBootstrap_extends before caller req
  | wait elapsed =>
      have same : Quiet db (tick elapsed db) := ⟨rfl, rfl, rfl, rfl, le_rfl⟩
      exact ⟨before.quiet same, same.settled⟩

/-- A run, step by step from its end. -/
theorem signIns_append (env : Env) (db : Db) (past : List SignIn) (s : SignIn) :
    signIns env db (past ++ [s]) =
      ((s.step env (signIns env db past).2).1 ++ (signIns env db past).1,
        (s.step env (signIns env db past).2).2) := by
  rw [signIns, List.foldl_append]
  rfl

theorem signIns_directory (start : Directory [] db)
    (real : ∀ token claims, env.googleVerify token = some claims → claims.sub ≠ syntheticSub)
    (steps : List SignIn) : Directory (signIns env db steps).1 (signIns env db steps).2 := by
  induction steps using List.reverseRecOn with
  | nil => exact start
  | append_singleton past s ih =>
      rw [signIns_append]
      exact (SignIn.step_extends ih real s).1

theorem signIns_settled (start : Directory [] db)
    (real : ∀ token claims, env.googleVerify token = some claims → claims.sub ≠ syntheticSub)
    (past rest : List SignIn) :
    Settled (signIns env db past).2 (signIns env db (past ++ rest)).2 := by
  induction rest using List.reverseRecOn with
  | nil => rw [List.append_nil]; exact .refl _
  | append_singleton rest s ih =>
      rw [← List.append_assoc, signIns_append]
      exact ih.trans (SignIn.step_extends (signIns_directory start real _) real s).2

end Resolve

/-- A personal server that accepts one Google token. The draws differ in length. -/
def personalServer : Env :=
  { Env.bare with
    bootstrapToken := some "secret"
    random := fun draw _ => List.replicate draw 0
    urlSafe := fun b => String.ofList (b.map fun _ => 'A')
    sha256 := id
    googleVerify := fun token =>
      if token = "id-token" then some ⟨"1001", "me@example.com"⟩ else none }

/-- The bootstrap token first, then Google, then the token again. -/
def personalSignIns : List SignIn :=
  [.bootstrap ⟨none, none⟩ ⟨"secret", ⟨"desktop", "linux"⟩⟩,
    .google ⟨none, none⟩ ⟨"id-token", ⟨"phone", "ios"⟩⟩,
    .wait 60,
    .bootstrap ⟨none, none⟩ ⟨"secret", ⟨"laptop", "macos"⟩⟩]

end Sentinel.Api
