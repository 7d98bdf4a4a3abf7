import Sentinel.Api.Schema
import Mathlib

/-!
# Atomic statements of the server

`Stmt` lists every SQL statement of `routes.rs` and `security.rs`, one constructor
per statement text with its bound parameters, and the few steps a handler takes on
process state: reading the clock, drawing random bytes, the rate limiter's critical
section, signing a token and checking a signature. `Stmt.exec` is their effect;
`now()` is the clock at the moment the statement runs.

A constraint that can fail on a client's input (a foreign key to a device, a taken
primary or unique key, a `bigint` or time out of range, the version trigger) is part of the
statement. Length checks that the handler repeats before the statement are not.
-/

namespace Sentinel.Api

open Relational

/-- `sqlx::Error`, as far as `ApiError::from` distinguishes it. -/
inductive SqlError where
  | rowNotFound
  | constraint
  deriving DecidableEq, Repr

inductive Stmt where
  -- process state
  | now
  | randomBytes (n : Nat)
  | limiterCheck (key : LimitKey) (max : Nat) (window : Time)
  | issueToken (claims : AccessClaims)
  | tokenIssued (claims : AccessClaims)
  | writeUpdateFlag
  -- attack monitor
  | isBanned (ip : Ip)
  | record (account : Option Uuid) (kind : EventKind) (ip : Option Ip) (detail : Option String)
  | countFailures (ip : Ip) (windowSecs : Int)
  | ownerSeen (ip : Ip)
  | autoban (ip : Ip) (reason : String) (mins : Int)
  | banFor (ip : Ip) (mins : Int)
  | banForever (ip : Ip)
  | unban (ip : Ip)
  | eventsSince (since : Int) (limit : Nat)
  | eventCounts
  | activeBans
  -- accounts
  | rekeyBootstrap (sub email : String)
  | upsertAccount (sub email : String)
  | flaggedOwner
  | adoptOwner
  | insertBootstrapAccount
  | accountEmail (account : Uuid)
  | totpConfirmedAt (account : Uuid)
  | totpSecretEnc (account : Uuid)
  | setTotpSecret (enc : Bytes) (account : Uuid)
  | confirmTotp (account : Uuid)
  | pwAuthRows
  | setPwAuth (salt hash : Bytes) (account : Uuid)
  -- lockouts
  | lockedUntil (account : Uuid)
  | bumpLockout (account : Uuid)
  | clearLockout (account : Uuid)
  -- devices
  | insertDevice (account : Uuid) (name : String) (platform : Platform) (status : DeviceStatus)
  | deviceStatus (device : Uuid)
  | approveByTotp (device : Uuid)
  | devicesOf (account : Uuid)
  | approveDevice (approver id account : Uuid)
  | revokeDevice (id account : Uuid)
  | pinDevice (pubKey : Bytes) (id account : Uuid)
  | setPushToken (token : String) (id account : Uuid)
  | deviceInAccount (id account : Uuid)
  -- refresh tokens
  | insertRefresh (account device : Uuid) (hash : Bytes) (parent : Option Uuid) (expires : Time)
  | findRefresh (hash : Bytes)
  | revokeChain (account device : Uuid)
  | revokeToken (id : Uuid)
  | logoutDevice (account device : Uuid)
  | revokeDeviceTokens (device : Uuid)
  -- vaults and wrapped keys
  | vaultRow (account : Uuid)
  | vaultVersion (account : Uuid)
  | insertVault (account : Uuid) (ct : Bytes) (device : Uuid)
  | updateVault (account : Uuid) (ct : Bytes) (device : Uuid)
  | wrappedBlob (account : Uuid) (wrapperType : Int)
  | upsertWrapped (account : Uuid) (wrapperType : Int) (device : Option Uuid) (blob : Bytes)
  | deleteWrapped (account : Uuid) (wrapperType : Int)
  -- enrollment codes
  | insertEnrollCode (account : Uuid) (hash : Bytes)
  | consumeEnrollCode (hash : Bytes)
  -- unlock relay
  | insertUnlock (account desktop phone : Uuid) (kind : UnlockKind) (payload : Bytes)
  | unlockRow (id account : Uuid)
  | expireUnlock (id : Uuid)
  | respondUnlock (state : UnlockState) (payload : Option Bytes) (id account phone : Uuid)
  -- file transfers
  | liveTransferBytes (account : Uuid)
  | insertTransfer (account sender : Uuid) (recipient : Option Uuid) (size : Int) (ct : Bytes)
      (ttlDays : Int) (deleteOnDownload permanent : Bool)
  | expireTransfers (account : Uuid)
  | transfersFor (account device : Uuid)
  | transferRow (id account : Uuid)
  | expireTransfer (id : Uuid)
  | consumeTransfer (id : Uuid)
  | markDelivered (id : Uuid)
  | deleteTransfer (id account device : Uuid)
  deriving DecidableEq

/-- What a statement returns to the handler: the selected columns, or the number
of affected rows where the handler looks at it. -/
@[reducible] def Stmt.Result : Stmt → Type
  | .now => Time
  | .randomBytes _ => Bytes
  | .limiterCheck .. | .tokenIssued _ | .isBanned _ | .ownerSeen _ | .deviceInAccount .. => Bool
  | .countFailures .. | .activeBans => Nat
  | .approveDevice .. | .pinDevice .. | .respondUnlock .. | .deleteTransfer .. => Nat
  | .eventsSince .. => List SecurityEvent
  | .eventCounts => List (EventKind × Nat)
  | .rekeyBootstrap .. | .flaggedOwner | .adoptOwner | .consumeEnrollCode _ => Option Uuid
  | .upsertAccount .. | .insertBootstrapAccount | .insertDevice .. | .insertUnlock ..
  | .insertTransfer .. => Uuid
  | .accountEmail _ => String
  | .totpConfirmedAt _ | .lockedUntil _ => Option Time
  | .totpSecretEnc _ | .wrappedBlob .. => Option Bytes
  | .pwAuthRows => List (Uuid × Bytes × Bytes)
  | .deviceStatus _ => Option DeviceStatus
  | .devicesOf _ => List Device
  | .findRefresh _ => Option RefreshToken
  | .vaultRow _ => Option (Int × Bytes)
  | .vaultVersion _ => Option Int
  | .insertEnrollCode .. => Time
  | .unlockRow .. => Option UnlockRequest
  | .liveTransferBytes _ => Int
  | .transfersFor .. => List FileTransfer
  | .transferRow .. => Option FileTransfer
  | _ => Unit

namespace Db

def hasAccount (db : Db) (account : Uuid) : Bool := (db.accounts.find? account).isSome

def hasDevice (db : Db) (device : Uuid) : Bool := (db.devices.find? device).isSome

/-- `RateLimiter::check` on the hits of one key: the retained hits are stored back
whether or not the call is allowed. -/
def checkLimit (db : Db) (key : LimitKey) (max : Nat) (window : Time) : Bool × List Time :=
  let hits := (db.limiter key).filter fun t => decide (db.clock - t < window)
  if hits.length ≥ max then (false, hits) else (true, hits ++ [db.clock])

/-- `security_events` row for `security::record`. -/
def recorded (db : Db) (account : Option Uuid) (kind : EventKind) (ip : Option Ip)
    (detail : Option String) : Db :=
  { db with
    securityEvents := db.securityEvents ++
      [{ id := db.supply, account, kind, ip, detail, createdAt := db.clock }]
    supply := db.supply + 1 }

/-- `FAILURE_KINDS`. -/
def failureKinds : List EventKind :=
  [.loginFailBootstrap, .googleReject, .totpFail, .refreshReuse]

/-- The ban row written by `maybe_autoban` and `ban`; an existing row keeps its
creation time. -/
def banned (db : Db) (ip : Ip) (reason : String) (bannedUntil : Option Time) : Db :=
  { db with
    bannedIps := db.bannedIps.insertOr { ip, reason, bannedUntil, createdAt := db.clock }
      (fun b => { b with reason, bannedUntil }) (fun _ => rfl) }

/-- Insert an account, with the fresh id as the statement's `RETURNING id`. -/
def addAccount (db : Db) (googleSub email : String) (owner : Bool) :
    Except SqlError Uuid × Db :=
  match db.accounts.insert
      { id := db.supply, googleSub, email, totpSecretEnc := none, totpConfirmedAt := none
        createdAt := db.clock, isBootstrapOwner := owner, pwAuthSalt := none
        pwAuthHash := none } with
  | none => (.error .constraint, db)
  | some accounts => (.ok db.supply, { db with accounts, supply := db.supply + 1 })

/-- `ON CONFLICT (google_sub) DO UPDATE SET email`. -/
def upsertAccount (db : Db) (googleSub email : String) (owner : Bool) :
    Except SqlError Uuid × Db :=
  match db.accounts.rows.find? fun a => decide (a.googleSub = googleSub) with
  | some a =>
      (.ok a.id,
        { db with
          accounts := db.accounts.updateWhere (fun b => decide (b.id = a.id))
            (fun b => { b with email }) (fun _ => rfl) })
  | none => db.addAccount googleSub email owner

/-- Bytes of an account's live transfers. -/
def liveBytes (db : Db) (account : Uuid) : Int :=
  ((db.fileTransfers.rows.filter fun t =>
    decide (t.account = account ∧ t.state ≠ .expired ∧ db.clock < t.expiresAt)).map
      fun t => (t.ciphertext.length : Int)).sum

end Db

/-- The trigger `vault_version_monotonic`. -/
def vaultVersionMonotonic (old new : VaultRow) : Bool := decide (new.version = old.version + 1)

/-- The largest `bigint`. -/
def maxBigint : Int := 2 ^ 63 - 1

/-- The beginning of the range of `timestamptz`. -/
def startTimestamp : Time := -210866803200000000

/-- The end of the range of `timestamptz`. -/
def endTimestamp : Time := 9224318016000000000

/-- Arithmetic on times fails outside the range. -/
def inTimestampRange (t : Time) : Bool := decide (startTimestamp ≤ t ∧ t < endTimestamp)

/-- May this device see or delete the transfer? The disjunction in the `WHERE`
clauses of `transfer_list` and `transfer_delete`. -/
def FileTransfer.visibleTo (t : FileTransfer) (device : Uuid) : Bool :=
  decide (t.senderDevice = device ∨ t.recipientDevice = none ∨ t.recipientDevice = some device)

namespace Stmt

/-- The effect of one statement. -/
def exec (env : Env) : (q : Stmt) → Db → Except SqlError q.Result × Db
  | .now, db => (.ok db.clock, db)
  | .randomBytes n, db => (.ok (env.random db.supply n), { db with supply := db.supply + 1 })
  | .limiterCheck key max window, db =>
      let (allowed, hits) := db.checkLimit key max window
      (.ok allowed, { db with limiter := fun k => if k = key then hits else db.limiter k })
  | .issueToken claims, db => (.ok (), { db with issued := db.issued ++ [claims] })
  | .tokenIssued claims, db => (.ok (decide (claims ∈ db.issued)), db)
  | .writeUpdateFlag, db => (.ok (), { db with updateRequested := true })
  | .isBanned ip, db =>
      (.ok (db.bannedIps.rows.any fun b =>
        decide (b.ip = ip) && b.bannedUntil.all fun t => decide (db.clock < t)), db)
  | .record account kind ip detail, db => (.ok (), db.recorded account kind ip detail)
  | .countFailures ip windowSecs, db =>
      if inTimestampRange (db.clock - seconds windowSecs) then
        (.ok (db.securityEvents.countP fun e => decide (e.ip = some ip ∧
          db.clock - seconds windowSecs < e.createdAt ∧ e.kind ∈ Db.failureKinds)), db)
      else (.error .constraint, db)
  | .ownerSeen ip, db =>
      (.ok (db.securityEvents.any fun e => decide (e.ip = some ip ∧ e.kind = .loginOk ∧
        db.clock - days 1 < e.createdAt)), db)
  | .autoban ip reason mins, db =>
      if inTimestampRange (db.clock + minutes mins) then
        (.ok (), db.banned ip reason (some (db.clock + minutes mins)))
      else (.error .constraint, db)
  | .banFor ip mins, db =>
      if db.clock + minutes mins < endTimestamp then
        (.ok (), db.banned ip "manual" (some (db.clock + minutes mins)))
      else (.error .constraint, db)
  | .banForever ip, db => (.ok (), db.banned ip "manual" none)
  | .unban ip, db =>
      (.ok (), { db with bannedIps := db.bannedIps.deleteWhere fun b => decide (b.ip = ip) })
  | .eventsSince since limit, db =>
      (.ok (((db.securityEvents.filter fun e => decide (seconds since < e.createdAt)).insertionSort
        fun a b => b.createdAt ≤ a.createdAt).take limit), db)
  | .eventCounts, db =>
      let recent := db.securityEvents.filter fun e => decide (db.clock - days 1 < e.createdAt)
      (.ok ((recent.map SecurityEvent.kind).dedup.map fun k =>
        (k, recent.countP fun e => decide (e.kind = k))), db)
  | .activeBans, db =>
      (.ok (db.bannedIps.countWhere fun b => b.bannedUntil.all fun t => decide (db.clock < t)), db)
  | .rekeyBootstrap sub email, db =>
      match db.accounts.rows.find? fun a => decide (a.googleSub = "bootstrap:local") with
      | some a =>
          if db.accounts.rows.any fun b => decide (b.googleSub ≠ "bootstrap:local") then
            (.ok none, db)
          else
            (.ok (some a.id),
              { db with
                accounts := db.accounts.updateWhere (fun b => decide (b.id = a.id))
                  (fun b => { b with googleSub := sub, email }) (fun _ => rfl) })
      | none => (.ok none, db)
  | .upsertAccount sub email, db => db.upsertAccount sub email false
  | .flaggedOwner, db => (.ok ((db.accounts.rows.find? Account.isBootstrapOwner).map Account.id), db)
  | .adoptOwner, db =>
      match db.accounts.rows with
      | [a] =>
          (.ok (some a.id),
            { db with
              accounts := db.accounts.updateWhere (fun b => decide (b.id = a.id))
                (fun b => { b with isBootstrapOwner := true }) (fun _ => rfl) })
      | _ => (.ok none, db)
  | .insertBootstrapAccount, db =>
      db.upsertAccount "bootstrap:local" "personal@sentinel.local"
        (decide (db.accounts.rows.length = 0))
  | .accountEmail account, db =>
      match db.accounts.find? account with
      | some a => (.ok a.email, db)
      | none => (.error .rowNotFound, db)
  | .totpConfirmedAt account, db =>
      match db.accounts.find? account with
      | some a => (.ok a.totpConfirmedAt, db)
      | none => (.error .rowNotFound, db)
  | .totpSecretEnc account, db =>
      match db.accounts.find? account with
      | some a => (.ok a.totpSecretEnc, db)
      | none => (.error .rowNotFound, db)
  | .setTotpSecret enc account, db =>
      (.ok (),
        { db with
          accounts := db.accounts.updateWhere (fun a => decide (a.id = account))
            (fun a => { a with totpSecretEnc := some enc }) (fun _ => rfl) })
  | .confirmTotp account, db =>
      (.ok (),
        { db with
          accounts := db.accounts.updateWhere (fun a => decide (a.id = account))
            (fun a => { a with totpConfirmedAt := some (a.totpConfirmedAt.getD db.clock) })
            (fun _ => rfl) })
  | .pwAuthRows, db =>
      (.ok (db.accounts.rows.filterMap fun a =>
        match a.pwAuthSalt, a.pwAuthHash with
        | some salt, some hash => some (a.id, salt, hash)
        | _, _ => none), db)
  | .setPwAuth salt hash account, db =>
      (.ok (),
        { db with
          accounts := db.accounts.updateWhere (fun a => decide (a.id = account))
            (fun a => { a with pwAuthSalt := some salt, pwAuthHash := some hash })
            (fun _ => rfl) })
  | .lockedUntil account, db =>
      (.ok ((db.totpLockouts.find? account).bind TotpLockout.lockedUntil), db)
  | .bumpLockout account, db =>
      if db.hasAccount account then
        (.ok (),
          { db with
            totpLockouts := db.totpLockouts.insertOr
              { account, failedCount := 1, lockedUntil := none }
              (fun l => { l with
                failedCount := l.failedCount + 1
                lockedUntil := if 5 ≤ l.failedCount + 1 then some (db.clock + minutes 15)
                  else none })
              (fun _ => rfl) })
      else (.error .constraint, db)
  | .clearLockout account, db =>
      (.ok (), { db with
        totpLockouts := db.totpLockouts.deleteWhere fun l => decide (l.account = account) })
  | .insertDevice account name platform status, db =>
      if db.hasAccount account then
        match db.devices.insert
            { id := db.supply, account, name, platform, status, phonePubP256 := none
              pushToken := none, approvedBy := none, createdAt := db.clock } with
        | some devices => (.ok db.supply, { db with devices, supply := db.supply + 1 })
        | none => (.error .constraint, db)
      else (.error .constraint, db)
  | .deviceStatus device, db => (.ok ((db.devices.find? device).map Device.status), db)
  | .approveByTotp device, db =>
      (.ok (),
        { db with
          devices := db.devices.updateWhere (fun d => decide (d.id = device))
            (fun d => { d with status := .approved }) (fun _ => rfl) })
  | .devicesOf account, db =>
      (.ok ((db.devices.rows.filter fun d => decide (d.account = account)).insertionSort
        fun a b => a.createdAt ≤ b.createdAt), db)
  | .approveDevice approver id account, db =>
      if db.hasDevice approver then
        (.ok (db.devices.countWhere fun d => decide (d.id = id ∧ d.account = account)),
          { db with
            devices := db.devices.updateWhere (fun d => decide (d.id = id ∧ d.account = account))
              (fun d => { d with status := .approved, approvedBy := some approver })
              (fun _ => rfl) })
      else (.error .constraint, db)
  | .revokeDevice id account, db =>
      (.ok (),
        { db with
          devices := db.devices.updateWhere (fun d => decide (d.id = id ∧ d.account = account))
            (fun d => { d with status := .revoked }) (fun _ => rfl) })
  | .pinDevice pubKey id account, db =>
      (.ok (db.devices.countWhere fun d =>
          decide (d.id = id ∧ d.account = account ∧ d.platform = .ios)),
        { db with
          devices := db.devices.updateWhere
            (fun d => decide (d.id = id ∧ d.account = account ∧ d.platform = .ios))
            (fun d => { d with phonePubP256 := some pubKey }) (fun _ => rfl) })
  | .setPushToken token id account, db =>
      (.ok (),
        { db with
          devices := db.devices.updateWhere (fun d => decide (d.id = id ∧ d.account = account))
            (fun d => { d with pushToken := some token }) (fun _ => rfl) })
  | .deviceInAccount id account, db =>
      (.ok (db.devices.rows.any fun d => decide (d.id = id ∧ d.account = account)), db)
  | .insertRefresh account device hash parent expires, db =>
      if db.hasAccount account && db.hasDevice device &&
          !db.refreshTokens.rows.any (fun t => decide (t.tokenHash = hash)) &&
          parent.all (fun p => (db.refreshTokens.find? p).isSome) then
        match db.refreshTokens.insert
            { id := db.supply, account, device, tokenHash := hash, parent, expiresAt := expires
              revokedAt := none, createdAt := db.clock } with
        | some refreshTokens => (.ok (), { db with refreshTokens, supply := db.supply + 1 })
        | none => (.error .constraint, db)
      else (.error .constraint, db)
  | .findRefresh hash, db =>
      (.ok (db.refreshTokens.rows.find? fun t => decide (t.tokenHash = hash)), db)
  | .revokeChain account device, db =>
      (.ok (),
        { db with
          refreshTokens := db.refreshTokens.updateWhere
            (fun t => decide (t.account = account ∧ t.device = device))
            (fun t => { t with revokedAt := some db.clock }) (fun _ => rfl) })
  | .revokeToken id, db =>
      (.ok (),
        { db with
          refreshTokens := db.refreshTokens.updateWhere (fun t => decide (t.id = id))
            (fun t => { t with revokedAt := some db.clock }) (fun _ => rfl) })
  | .logoutDevice account device, db =>
      (.ok (),
        { db with
          refreshTokens := db.refreshTokens.updateWhere
            (fun t => decide (t.account = account ∧ t.device = device ∧ t.revokedAt = none))
            (fun t => { t with revokedAt := some db.clock }) (fun _ => rfl) })
  | .revokeDeviceTokens device, db =>
      (.ok (),
        { db with
          refreshTokens := db.refreshTokens.updateWhere
            (fun t => decide (t.device = device ∧ t.revokedAt = none))
            (fun t => { t with revokedAt := some db.clock }) (fun _ => rfl) })
  | .vaultRow account, db =>
      (.ok ((db.vaults.find? account).map fun v => (v.version, v.ciphertext)), db)
  | .vaultVersion account, db => (.ok ((db.vaults.find? account).map VaultRow.version), db)
  | .insertVault account ct device, db =>
      if db.hasAccount account && db.hasDevice device then
        match db.vaults.insert
            { account, version := 1, ciphertext := ct, updatedAt := db.clock
              updatedBy := some device } with
        | some vaults => (.ok (), { db with vaults })
        | none => (.error .constraint, db)
      else (.error .constraint, db)
  | .updateVault account ct device, db =>
      let set : VaultRow → VaultRow := fun v =>
        { v with
          version := v.version + 1, ciphertext := ct, updatedAt := db.clock
          updatedBy := some device }
      if db.hasDevice device && (db.vaults.find? account).all fun v =>
          vaultVersionMonotonic v (set v) && decide ((set v).version ≤ maxBigint) then
        (.ok (),
          { db with
            vaults := db.vaults.updateWhere (fun v => decide (v.account = account)) set
              (fun _ => rfl) })
      else (.error .constraint, db)
  | .wrappedBlob account wrapperType, db =>
      (.ok ((db.wrappedKeys.rows.find? fun w =>
        decide (w.account = account ∧ w.wrapperType = wrapperType)).map WrappedKey.blob), db)
  | .upsertWrapped account wrapperType device blob, db =>
      if db.hasAccount account && device.all db.hasDevice then
        (.ok (),
          { db with
            wrappedKeys := db.wrappedKeys.insertOr
              { account, wrapperType, deviceId := device, blob, createdAt := db.clock }
              (fun w => { w with blob, createdAt := db.clock }) (fun _ => rfl) })
      else (.error .constraint, db)
  | .deleteWrapped account wrapperType, db =>
      (.ok (), { db with
        wrappedKeys := db.wrappedKeys.deleteWhere fun w =>
          decide (w.account = account ∧ w.wrapperType = wrapperType) })
  | .insertEnrollCode account hash, db =>
      if db.hasAccount account && !db.enrollCodes.rows.any (fun c => decide (c.codeHash = hash)) then
        match db.enrollCodes.insert
            { id := db.supply, account, codeHash := hash, createdAt := db.clock
              expiresAt := db.clock + minutes 5, usedAt := none } with
        | some enrollCodes =>
            (.ok (db.clock + minutes 5), { db with enrollCodes, supply := db.supply + 1 })
        | none => (.error .constraint, db)
      else (.error .constraint, db)
  | .consumeEnrollCode hash, db =>
      let open_ : EnrollCode → Bool := fun c =>
        decide (c.codeHash = hash ∧ c.usedAt = none ∧ db.clock < c.expiresAt)
      (.ok ((db.enrollCodes.rows.find? open_).map EnrollCode.account),
        { db with
          enrollCodes := db.enrollCodes.updateWhere open_
            (fun c => { c with usedAt := some db.clock }) (fun _ => rfl) })
  | .insertUnlock account desktop phone kind payload, db =>
      if db.hasAccount account && db.hasDevice desktop && db.hasDevice phone then
        match db.unlockRequests.insert
            { id := db.supply, account, desktopDevice := desktop, phoneDevice := phone, kind
              requestPayload := payload, responsePayload := none, state := .pending
              createdAt := db.clock, expiresAt := db.clock + minutes 2 } with
        | some unlockRequests => (.ok db.supply, { db with unlockRequests, supply := db.supply + 1 })
        | none => (.error .constraint, db)
      else (.error .constraint, db)
  | .unlockRow id account, db =>
      (.ok ((db.unlockRequests.find? id).filter fun u => decide (u.account = account)), db)
  | .expireUnlock id, db =>
      (.ok (),
        { db with
          unlockRequests := db.unlockRequests.updateWhere (fun u => decide (u.id = id))
            (fun u => { u with state := .expired }) (fun _ => rfl) })
  | .respondUnlock state payload id account phone, db =>
      let waiting : UnlockRequest → Bool := fun u =>
        decide (u.id = id ∧ u.account = account ∧ u.phoneDevice = phone ∧ u.state = .pending)
      (.ok (db.unlockRequests.countWhere waiting),
        { db with
          unlockRequests := db.unlockRequests.updateWhere waiting
            (fun u => { u with state, responsePayload := payload }) (fun _ => rfl) })
  | .liveTransferBytes account, db => (.ok (db.liveBytes account), db)
  | .insertTransfer account sender recipient size ct ttlDays deleteOnDownload permanent, db =>
      if db.hasAccount account && db.hasDevice sender && recipient.all db.hasDevice then
        match db.fileTransfers.insert
            { id := db.supply, account, senderDevice := sender, recipientDevice := recipient
              sizeBytes := size, ciphertext := ct, state := .pending, createdAt := db.clock
              expiresAt := db.clock + days ttlDays, deleteOnDownload, permanent } with
        | some fileTransfers => (.ok db.supply, { db with fileTransfers, supply := db.supply + 1 })
        | none => (.error .constraint, db)
      else (.error .constraint, db)
  | .expireTransfers account, db =>
      (.ok (),
        { db with
          fileTransfers := db.fileTransfers.updateWhere
            (fun t => decide (t.account = account ∧ t.state ≠ .expired ∧ t.permanent = false ∧
              t.expiresAt < db.clock))
            (fun t => { t with state := .expired }) (fun _ => rfl) })
  | .transfersFor account device, db =>
      (.ok ((db.fileTransfers.rows.filter fun t =>
        decide (t.account = account ∧ t.state ≠ .expired) && t.visibleTo device).insertionSort
          fun a b => b.createdAt ≤ a.createdAt), db)
  | .transferRow id account, db =>
      (.ok ((db.fileTransfers.find? id).filter fun t =>
        decide (t.account = account ∧ t.state ≠ .expired)), db)
  | .expireTransfer id, db =>
      (.ok (),
        { db with
          fileTransfers := db.fileTransfers.updateWhere (fun t => decide (t.id = id))
            (fun t => { t with state := .expired }) (fun _ => rfl) })
  | .consumeTransfer id, db =>
      (.ok (), { db with
        fileTransfers := db.fileTransfers.deleteWhere fun t => decide (t.id = id) })
  | .markDelivered id, db =>
      (.ok (),
        { db with
          fileTransfers := db.fileTransfers.updateWhere
            (fun t => decide (t.id = id ∧ t.state = .pending))
            (fun t => { t with state := .delivered }) (fun _ => rfl) })
  | .deleteTransfer id account device, db =>
      let own : FileTransfer → Bool := fun t =>
        decide (t.id = id ∧ t.account = account) && t.visibleTo device
      (.ok (db.fileTransfers.countWhere own),
        { db with fileTransfers := db.fileTransfers.deleteWhere own })

end Stmt

end Sentinel.Api
