import Sentinel.Api.Security

/-!
# Request handlers

`routes.rs`, handler by handler. A base64 field of a body is represented by the
bytes it decodes to, with `none` for text that is not base64, and an encoded field
of a response by the bytes it encodes. `Response` has one constructor per body the
handlers answer with; `noContent` is `204`.

`Request` lists the routes with a database behind them, and `handle` dispatches.
-/

namespace Sentinel.Api

open Handler

/-- One entry of `GET /v1/devices`. -/
structure DeviceView where
  id : Uuid
  name : String
  platform : Platform
  status : DeviceStatus
  phonePub : Option Bytes
  createdAt : Int
  current : Bool
  deriving DecidableEq, Repr

/-- One entry of `GET /v1/transfers`. -/
structure TransferView where
  id : Uuid
  senderDevice : Uuid
  recipientDevice : Option Uuid
  sizeBytes : Int
  state : TransferState
  createdAt : Int
  expiresAt : Int
  deleteOnDownload : Bool
  permanent : Bool
  outgoing : Bool
  deriving DecidableEq, Repr

/-- One entry of `GET /v1/security-events`. -/
structure EventView where
  id : Uuid
  kind : EventKind
  ip : Option Ip
  detail : Option String
  createdAt : Int
  deriving DecidableEq, Repr

/-- `TokensResp`. -/
structure TokensResp where
  accessToken : AccessClaims
  refreshToken : String
  expiresIn : Int
  deriving DecidableEq, Repr

/-- The request fields an unlock answer repeats. -/
structure UnlockMeta where
  kind : UnlockKind
  phoneDevice : Uuid
  requestPayload : Bytes
  deriving DecidableEq, Repr

inductive Response where
  | ok
  | noContent
  | pendingResp (pendingToken : AccessClaims) (totpRequired : Bool)
  | enrollResp (otpauthUri secretBase32 : String)
  | tokens (resp : TokensResp)
  | passwordParams (salt : Bytes) (mKib t p : Nat)
  | vault (version : Int) (ciphertext : Bytes)
  | version (version : Int)
  | wrappedKey (wrapperType : Int) (blob : Bytes)
  | enrollCode (code : String) (expiresAt : Int)
  | devices (list : List DeviceView)
  | created (id : Uuid)
  | unlock (state : UnlockState) (request : Option UnlockMeta) (response : Option Bytes)
  | transfers (list : List TransferView)
  | transferBlob (senderDevice : Uuid) (sizeBytes : Int) (ciphertext : Bytes)
  | events (list : List EventView)
  | summary (last24h : List (EventKind × Nat)) (bannedActive : Nat) (autobanEnabled : Bool)
  deriving DecidableEq, Repr

structure DeviceReq where
  name : String
  platform : String
  deriving DecidableEq, Repr

/-- `valid_platform`, as the parser of the column's values. -/
def parsePlatform : String → Option Platform
  | "windows" => some .windows
  | "macos" => some .macos
  | "linux" => some .linux
  | "ios" => some .ios
  | _ => none

/-- The check at the head of the sign-in handlers. -/
def validDevice (device : DeviceReq) : Handler Platform :=
  if 64 < device.name.utf8ByteSize then throw (.badRequest "invalid device")
  else okOr (parsePlatform device.platform) (.badRequest "invalid device")

/-- `mint_session`. -/
def mintSession (env : Env) (account device : Uuid) (parent : Option Uuid) :
    Handler TokensResp := do
  let now ← nowSecs
  let access ← issueAccess account device now
  let refresh ← mintRefresh env
  let today ← sql .now
  sql (.insertRefresh account device refresh.hash parent (today + days 30))
  pure { accessToken := access, refreshToken := refresh.token, expiresIn := 600 }

/-- `require_approved_device`. -/
def requireApprovedDevice (device : Uuid) : Handler Unit := do
  let status ← sql (.deviceStatus device)
  let status ← okOr status .unauthorized
  ensure (decide (status = .approved)) .forbidden

def healthz : Handler Response := do
  let _ ← sql .now
  pure .ok

structure GoogleReq where
  idToken : String
  device : DeviceReq
  deriving DecidableEq, Repr

/-- Re-key the bootstrap account, or upsert by the identity. -/
def googleAccount (claims : GoogleClaims) : Handler Uuid := do
  let rekeyed ← sql (.rekeyBootstrap claims.sub claims.email)
  match rekeyed with
  | some id => pure id
  | none => sql (.upsertAccount claims.sub claims.email)

def authGoogle (env : Env) (caller : Caller) (req : GoogleReq) : Handler Response := do
  let ip ← guard env caller .authGoogle 10 60
  let platform ← validDevice req.device
  match env.googleVerify req.idToken with
  | none => do
      record env none .googleReject ip none
      maybeAutoban env ip
      throw .unauthorized
  | some claims => do
      let account ← googleAccount claims
      let device ← sql (.insertDevice account req.device.name platform .pending)
      let totpConfirmed ← sql (.totpConfirmedAt account)
      let now ← nowSecs
      let pendingToken ← issuePending account device now
      pure (.pendingResp pendingToken totpConfirmed.isNone)

structure BootstrapReq where
  token : String
  device : DeviceReq
  deriving DecidableEq, Repr

/-- The flagged owner, else the only account, else the synthetic account. -/
def bootstrapAccount : Handler Uuid := do
  let flagged ← sql .flaggedOwner
  match flagged with
  | some id => pure id
  | none => do
      let adopted ← sql .adoptOwner
      match adopted with
      | some id => pure id
      | none => sql .insertBootstrapAccount

/-- A device that starts approved, its session, and the `login_ok` event. -/
def signIn (env : Env) (account : Uuid) (name : String) (platform : Platform) (ip detail : String) :
    Handler Response := do
  let device ← sql (.insertDevice account name platform .approved)
  let tokens ← mintSession env account device none
  record env (some account) .loginOk ip (some detail)
  pure (.tokens tokens)

def authBootstrap (env : Env) (caller : Caller) (req : BootstrapReq) : Handler Response := do
  let ip ← guard env caller .authBootstrap 10 60
  let expected ← okOr env.bootstrapToken .unauthorized
  if constantTimeEq (utf8 req.token) (utf8 expected) then do
    let platform ← validDevice req.device
    let account ← bootstrapAccount
    signIn env account req.device.name platform ip "bootstrap"
  else do
    record env none .loginFailBootstrap ip none
    maybeAutoban env ip
    throw .unauthorized

def totpEnroll (env : Env) (bearer : Option AccessClaims) : Handler Response := do
  let p ← verifyPending bearer
  let secret ← sql (.randomBytes 20)
  let enc ← sealSecret env secret
  let email ← sql (.accountEmail p.account)
  sql (.setTotpSecret enc p.account)
  pure (.enrollResp (otpauthUri secret email "SENTINEL") (base32Encode secret))

/-- The lockout check at the head of `check_totp_code`. -/
def enforceLockout (env : Env) (account : Uuid) (ip : String) : Handler Unit := do
  let locked ← sql (.lockedUntil account)
  match locked with
  | none => pure ()
  | some until_ => do
      let now ← sql .now
      if now < until_ then do
        record env (some account) .totpLockout ip none
        throw .lockedOut
      else pure ()

/-- `check_totp_code`. -/
def checkTotpCode (env : Env) (account : Uuid) (ip code : String) : Handler Unit := do
  enforceLockout env account ip
  let enc ← sql (.totpSecretEnc account)
  let enc ← okOr enc (.badRequest "totp not enrolled")
  let secret ← okOr (openSecret env enc) .internal
  let now ← nowSecs
  if totpVerifyCode env secret code now then sql (.clearLockout account)
  else do
    sql (.bumpLockout account)
    record env (some account) .totpFail ip none
    maybeAutoban env ip
    throw .unauthorized

def totpVerify (env : Env) (caller : Caller) (bearer : Option AccessClaims) (code : String) :
    Handler Response := do
  let p ← verifyPending bearer
  let ip ← guard env caller (.totp p.account) 10 60
  checkTotpCode env p.account ip code
  sql (.confirmTotp p.account)
  sql (.approveByTotp p.device)
  let tokens ← mintSession env p.account p.device none
  record env (some p.account) .loginOk ip (some "totp")
  pure (.tokens tokens)

/-- `pw_auth_account`. -/
def pwAuthAccount : Handler (Uuid × Bytes × Bytes) := do
  let rows ← sql .pwAuthRows
  match rows with
  | [] => throw .notFound
  | [row] => pure row
  | _ => throw (.badRequest
      "multiple accounts have password sign-in on this server — sign in with Google")

def passwordParams (env : Env) (caller : Caller) : Handler Response := do
  let _ ← guard env caller .pwParams 30 60
  let row ← pwAuthAccount
  pure (.passwordParams row.2.1 65536 3 4)

structure PasswordEnrollReq where
  salt : Option Bytes
  verifier : Option Bytes
  deriving DecidableEq, Repr

def passwordEnroll (env : Env) (bearer : Option AccessClaims) (req : PasswordEnrollReq) :
    Handler Response := do
  let a ← verifyAccess bearer
  requireApprovedDevice a.device
  let salt ← okOr req.salt (.badRequest "bad salt")
  let verifier ← okOr req.verifier (.badRequest "bad verifier")
  ensure (decide (salt.length = 16 ∧ verifier.length = 32))
    (.badRequest "salt must be 16 bytes, verifier 32")
  sql (.setPwAuth salt (env.sha256 verifier) a.account)
  pure .noContent

structure PasswordAuthReq where
  proof : Option Bytes
  code : Option String
  device : DeviceReq
  deriving DecidableEq, Repr

/-- The second factor of `auth_password`, when the account has one. -/
def passwordSecondFactor (env : Env) (account : Uuid) (ip : String) (code : Option String) :
    Handler Unit := do
  let totpOn ← sql (.totpConfirmedAt account)
  if totpOn.isSome then do
    let code ← okOr ((code.map trim).filter fun c => decide (c ≠ "")) (.badRequest "totp_required")
    checkTotpCode env account ip code
  else pure ()

def authPassword (env : Env) (caller : Caller) (req : PasswordAuthReq) : Handler Response := do
  let ip ← guard env caller .authPassword 10 60
  let platform ← validDevice req.device
  let row ← pwAuthAccount
  let proof ← okOr req.proof (.badRequest "bad proof")
  if constantTimeEq (env.sha256 proof) row.2.2 then do
    passwordSecondFactor env row.1 ip req.code
    signIn env row.1 req.device.name platform ip "password"
  else do
    record env (some row.1) .loginFailPassword ip none
    maybeAutoban env ip
    throw .unauthorized

def authRefresh (env : Env) (caller : Caller) (refreshToken : String) : Handler Response := do
  let ip ← guard env caller .authRefresh 30 60
  let row ← sql (.findRefresh (hashRefresh env refreshToken))
  let token ← okOr row .unauthorized
  if token.revokedAt.isSome then do
    -- reuse detection: a revoked token being replayed means the chain is compromised
    sql (.revokeChain token.account token.device)
    record env (some token.account) .refreshReuse ip none
    maybeAutoban env ip
    throw .unauthorized
  else do
    let now ← sql .now
    ensure (decide (now ≤ token.expiresAt)) .unauthorized
    sql (.revokeToken token.id)
    let tokens ← mintSession env token.account token.device (some token.id)
    pure (.tokens tokens)

def authLogout (bearer : Option AccessClaims) : Handler Response := do
  let a ← verifyAccess bearer
  sql (.logoutDevice a.account a.device)
  pure .noContent

def vaultGet (bearer : Option AccessClaims) : Handler Response := do
  let a ← verifyAccess bearer
  requireApprovedDevice a.device
  let row ← sql (.vaultRow a.account)
  match row with
  | none => pure .noContent
  | some (version, ciphertext) => pure (.vault version ciphertext)

/-- The `If-Match` header: quotes trimmed, then parsed. -/
def ifMatchVersion (header : Option String) : Option Int :=
  header.bind fun s => parseI64 (trimMatches (fun c => decide (c = '"')) s)

/-- The compare and the write of `vault_put`, after its input checks. -/
def vaultStore (a : Auth) (ifMatch : Int) (ct : Bytes) : Handler Response := do
  let current ← sql (.vaultVersion a.account)
  match current with
  | none => do
      ensure (decide (ifMatch = 0)) (.versionConflict 0)
      sql (.insertVault a.account ct a.device)
      pure (.version 1)
  | some v => do
      ensure (decide (ifMatch = v)) (.versionConflict v)
      -- the trigger backstops the +1 rule
      sql (.updateVault a.account ct a.device)
      pure (.version (v + 1))

/-- `vault_put` of an authenticated caller. -/
def vaultPutAs (a : Auth) (ifMatch : Option String) (ciphertext : Option Bytes) :
    Handler Response := do
  requireApprovedDevice a.device
  let ifMatch ← okOr (ifMatchVersion ifMatch) (.badRequest "If-Match header required")
  let ct ← okOr ciphertext (.badRequest "ciphertext_b64 not base64")
  ensure (decide (32 ≤ ct.length ∧ ct.length ≤ 33554432))
    (.badRequest "ciphertext size out of range")
  vaultStore a ifMatch ct

def vaultPut (bearer : Option AccessClaims) (ifMatch : Option String) (ciphertext : Option Bytes) :
    Handler Response := do
  let a ← verifyAccess bearer
  vaultPutAs a ifMatch ciphertext

def wrappedGet (bearer : Option AccessClaims) (wt : Int) : Handler Response := do
  let a ← verifyAccess bearer
  requireApprovedDevice a.device
  let blob ← sql (.wrappedBlob a.account wt)
  let blob ← okOr blob .notFound
  pure (.wrappedKey wt blob)

structure WrappedPutReq where
  blob : Option Bytes
  deviceId : Option Uuid
  deriving DecidableEq, Repr

def wrappedPut (bearer : Option AccessClaims) (wt : Int) (req : WrappedPutReq) :
    Handler Response := do
  let a ← verifyAccess bearer
  requireApprovedDevice a.device
  ensure (decide (1 ≤ wt ∧ wt ≤ 4)) (.badRequest "wrapper_type must be 1..4")
  let blob ← okOr req.blob (.badRequest "blob_b64 not base64")
  ensure (decide (80 ≤ blob.length ∧ blob.length ≤ 512 ∧ blob.take 4 = utf8 "SNTL"))
    (.badRequest "invalid wrapped-key blob")
  sql (.upsertWrapped a.account wt req.deviceId blob)
  pure .noContent

def wrappedDelete (bearer : Option AccessClaims) (wt : Int) : Handler Response := do
  let a ← verifyAccess bearer
  requireApprovedDevice a.device
  sql (.deleteWrapped a.account wt)
  pure .noContent

def adminUpdate (env : Env) (bearer : Option AccessClaims) : Handler Response := do
  let a ← verifyAccess bearer
  requireApprovedDevice a.device
  ensure env.updateFlagDir (.badRequest
    "this server predates in-place updates — redeploy it once to get the updater")
  sql .writeUpdateFlag
  pure .noContent

def enrollCodeMint (env : Env) (caller : Caller) (bearer : Option AccessClaims) :
    Handler Response := do
  let a ← verifyAccess bearer
  requireApprovedDevice a.device
  rateLimit env caller (.enrollMint a.account) 10 3600
  let minted ← mintRefresh env
  let expires ← sql (.insertEnrollCode a.account minted.hash)
  pure (.enrollCode minted.token (unixTimestamp expires))

structure EnrollReq where
  code : String
  device : DeviceReq
  deriving DecidableEq, Repr

def authEnroll (env : Env) (caller : Caller) (req : EnrollReq) : Handler Response := do
  let ip ← guard env caller .authEnroll 10 60
  let platform ← validDevice req.device
  let account ← sql (.consumeEnrollCode (hashRefresh env (trim req.code)))
  match account with
  | none => do
      record env none .enrollFail ip none
      maybeAutoban env ip
      throw .unauthorized
  | some account => signIn env account req.device.name platform ip "enroll"

def Device.view (a : Auth) (d : Device) : DeviceView where
  id := d.id
  name := d.name
  platform := d.platform
  status := d.status
  phonePub := d.phonePubP256
  createdAt := unixTimestamp d.createdAt
  current := decide (d.id = a.device)

def devicesList (bearer : Option AccessClaims) : Handler Response := do
  let a ← verifyAccess bearer
  let rows ← sql (.devicesOf a.account)
  pure (.devices (rows.map (Device.view a)))

def deviceApprove (bearer : Option AccessClaims) (id : Uuid) : Handler Response := do
  let a ← verifyAccess bearer
  requireApprovedDevice a.device
  let n ← sql (.approveDevice a.device id a.account)
  ensure (decide (n ≠ 0)) .notFound
  pure .noContent

def deviceRevoke (bearer : Option AccessClaims) (id : Uuid) : Handler Response := do
  let a ← verifyAccess bearer
  requireApprovedDevice a.device
  sql (.revokeDevice id a.account)
  sql (.revokeDeviceTokens id)
  pure .noContent

def devicePin (bearer : Option AccessClaims) (phonePub : Option Bytes) : Handler Response := do
  let a ← verifyAccess bearer
  let pubKey ← okOr phonePub (.badRequest "phone_pub not base64")
  ensure (decide (pubKey.length = 65 ∧ pubKey.head? = some 4))
    (.badRequest "phone_pub must be a 65-byte SEC1 uncompressed point")
  let n ← sql (.pinDevice pubKey a.device a.account)
  ensure (decide (n ≠ 0)) (.badRequest "only an iOS device can pin a key")
  pure .noContent

structure UnlockCreateReq where
  phoneDevice : Uuid
  kind : String
  requestPayload : Option Bytes
  deriving DecidableEq, Repr

def parseUnlockKind : String → Option UnlockKind
  | "unlock" => some .unlock
  | "new_device" => some .newDevice
  | _ => none

def unlockCreate (env : Env) (caller : Caller) (bearer : Option AccessClaims)
    (req : UnlockCreateReq) : Handler Response := do
  let a ← verifyAccess bearer
  requireApprovedDevice a.device
  rateLimit env caller (.unlock a.account) 5 60
  let kind ← okOr (parseUnlockKind req.kind) (.badRequest "bad kind")
  let payload ← okOr req.requestPayload (.badRequest "payload not base64")
  ensure (decide (payload.length ≤ 4096)) (.badRequest "payload too large")
  let id ← sql (.insertUnlock a.account a.device req.phoneDevice kind payload)
  pure (.created id)

/-- The request fields a poll repeats in its answer. -/
def UnlockRequest.requestMeta (u : UnlockRequest) : UnlockMeta where
  kind := u.kind
  phoneDevice := u.phoneDevice
  requestPayload := u.requestPayload

/-- The state a poll reports for the row it read. A pending row past its expiry is
marked expired first, by a statement of its own. -/
def settleExpiry (id : Uuid) (row : UnlockRequest) : Handler UnlockState :=
  if row.state = .pending then do
    let now ← sql .now
    if row.expiresAt < now then do
      sql (.expireUnlock id)
      pure .expired
    else pure .pending
  else pure row.state

/-- The long-poll loop, with the number of rounds left and the fields carried out
of the last round. -/
def pollUnlock (account id : Uuid) : Nat → Option UnlockMeta → Handler Response
  | 0, request => pure (.unlock .pending request none)
  | rounds + 1, _ => do
      let row ← sql (.unlockRow id account)
      let row ← okOr row .notFound
      let state ← settleExpiry id row
      if state = .pending then pollUnlock account id rounds (some row.requestMeta)
      else pure (.unlock state (some row.requestMeta) row.responsePayload)

def unlockGet (bearer : Option AccessClaims) (id : Uuid) : Handler Response := do
  let a ← verifyAccess bearer
  pollUnlock a.account id 3 none

structure UnlockRespondReq where
  state : String
  /-- Absent, or a base64 text: `some none` is text that does not decode. -/
  responsePayload : Option (Option Bytes)
  deriving DecidableEq, Repr

def parseAnswer : String → Option UnlockState
  | "approved" => some .approved
  | "denied" => some .denied
  | _ => none

/-- The optional payload of an answer, decoded and bounded. -/
def answerPayload : Option (Option Bytes) → Handler (Option Bytes)
  | none => pure none
  | some none => throw (.badRequest "payload not base64")
  | some (some r) => do
      ensure (decide (r.length ≤ 4096)) (.badRequest "payload too large")
      pure (some r)

def unlockRespond (bearer : Option AccessClaims) (id : Uuid) (req : UnlockRespondReq) :
    Handler Response := do
  let a ← verifyAccess bearer
  requireApprovedDevice a.device
  let state ← okOr (parseAnswer req.state) (.badRequest "state must be approved|denied")
  let payload ← answerPayload req.responsePayload
  let n ← sql (.respondUnlock state payload id a.account a.device)
  ensure (decide (n ≠ 0)) .forbidden
  pure .noContent

def pushRegister (bearer : Option AccessClaims) (token : String) : Handler Response := do
  let a ← verifyAccess bearer
  ensure (decide (token.utf8ByteSize ≤ 512)) (.badRequest "token too long")
  sql (.setPushToken token a.device a.account)
  pure .noContent

def transferMaxCiphertext : Nat := 25 * 1024 * 1024

def transferMaxPendingBytes : Int := 250 * 1024 * 1024

structure TransferCreateReq where
  recipientDevice : Option Uuid
  sizeBytes : Int
  ciphertext : Option Bytes
  deleteOnDownload : Bool := false
  permanent : Bool := false
  ttlDays : Option Int
  deriving DecidableEq, Repr

/-- Days until expiry: about a century for a permanent transfer, else the caller's
choice clamped to a year. -/
def TransferCreateReq.retention (req : TransferCreateReq) : Int :=
  if req.permanent then 36500 else max 1 (min 365 (req.ttlDays.getD 1))

/-- A named recipient must be one of the account's own devices. -/
def checkRecipient (account : Uuid) : Option Uuid → Handler Unit
  | none => pure ()
  | some r => do
      let known ← sql (.deviceInAccount r account)
      ensure known (.badRequest "unknown recipient device")

def transferCreate (env : Env) (caller : Caller) (bearer : Option AccessClaims)
    (req : TransferCreateReq) : Handler Response := do
  let a ← verifyAccess bearer
  requireApprovedDevice a.device
  rateLimit env caller (.transfer a.account) 20 3600
  let ct ← okOr req.ciphertext (.badRequest "ciphertext not base64")
  ensure (decide (ct ≠ [] ∧ ct.length ≤ transferMaxCiphertext))
    (.badRequest "file too large (25 MiB max)")
  ensure (decide (0 ≤ req.sizeBytes)) (.badRequest "bad size")
  checkRecipient a.account req.recipientDevice
  let used ← sql (.liveTransferBytes a.account)
  ensure (decide (used + ct.length ≤ transferMaxPendingBytes))
    (.badRequest "storage quota exceeded — delete old transfers")
  let id ← sql (.insertTransfer a.account a.device req.recipientDevice req.sizeBytes ct
    req.retention req.deleteOnDownload req.permanent)
  pure (.created id)

def FileTransfer.view (a : Auth) (t : FileTransfer) : TransferView where
  id := t.id
  senderDevice := t.senderDevice
  recipientDevice := t.recipientDevice
  sizeBytes := t.sizeBytes
  state := t.state
  createdAt := unixTimestamp t.createdAt
  expiresAt := unixTimestamp t.expiresAt
  deleteOnDownload := t.deleteOnDownload
  permanent := t.permanent
  outgoing := decide (t.senderDevice = a.device)

def transferList (bearer : Option AccessClaims) : Handler Response := do
  let a ← verifyAccess bearer
  sql (.expireTransfers a.account)
  let rows ← sql (.transfersFor a.account a.device)
  pure (.transfers (rows.map (FileTransfer.view a)))

/-- The lazy expiry of `transfer_download`. -/
def expireOnDownload (id : Uuid) (row : FileTransfer) : Handler Unit :=
  if row.permanent then pure ()
  else do
    let now ← sql .now
    if row.expiresAt < now then do
      sql (.expireTransfer id)
      throw .notFound
    else pure ()

/-- A recipient's download consumes the transfer or marks it delivered; the
sender's own changes nothing. -/
def settleDownload (a : Auth) (id : Uuid) (row : FileTransfer) : Handler Unit :=
  if row.senderDevice = a.device then pure ()
  else if row.deleteOnDownload then sql (.consumeTransfer id)
  else sql (.markDelivered id)

def transferDownload (bearer : Option AccessClaims) (id : Uuid) : Handler Response := do
  let a ← verifyAccess bearer
  let row ← sql (.transferRow id a.account)
  let row ← okOr row .notFound
  expireOnDownload id row
  ensure (row.visibleTo a.device) .forbidden
  settleDownload a id row
  pure (.transferBlob row.senderDevice row.sizeBytes row.ciphertext)

def transferDelete (bearer : Option AccessClaims) (id : Uuid) : Handler Response := do
  let a ← verifyAccess bearer
  let n ← sql (.deleteTransfer id a.account a.device)
  ensure (decide (n ≠ 0)) .notFound
  pure .noContent

def SecurityEvent.view (e : SecurityEvent) : EventView where
  id := e.id
  kind := e.kind
  ip := e.ip
  detail := e.detail
  createdAt := unixTimestamp e.createdAt

def securityEventsList (bearer : Option AccessClaims) (since limit : Option Int) :
    Handler Response := do
  let _ ← verifyAccess bearer
  let rows ← sql (.eventsSince (since.getD 0) (max 1 (min 500 (limit.getD 100))).toNat)
  pure (.events (rows.map SecurityEvent.view))

def securitySummary (env : Env) (bearer : Option AccessClaims) : Handler Response := do
  let _ ← verifyAccess bearer
  let counts ← sql .eventCounts
  let active ← sql .activeBans
  pure (.summary counts active (decide (0 < env.autobanThreshold)))

def securityBan (env : Env) (bearer : Option AccessClaims) (ip : String) (minutes : Option Int) :
    Handler Response := do
  let _ ← verifyAccess bearer
  ban env ip minutes
  pure .noContent

def securityUnban (env : Env) (bearer : Option AccessClaims) (ip : String) : Handler Response := do
  let _ ← verifyAccess bearer
  unban env ip
  pure .noContent

/-- A request of the router: route, extracted headers, path parameters and body. -/
inductive Request where
  | healthz
  | authGoogle (caller : Caller) (req : GoogleReq)
  | authBootstrap (caller : Caller) (req : BootstrapReq)
  | totpEnroll (bearer : Option AccessClaims)
  | totpVerify (caller : Caller) (bearer : Option AccessClaims) (code : String)
  | authRefresh (caller : Caller) (refreshToken : String)
  | authLogout (bearer : Option AccessClaims)
  | vaultGet (bearer : Option AccessClaims)
  | vaultPut (bearer : Option AccessClaims) (ifMatch : Option String) (ciphertext : Option Bytes)
  | wrappedGet (bearer : Option AccessClaims) (wt : Int)
  | wrappedPut (bearer : Option AccessClaims) (wt : Int) (req : WrappedPutReq)
  | wrappedDelete (bearer : Option AccessClaims) (wt : Int)
  | enrollCodeMint (caller : Caller) (bearer : Option AccessClaims)
  | authEnroll (caller : Caller) (req : EnrollReq)
  | passwordParams (caller : Caller)
  | passwordEnroll (bearer : Option AccessClaims) (req : PasswordEnrollReq)
  | authPassword (caller : Caller) (req : PasswordAuthReq)
  | devicesList (bearer : Option AccessClaims)
  | devicePin (bearer : Option AccessClaims) (phonePub : Option Bytes)
  | deviceApprove (bearer : Option AccessClaims) (id : Uuid)
  | deviceRevoke (bearer : Option AccessClaims) (id : Uuid)
  | unlockCreate (caller : Caller) (bearer : Option AccessClaims) (req : UnlockCreateReq)
  | unlockGet (bearer : Option AccessClaims) (id : Uuid)
  | unlockRespond (bearer : Option AccessClaims) (id : Uuid) (req : UnlockRespondReq)
  | pushRegister (bearer : Option AccessClaims) (token : String)
  | transferList (bearer : Option AccessClaims)
  | transferCreate (caller : Caller) (bearer : Option AccessClaims) (req : TransferCreateReq)
  | transferDownload (bearer : Option AccessClaims) (id : Uuid)
  | transferDelete (bearer : Option AccessClaims) (id : Uuid)
  | adminUpdate (bearer : Option AccessClaims)
  | securityEventsList (bearer : Option AccessClaims) (since limit : Option Int)
  | securitySummary (bearer : Option AccessClaims)
  | securityBan (bearer : Option AccessClaims) (ip : String) (minutes : Option Int)
  | securityUnban (bearer : Option AccessClaims) (ip : String)
  deriving DecidableEq

/-- `router`. -/
def handle (env : Env) : Request → Handler Response
  | .healthz => healthz
  | .authGoogle caller req => authGoogle env caller req
  | .authBootstrap caller req => authBootstrap env caller req
  | .totpEnroll bearer => totpEnroll env bearer
  | .totpVerify caller bearer code => totpVerify env caller bearer code
  | .authRefresh caller refreshToken => authRefresh env caller refreshToken
  | .authLogout bearer => authLogout bearer
  | .vaultGet bearer => vaultGet bearer
  | .vaultPut bearer ifMatch ciphertext => vaultPut bearer ifMatch ciphertext
  | .wrappedGet bearer wt => wrappedGet bearer wt
  | .wrappedPut bearer wt req => wrappedPut bearer wt req
  | .wrappedDelete bearer wt => wrappedDelete bearer wt
  | .enrollCodeMint caller bearer => enrollCodeMint env caller bearer
  | .authEnroll caller req => authEnroll env caller req
  | .passwordParams caller => passwordParams env caller
  | .passwordEnroll bearer req => passwordEnroll env bearer req
  | .authPassword caller req => authPassword env caller req
  | .devicesList bearer => devicesList bearer
  | .devicePin bearer phonePub => devicePin bearer phonePub
  | .deviceApprove bearer id => deviceApprove bearer id
  | .deviceRevoke bearer id => deviceRevoke bearer id
  | .unlockCreate caller bearer req => unlockCreate env caller bearer req
  | .unlockGet bearer id => unlockGet bearer id
  | .unlockRespond bearer id req => unlockRespond bearer id req
  | .pushRegister bearer token => pushRegister bearer token
  | .transferList bearer => transferList bearer
  | .transferCreate caller bearer req => transferCreate env caller bearer req
  | .transferDownload bearer id => transferDownload bearer id
  | .transferDelete bearer id => transferDelete bearer id
  | .adminUpdate bearer => adminUpdate env bearer
  | .securityEventsList bearer since limit => securityEventsList bearer since limit
  | .securitySummary bearer => securitySummary env bearer
  | .securityBan bearer ip minutes => securityBan env bearer ip minutes
  | .securityUnban bearer ip => securityUnban env bearer ip

end Sentinel.Api
