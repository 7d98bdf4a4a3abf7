import Sentinel.Lib.Table

/-!
# The tables of the sync server

One structure per table of `services/api/migrations`, and `Db`, the state all
handlers share: the tables, the in-memory rate limiter, the clock, the supply of
random values and the tokens signed so far. Enumerated text columns are inductive
types. Ids are natural numbers: no handler looks inside one, and the nil uuid that
`wrapped_keys.device_key` stores for "no device" is `0`.

`Env` collects the configuration and the third-party functions the handlers call.
-/

namespace Sentinel.Api

open Relational

abbrev Uuid := Nat

/-- Microseconds since the epoch, the resolution of `timestamptz`. -/
abbrev Time := Int

abbrev Bytes := List UInt8

abbrev Ip := Nat

def seconds (n : Int) : Time := n * 1000000

def minutes (n : Int) : Time := seconds (60 * n)

def days (n : Int) : Time := minutes (24 * 60 * n)

/-- `OffsetDateTime::unix_timestamp`. -/
def unixTimestamp (t : Time) : Int := t / 1000000

inductive Platform where
  | windows | macos | linux | ios
  deriving DecidableEq, Repr

inductive DeviceStatus where
  | pending | approved | revoked
  deriving DecidableEq, Repr

inductive UnlockKind where
  | unlock | newDevice
  deriving DecidableEq, Repr

inductive UnlockState where
  | pending | approved | denied | expired
  deriving DecidableEq, Repr

inductive TransferState where
  | pending | delivered | expired
  deriving DecidableEq, Repr

/-- The kinds of security events the handlers record. -/
inductive EventKind where
  | loginOk | loginFailBootstrap | loginFailPassword | googleReject | totpFail | totpLockout
  | refreshReuse | rateLimited | bannedBlock | enrollFail | autoBan
  deriving DecidableEq, Repr

structure Account where
  id : Uuid
  googleSub : String
  email : String
  totpSecretEnc : Option Bytes
  totpConfirmedAt : Option Time
  createdAt : Time
  isBootstrapOwner : Bool
  pwAuthSalt : Option Bytes
  pwAuthHash : Option Bytes
  deriving DecidableEq, Repr

structure Device where
  id : Uuid
  account : Uuid
  name : String
  platform : Platform
  status : DeviceStatus
  phonePubP256 : Option Bytes
  pushToken : Option String
  approvedBy : Option Uuid
  createdAt : Time
  deriving DecidableEq, Repr

structure WrappedKey where
  account : Uuid
  wrapperType : Int
  deviceId : Option Uuid
  blob : Bytes
  createdAt : Time
  deriving DecidableEq, Repr

/-- The generated column `COALESCE(device_id, nil uuid)`. -/
def WrappedKey.deviceKey (w : WrappedKey) : Uuid := w.deviceId.getD 0

structure VaultRow where
  account : Uuid
  version : Int
  ciphertext : Bytes
  updatedAt : Time
  updatedBy : Option Uuid
  deriving DecidableEq, Repr

structure RefreshToken where
  id : Uuid
  account : Uuid
  device : Uuid
  tokenHash : Bytes
  parent : Option Uuid
  expiresAt : Time
  revokedAt : Option Time
  createdAt : Time
  deriving DecidableEq, Repr

structure TotpLockout where
  account : Uuid
  failedCount : Nat
  lockedUntil : Option Time
  deriving DecidableEq, Repr

structure UnlockRequest where
  id : Uuid
  account : Uuid
  desktopDevice : Uuid
  phoneDevice : Uuid
  kind : UnlockKind
  requestPayload : Bytes
  responsePayload : Option Bytes
  state : UnlockState
  createdAt : Time
  expiresAt : Time
  deriving DecidableEq, Repr

structure SecurityEvent where
  id : Uuid
  account : Option Uuid
  kind : EventKind
  ip : Option Ip
  detail : Option String
  createdAt : Time
  deriving DecidableEq, Repr

structure BannedIp where
  ip : Ip
  reason : String
  bannedUntil : Option Time
  createdAt : Time
  deriving DecidableEq, Repr

structure FileTransfer where
  id : Uuid
  account : Uuid
  senderDevice : Uuid
  recipientDevice : Option Uuid
  sizeBytes : Int
  ciphertext : Bytes
  state : TransferState
  createdAt : Time
  expiresAt : Time
  deleteOnDownload : Bool
  permanent : Bool
  deriving DecidableEq, Repr

structure EnrollCode where
  id : Uuid
  account : Uuid
  codeHash : Bytes
  createdAt : Time
  expiresAt : Time
  usedAt : Option Time
  deriving DecidableEq, Repr

/-- `AccessClaims.tok`. -/
inductive TokenKind where
  | access | pending
  deriving DecidableEq, Repr

/-- `AccessClaims`: the content of a signed token. `iat` and `exp` are unix seconds. -/
structure AccessClaims where
  sub : Uuid
  dev : Uuid
  iat : Int
  exp : Int
  tok : TokenKind
  deriving DecidableEq, Repr

/-- The actions rate-limit keys are built from. -/
inductive LimitAction where
  | authGoogle | authBootstrap | totp (account : Uuid) | pwParams | authPassword | authRefresh
  | enrollMint (account : Uuid) | authEnroll | unlock (account : Uuid) | transfer (account : Uuid)
  deriving DecidableEq, Repr

/-- A rate-limit key: the source formats it as `{action}:{ip}`. -/
structure LimitKey where
  action : LimitAction
  ip : String
  deriving DecidableEq, Repr

abbrev Accounts := Table Uuid Account Account.id
abbrev Devices := Table Uuid Device Device.id
abbrev WrappedKeys := Table (Uuid × Int × Uuid) WrappedKey fun w =>
  (w.account, w.wrapperType, w.deviceKey)
abbrev Vaults := Table Uuid VaultRow VaultRow.account
abbrev RefreshTokens := Table Uuid RefreshToken RefreshToken.id
abbrev TotpLockouts := Table Uuid TotpLockout TotpLockout.account
abbrev UnlockRequests := Table Uuid UnlockRequest UnlockRequest.id
abbrev BannedIps := Table Ip BannedIp BannedIp.ip
abbrev FileTransfers := Table Uuid FileTransfer FileTransfer.id
abbrev EnrollCodes := Table Uuid EnrollCode EnrollCode.id

/-- Everything the handlers share. `issued` is the ideal reading of the signing
key: a token verifies exactly when the server signed it. `supply` numbers the
draws from the random source, `limiter` is `RateLimiter.inner`, and
`updateRequested` is the flag file of the in-place updater. -/
structure Db where
  accounts : Accounts := Table.empty
  devices : Devices := Table.empty
  wrappedKeys : WrappedKeys := Table.empty
  vaults : Vaults := Table.empty
  refreshTokens : RefreshTokens := Table.empty
  totpLockouts : TotpLockouts := Table.empty
  unlockRequests : UnlockRequests := Table.empty
  securityEvents : List SecurityEvent := []
  bannedIps : BannedIps := Table.empty
  fileTransfers : FileTransfers := Table.empty
  enrollCodes : EnrollCodes := Table.empty
  limiter : LimitKey → List Time := fun _ => []
  issued : List AccessClaims := []
  updateRequested : Bool := false
  clock : Time := 0
  supply : Nat := 1

/-- `GoogleClaims`. -/
structure GoogleClaims where
  sub : String
  email : String
  deriving DecidableEq, Repr

/-- Configuration and third-party code: the digests, the AEAD of `sentinel-core`,
the identity provider, the textual address parser and the random source (draw
number and length give the bytes). -/
structure Env where
  bootstrapToken : Option String
  trustForwardedFor : Bool
  autobanThreshold : Nat
  autobanWindowSecs : Int
  autobanMinutes : Int
  updateFlagDir : Bool
  totpEncKey : Bytes
  sha256 : Bytes → Bytes
  hmacSha1 : Bytes → Bytes → Bytes
  aeadSeal : Bytes → Bytes → Bytes → Bytes → Bytes
  aeadOpen : Bytes → Bytes → Bytes → Bytes → Option Bytes
  googleVerify : String → Option GoogleClaims
  parseIp : String → Option Ip
  random : Nat → Nat → Bytes
  urlSafe : Bytes → String

end Sentinel.Api
