import Sentinel.Api.Handler

/-!
# Authentication primitives

`auth.rs` and the extractors of `state.rs`: signed access and pending tokens,
refresh tokens, time-based one-time codes, and the sealing of the TOTP secret
from `routes.rs`. A presented bearer token is the claims it carries; `none` stands
for a missing header or one that does not parse.
-/

namespace Sentinel.Api

open Handler

def accessTtlSecs : Int := 600

def pendingTtlSecs : Int := 300

/-- Clock skew `jsonwebtoken` tolerates on `exp` by default. -/
def tokenLeewaySecs : Int := 60

/-- `routes::now`: unix seconds. -/
def nowSecs : Handler Int := do
  let t ← sql .now
  pure (unixTimestamp t)

/-- `auth::issue`. -/
def issue (account device : Uuid) (now ttl : Int) (tok : TokenKind) : Handler AccessClaims := do
  let claims : AccessClaims := { sub := account, dev := device, iat := now, exp := now + ttl, tok }
  sql (.issueToken claims)
  pure claims

def issueAccess (account device : Uuid) (now : Int) : Handler AccessClaims :=
  issue account device now accessTtlSecs .access

def issuePending (account device : Uuid) (now : Int) : Handler AccessClaims :=
  issue account device now pendingTtlSecs .pending

/-- The caller an extractor hands to the handler: `Auth` and `PendingAuth`. -/
structure Auth where
  account : Uuid
  device : Uuid
  deriving DecidableEq, Repr

/-- `auth::verify_with_kind`, with the extractor around it. -/
def verifyWithKind (bearer : Option AccessClaims) (kind : TokenKind) : Handler Auth := do
  let claims ← okOr bearer .unauthorized
  let genuine ← sql (.tokenIssued claims)
  ensure genuine .unauthorized
  let now ← nowSecs
  ensure (decide (now - tokenLeewaySecs ≤ claims.exp)) .unauthorized
  ensure (decide (claims.tok = kind)) .unauthorized
  pure { account := claims.sub, device := claims.dev }

/-- The `Auth` extractor. -/
def verifyAccess (bearer : Option AccessClaims) : Handler Auth := verifyWithKind bearer .access

/-- The `PendingAuth` extractor. -/
def verifyPending (bearer : Option AccessClaims) : Handler Auth := verifyWithKind bearer .pending

/-- `auth::NewRefresh`: the text for the client and the hash for the table. -/
structure NewRefresh where
  token : String
  hash : Bytes

def hashRefresh (env : Env) (token : String) : Bytes := env.sha256 (utf8 token)

def mintRefresh (env : Env) : Handler NewRefresh := do
  let b ← sql (.randomBytes 32)
  let token := env.urlSafe b
  pure { token, hash := hashRefresh env token }

/-- `auth::constant_time_eq`. -/
def constantTimeEq (a b : Bytes) : Bool :=
  if a.length ≠ b.length then false
  else decide ((a.zip b).foldl (fun diff xy => diff ||| (xy.1 ^^^ xy.2)) (0 : UInt8) = 0)

/-- `u64::to_be_bytes`. -/
def toBeBytes (n : Nat) : Bytes := (List.range 8).map fun i => UInt8.ofNat (n / 256 ^ (7 - i))

/-- `format!("{:06}")`. -/
def sixDigits (n : Nat) : String :=
  let digits := Nat.toDigits 10 n
  String.ofList (List.replicate (6 - digits.length) '0' ++ digits)

/-- `auth::totp_code`: dynamic truncation of the HMAC of the time step. -/
def totpCode (env : Env) (secret : Bytes) (unix : Int) : String :=
  let counter := ((unix.tdiv 30) % 2 ^ 64).toNat
  let digest := env.hmacSha1 secret (toBeBytes counter)
  let byte : Nat → Nat := fun i => (digest.getD i 0).toNat
  let offset := byte (digest.length - 1) % 16
  let bin := byte offset % 128 * 2 ^ 24 + byte (offset + 1) * 2 ^ 16 + byte (offset + 2) * 2 ^ 8 +
    byte (offset + 3)
  sixDigits (bin % 1000000)

/-- `auth::totp_verify`: the current time step and its two neighbours. -/
def totpVerifyCode (env : Env) (secret : Bytes) (code : String) (unix : Int) : Bool :=
  let code := trim code
  [-1, 0, 1].any fun step =>
    constantTimeEq (utf8 (totpCode env secret (unix + step * 30))) (utf8 code)

def base32Alphabet : List Char := "ABCDEFGHIJKLMNOPQRSTUVWXYZ234567".toList

/-- The character for the low five bits. -/
def base32Char (buffer : UInt32) : Char := base32Alphabet.getD (buffer &&& 0x1f).toNat 'A'

/-- The inner `while bits >= 5` loop: what it pushes and the bits it leaves. -/
def base32Drain (buffer : UInt32) : Nat → List Char × Nat
  | bits + 5 =>
      let (rest, left) := base32Drain buffer bits
      (base32Char (buffer >>> UInt32.ofNat bits) :: rest, left)
  | bits => ([], bits)

/-- One input byte: the buffer, the number of bits in it not yet written, the output. -/
def base32Step : UInt32 × Nat × List Char → UInt8 → UInt32 × Nat × List Char
  | (buffer, bits, out), b =>
      let buffer := (buffer <<< 8) ||| b.toUInt32
      let (chars, left) := base32Drain buffer (bits + 8)
      (buffer, left, out ++ chars)

/-- `auth::base32_encode` and its copy `routes::base32`. -/
def base32Encode (data : Bytes) : String :=
  let (buffer, bits, out) := data.foldl base32Step (0, 0, [])
  String.ofList (if 0 < bits then out ++ [base32Char (buffer <<< UInt32.ofNat (5 - bits))] else out)

/-- `auth::otpauth_uri`. -/
def otpauthUri (secret : Bytes) (accountEmail issuer : String) : String :=
  "otpauth://totp/" ++ issuer ++ ":" ++ accountEmail ++ "?secret=" ++ base32Encode secret ++
    "&issuer=" ++ issuer ++ "&algorithm=SHA1&digits=6&period=30"

/-- The associated data of a sealed TOTP secret. -/
def totpAad : Bytes := utf8 "totp"

/-- `routes::seal_secret`: the nonce drawn by `crypto::seal`, then the ciphertext. -/
def sealSecret (env : Env) (secret : Bytes) : Handler Bytes := do
  let nonce ← sql (.randomBytes 24)
  pure (nonce ++ env.aeadSeal env.totpEncKey totpAad nonce secret)

/-- `routes::open_secret`. -/
def openSecret (env : Env) (blob : Bytes) : Option Bytes :=
  if blob.length < 24 then none
  else env.aeadOpen env.totpEncKey totpAad (blob.take 24) (blob.drop 24)

end Sentinel.Api
