import Sentinel.Api.Auth
import Sentinel.Vault.Envelope

/-!
# One-time codes

`crates/core/src/totp.rs`: the codes of vault items and of the app lock. A secret is an
`otpauth://` address or a bare base-32 text; the hash functions and the parser of addresses
are third-party code.
-/

namespace Sentinel.Vault

inductive TotpAlgo where
  | sha1 | sha256 | sha512
  deriving DecidableEq, Repr

/-- `TotpSecret`. -/
structure TotpSecret where
  raw : Bytes
  algo : TotpAlgo
  digits : Nat
  period : Nat
  deriving DecidableEq, Repr

/-- The third-party code under one-time codes. `queryPairs` is `Url::parse` and the query of
the address it parsed. -/
structure TotpEngine where
  hmac : TotpAlgo → Bytes → Bytes → Bytes
  queryPairs : String → Option (List (String × String))

/-- The value of a base-32 character, in either case. -/
def base32Value (c : Char) : Option Nat :=
  Api.base32Alphabet.findIdx? fun d => decide (d = c.toUpper)

/-- One character: the low bits of the buffer that are not yet written, their number, the
output. -/
def base32Push : UInt32 × Nat × Bytes → Nat → UInt32 × Nat × Bytes
  | (buffer, bits, out), val =>
      let buffer := (buffer <<< 5) ||| UInt32.ofNat val
      if 8 ≤ bits + 5 then
        (buffer, bits + 5 - 8, out ++ [(buffer >>> UInt32.ofNat (bits + 5 - 8)).toUInt8])
      else (buffer, bits + 5, out)

def base32Decode (s : String) : Except String Bytes := do
  let chars := s.toList.filter fun c => decide (c ≠ '=') && !Api.isWhitespace c
  let vals ← (chars.mapM base32Value).elim
    (.error "invalid input: invalid base32 in TOTP secret") .ok
  let (_, _, out) := vals.foldl base32Push (0, 0, [])
  if out = [] then throw "invalid input: empty TOTP secret"
  pure out

namespace TotpSecret

/-- What one parameter of the address changes. -/
def queryParam : Option Bytes × TotpAlgo × Nat × Nat → String × String →
    Except String (Option Bytes × TotpAlgo × Nat × Nat)
  | (secret, algo, digits, period), (k, v) =>
      match k with
      | "secret" => do pure (some (← base32Decode v), algo, digits, period)
      | "algorithm" =>
          let algo := match v.map Char.toUpper with
            | "SHA256" => TotpAlgo.sha256
            | "SHA512" => .sha512
            | _ => .sha1
          .ok (secret, algo, digits, period)
      | "digits" => .ok (secret, algo, (parseUnsigned v (2 ^ 8)).getD 6, period)
      | "period" => .ok (secret, algo, digits, (parseUnsigned v (2 ^ 32)).getD 30)
      | _ => .ok (secret, algo, digits, period)
where
  /-- `str::parse` of an unsigned type below the bound. -/
  parseUnsigned (v : String) (bound : Nat) : Option Nat :=
    (Api.parseDigits (match v.toList with | '+' :: cs => cs | cs => cs)).filter
      fun n => decide (n < bound)

def parseUri (e : TotpEngine) (uri : String) : Except String TotpSecret := do
  let pairs ← (e.queryPairs uri).elim (.error "invalid input: bad otpauth uri") .ok
  let (secret, algo, digits, period) ← pairs.foldlM queryParam (none, .sha1, 6, 30)
  let raw ← secret.elim (.error "invalid input: otpauth uri missing secret") .ok
  pure { raw, algo, digits, period }

/-- `TotpSecret::parse`. -/
def parse (e : TotpEngine) (input : String) : Except String TotpSecret :=
  if "otpauth://".toList.isPrefixOf input.toList then parseUri e input
  else do
    let raw ← base32Decode input
    pure { raw, algo := .sha1, digits := 6, period := 30 }

/-- The decimal digits of a number, padded with zeros to a width. -/
def padded (width n : Nat) : String :=
  let digits := (Nat.repr n).toList
  String.ofList (List.replicate (width - digits.length) '0' ++ digits)

/-- `code_at`: dynamic truncation of the HMAC of the time step. The power of ten is taken in 32
bits. Where `codePanics`, there is no code. -/
def codeAt (e : TotpEngine) (t : TotpSecret) (unix : Nat) : String :=
  let digest := e.hmac t.algo t.raw (Api.toBeBytes (unix / t.period))
  let byte : Nat → Nat := fun i => (digest.getD i 0).toNat
  let offset := byte (digest.length - 1) % 16
  let bin := byte offset % 128 * 2 ^ 24 + byte (offset + 1) * 2 ^ 16 + byte (offset + 2) * 2 ^ 8 +
    byte (offset + 3)
  padded t.digits (bin % (10 ^ t.digits % 2 ^ 32))

/-- `code_at` divides by the period and by a power of ten, which overflows 32 bits where the build
checks for that. -/
def codePanics (overflowChecks : Bool) (t : TotpSecret) : Bool :=
  decide (t.period = 0) || (overflowChecks && decide (2 ^ 32 ≤ 10 ^ t.digits)) ||
    decide (10 ^ t.digits % 2 ^ 32 = 0)

/-- `verify_at`: the current time step and its two neighbours. -/
def verifyAt (e : TotpEngine) (t : TotpSecret) (code : String) (unix : Nat) : Bool :=
  let code := Api.trim code
  [-1, 0, 1].any fun step : Int =>
    decide (Api.utf8 (t.codeAt e (max 0 ((unix : Int) + step * t.period)).toNat) = Api.utf8 code)

end TotpSecret

end Sentinel.Vault
