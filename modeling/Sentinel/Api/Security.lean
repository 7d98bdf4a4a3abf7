import Sentinel.Api.Auth

/-!
# Attack monitor and rate limiting

`security.rs` and the helpers at the end of `routes.rs`: security events, address
bans, and the guard in front of the sign-in endpoints. Recording never fails a
request: every database error here is swallowed, except in `ban` and `unban`,
which are handlers' own work.
-/

namespace Sentinel.Api

open Handler

/-- What a handler sees of the connection: the `X-Forwarded-For` header and the
textual address of the peer socket, absent under the in-process harness. -/
structure Caller where
  forwardedFor : Option String
  peer : Option String
  deriving DecidableEq, Repr

/-- The first element of a comma-separated header, trimmed. -/
def firstHop (header : String) : String :=
  trim (String.ofList (header.toList.takeWhile fun c => decide (c ≠ ',')))

/-- `client_ip`. -/
def clientIp (env : Env) (caller : Caller) : String :=
  let peer := caller.peer.getD "local"
  if env.trustForwardedFor then
    ((caller.forwardedFor.map firstHop).filter fun s => decide (s ≠ "")).getD peer
  else peer

/-- The action part of a rate-limit key. -/
def LimitAction.text : LimitAction → String
  | .authGoogle => "auth_google"
  | .authBootstrap => "auth_bootstrap"
  | .totp account => "totp:" ++ toString account
  | .pwParams => "pw_params"
  | .authPassword => "auth_password"
  | .authRefresh => "auth_refresh"
  | .enrollMint account => "enroll-mint:" ++ toString account
  | .authEnroll => "auth_enroll"
  | .unlock account => "unlock:" ++ toString account
  | .transfer account => "transfer:" ++ toString account

/-- `security::record`. -/
def record (env : Env) (account : Option Uuid) (kind : EventKind) (ip : String)
    (detail : Option String) : Handler Unit :=
  sqlIgnore (.record account kind (env.parseIp ip) detail)

/-- `security::is_banned`. -/
def isBanned (env : Env) (ip : String) : Handler Bool :=
  match env.parseIp ip with
  | none => pure false
  | some ip => sqlOr (.isBanned ip) false

/-- The reason text of an automatic ban. -/
def autobanReason (fails : Nat) : String :=
  "auto: " ++ toString fails ++ " failed attempts in window"

/-- `security::maybe_autoban`. -/
def maybeAutoban (env : Env) (ip : String) : Handler Unit :=
  if env.autobanThreshold = 0 then pure ()
  else
    match env.parseIp ip with
    | none => pure ()
    | some addr => do
        let fails ← sqlOr (.countFailures addr env.autobanWindowSecs) 0
        if fails < env.autobanThreshold then pure ()
        else do
          let owner ← sqlOr (.ownerSeen addr) false
          if owner then pure ()
          else do
            sqlIgnore (.autoban addr (autobanReason fails) env.autobanMinutes)
            record env none .autoBan ip (some (autobanReason fails))

/-- `security::ban`. -/
def ban (env : Env) (ip : String) (minutes : Option Int) : Handler Unit :=
  match env.parseIp ip with
  | none => pure ()
  | some addr =>
      match minutes with
      | some m => if 0 < m then sql (.banFor addr m) else sql (.banForever addr)
      | none => sql (.banForever addr)

/-- `security::unban`. -/
def unban (env : Env) (ip : String) : Handler Unit :=
  match env.parseIp ip with
  | none => pure ()
  | some addr => sql (.unban addr)

/-- `rate_limit`. -/
def rateLimit (env : Env) (caller : Caller) (action : LimitAction) (max : Nat) (secs : Int) :
    Handler Unit := do
  let allowed ← sql (.limiterCheck { action, ip := clientIp env caller } max (seconds secs))
  ensure allowed .rateLimited

/-- `guard`: a banned address is refused before the limiter sees it. -/
def guard (env : Env) (caller : Caller) (action : LimitAction) (max : Nat) (secs : Int) :
    Handler String := do
  let ip := clientIp env caller
  let isBlocked ← isBanned env ip
  if isBlocked then do
    record env none .bannedBlock ip (some action.text)
    throw .forbidden
  else do
    let allowed ← sql (.limiterCheck { action, ip } max (seconds secs))
    if allowed then pure ip
    else do
      record env none .rateLimited ip (some action.text)
      maybeAutoban env ip
      throw .rateLimited

end Sentinel.Api
