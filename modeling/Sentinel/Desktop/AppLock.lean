import Sentinel.Desktop.Machine
import Sentinel.Vault.Base32

/-!
# Key storage and the app lock

The key functions of `state.rs`, the commands of `applock.rs` and the unlock commands of
`commands.rs`, call by call. Three gates are optional: a master password (the file
`vault-key.wrap`), an authenticator code and Windows Hello (two flags of `settings.json`).
-/

namespace Sentinel.Desktop

open Vault Atomic

/-- `Display for keyring::Error`. -/
def KeyringError.display : KeyringError → String
  | noEntry => "No matching entry found in secure storage"
  | other detail => detail

/-- `write_atomic` on `vault-key.wrap`: a sibling file, flushed, then renamed over the
target. -/
def writeAtomic (bytes : Bytes) : Command Unit := do
  io .tmpCreate fun e => .text ("write temp: " ++ e)
  io (.tmpWrite bytes) fun e => .text ("write temp: " ++ e)
  io .tmpSync fun e => .text ("flush temp: " ++ e)
  -- Windows won't rename onto an existing file on some filesystems
  if ← sys .isWindows then
    let _ ← sys (.io .wrapRemove)
  match ← sys (.io .tmpRename) with
  | .ok () => pure ()
  | .error e =>
      let _ ← sys (.io .tmpRemove)
      Routine.throw (.text ("replace file: " ++ e))

/-- `store_key`. -/
def storeKey (vk : Key) : Command Unit := do
  io .keyEntry .text
  io (.keySet (keyText vk)) fun e => .text ("store vault key: " ++ e)

/-- `delete_key`: a missing entry is not an error. -/
def deleteKey : Command Unit := do
  io .keyEntry .text
  match ← sys .keyDelete with
  | .ok () | .error .noEntry => pure ()
  | .error e => Routine.throw (.text ("delete vault key: " ++ e.display))

/-- `sync::kc_set` on the entry of the vault key. -/
def kcSetVaultKey (value : String) : Command Unit := do
  io .keyEntry .text
  if Api.trim value = "" then
    let _ ← sys .keyDelete
    pure ()
  else io (.keySet (Api.trim value)) .text

def totpSecretStore (secret : String) : Command Unit := do
  io .keyEntry .text
  io (.totpSet secret) fun e => .text ("store totp secret: " ++ e)

/-- `totp_secret_load`: `none` if none is enrolled. -/
def totpSecretLoad : Command (Option String) := do
  io .keyEntry .text
  match ← sys .totpGet with
  | .ok s => pure (some s)
  | .error .noEntry => pure none
  | .error e => Routine.throw (.text ("keychain: " ++ e.display))

def totpSecretDelete : Command Unit := do
  io .keyEntry .text
  match ← sys .totpDelete with
  | .ok () | .error .noEntry => pure ()
  | .error e => Routine.throw (.text ("delete totp secret: " ++ e.display))

section Suite

variable (c : Suite)

/-- `load_key_strict`: read the key without making one. -/
def loadKeyStrict : Command Key := do
  io .keyEntry .text
  let b64 ← orFail (← sys .keyGet) fun e => .text ("keychain: " ++ e.display)
  orFail (decodeKey c b64) .text

/-- `load_or_create_key`: read the key, or make and store one if there is none. -/
def loadOrCreateKey : Command Key := do
  io .keyEntry .text
  match ← sys .keyGet with
  | .ok b64 => orFail (decodeKey c b64) .text
  | .error .noEntry => do
      let drawn ← sys (.random 32)
      let vk : Key := ⟨drawn.1, drawn.2⟩
      io (.keySet (keyText vk)) fun e => .text ("store vault key: " ++ e)
      pure vk
  | .error e => Routine.throw (.text ("keychain: " ++ e.display))

/-- `AppState::new_persistent`: the app starts, locked if a gate is on. -/
def newPersistent : Command Unit := do
  io .vaultOpen fun e => .text ("open vault: " ++ e)
  let hasPassword ← sys .wrapExists
  let settings ← sys .settingsRead
  if hasPassword || settings.requireHello || settings.totpEnabled then sys (.setSession none)
  else do
    let vk ← loadOrCreateKey c
    sys (.setSession (some vk))

/-- `applock::now`. -/
def nowUnix : Command Nat := do
  let t ← sys .clock
  pure (max 0 t).toNat

/-- `check_totp`: if a code is required, verify the one supplied. -/
def checkTotp (code : Option String) : Command Unit := do
  let settings ← sys .settingsRead
  if settings.totpEnabled then
    let stored ← totpSecretLoad
    let secret ← orFail (stored.elim (.error ()) .ok) fun _ =>
      .text "authenticator is enabled but no secret is stored"
    let given := (code.map Api.trim).filter fun t => decide (t ≠ "")
    let given ← orFail (given.elim (.error ()) .ok) fun _ =>
      .text "enter the 6-digit code from your authenticator app"
    let t ← orFail (TotpSecret.parse c.toTotpEngine secret) fun e => .text ("totp: " ++ e)
    let unix ← nowUnix
    if t.verifyAt c.toTotpEngine given unix then pure ()
    else Routine.throw (.text "that authenticator code didn't match")
  else pure ()

/-- `read_wrap`. -/
def readWrap : Command WrappedBlob := do
  let bytes ← orFail (← sys .wrapRead) fun _ => .text "no master password is set"
  pure ⟨.password, bytes⟩

/-- The nonce of a seal, drawn from the random source. -/
def nonce24 (drawn : { bytes : Bytes // bytes.length = 24 }) : Nonce24 := ⟨drawn.1, drawn.2⟩

/-- `seal_new`. -/
def sealNew (password : String) (vk : Key) : Command Unit := do
  let salt ← sys (.random 16)
  let nonce ← sys (.random 24)
  writeAtomic (passwordBlob c password salt.1 (nonce24 nonce) vk)

/-- `password.trim().len() < 4`. -/
def tooShort (password : String) : Bool := decide ((Api.utf8 (Api.trim password)).length < 4)

def authSetPassword (password : String) : Command Unit := do
  if tooShort password then
    Routine.throw (.text "choose a password of at least 4 characters")
  else do
    if ← sys .wrapExists then
      Routine.throw (.text "a master password is already set — use Change password")
    else do
      -- the current key is still in the keychain
      let vk ← loadOrCreateKey c
      sealNew c password vk
      deleteKey
      sys (.setSession (some vk))

def authUnlockPassword (password : String) (code : Option String) : Command Unit := do
  let blob ← readWrap
  let vk ← orFail (openWithPassword c blob password) .text
  checkTotp c code
  sys (.setSession (some vk))

def authChangePassword (oldPassword newPassword : String) (code : Option String) :
    Command Unit := do
  if tooShort newPassword then
    Routine.throw (.text "choose a new password of at least 4 characters")
  else do
    let blob ← readWrap
    let vk ← orFail (openWithPassword c blob oldPassword) .text
    checkTotp c code
    sealNew c newPassword vk
    sys (.setSession (some vk))

def authRemovePassword (password : String) (code : Option String) : Command Unit := do
  let blob ← readWrap
  let vk ← orFail (openWithPassword c blob password) .text
  checkTotp c code
  storeKey vk
  io .wrapRemove fun e => .text ("remove wrapper: " ++ e)
  sys (.setSession (some vk))

/-- `set_settings_flag` and the end of `hello_set`: one flag of the file set. -/
def Settings.withFlags (s : Settings) (requireHello applockTotpEnabled : Option (Option Bool)) :
    Settings :=
  match s with
  | .object h t => .object (requireHello.getD h) (applockTotpEnabled.getD t)
  | other => other

/-- `applock::set_settings_flag` on `applockTotpEnabled`. -/
def setTotpFlag (val : Bool) : Command Unit := do
  let base := match ← sys .settingsRead with
    | .object h t => Settings.object h t
    | _ => .object none none
  io (.settingsWrite (base.withFlags none (some (some val)))) fun e =>
    .text ("write settings: " ++ e)

/-- `applock_totp_enroll`: the address for the QR code and the secret. -/
def applockTotpEnroll : Command (String × String) := do
  let drawn ← sys (.random 20)
  let secret := base32Encode drawn.1
  totpSecretStore secret
  pure ("otpauth://totp/NorthKey:vault?secret=" ++ secret ++
    "&issuer=NorthKey&algorithm=SHA1&digits=6&period=30", secret)

def applockTotpConfirm (code : String) : Command Unit := do
  let stored ← totpSecretLoad
  let secret ← orFail (stored.elim (.error ()) .ok) fun _ => .text "start enrollment first"
  let t ← orFail (TotpSecret.parse c.toTotpEngine secret) fun e => .text ("totp: " ++ e)
  let unix ← nowUnix
  if t.verifyAt c.toTotpEngine (Api.trim code) unix then setTotpFlag true
  else Routine.throw (.text "that code didn't match — check your authenticator app")

def applockTotpDisable (code : String) : Command Unit := do
  match ← totpSecretLoad with
  | some secret => do
      let t ← orFail (TotpSecret.parse c.toTotpEngine secret) fun e => .text ("totp: " ++ e)
      let unix ← nowUnix
      if t.verifyAt c.toTotpEngine (Api.trim code) unix then do
        setTotpFlag false
        totpSecretDelete
      else Routine.throw (.text "that code didn't match")
  | none => do
      setTotpFlag false
      totpSecretDelete

/-- The file that `hello_set` and `settings_set` start from: without one, the defaults, which
have neither flag. -/
def Settings.orDefault : Settings → Settings
  | .unreadable => .object none none
  | s => s

def helloSet (enabled : Bool) : Command Unit := do
  if enabled then
    if ← sys .helloAvailable then
      let ok ← orFail (← sys (.helloVerify "Confirm Windows Hello for NorthKey")) (.api "hello")
      if ok then pure ()
      else Routine.throw (.api "hello" "Windows Hello verification cancelled")
    else Routine.throw (.api "hello" "Windows Hello isn't set up on this device")
  let cur := (← sys .settingsRead).orDefault
  io (.settingsWrite (cur.withFlags (some (some enabled)) none)) (.api "io")

/-- `settings_set`: a patch names a flag or not, with a boolean or with another value. -/
def settingsSet (requireHello applockTotpEnabled : Option (Option Bool)) : Command Unit := do
  let cur := (← sys .settingsRead).orDefault
  io (.settingsWrite (cur.withFlags requireHello applockTotpEnabled)) (.api "io")

/-- `commands::lock`. -/
def lock : Command Unit := sys (.setSession none)

/-- `reunlock`: the session from the key in the keychain. -/
def reunlock : Command Unit := do
  if ← sys .wrapExists then
    Routine.throw (.api "password" "a master password is set — unlock with your password")
  else do
    let read ← Routine.attempt (loadKeyStrict c)
    let vk ← orFail read fun f => .api "keychain" f.message
    sys (.setSession (some vk))

def unlockPlatform : Command Unit := do
  let settings ← sys .settingsRead
  if settings.requireHello then
    let ok ← orFail (← sys (.helloVerify "Unlock NorthKey")) (.api "hello")
    if ok then reunlock c
    else Routine.throw (.api "hello" "Windows Hello verification did not pass")
  else reunlock c

/-- `unlock_recovery`; the recovery key is not looked at. -/
def unlockRecovery (_key : String) : Command Unit := reunlock c

/-- `unlock_phone_await`; the request is not looked at. -/
def unlockPhoneAwait (_requestId : String) : Command Unit := reunlock c

/-- `nmhost::open_vault`: the session of a host that starts. -/
def openVault : Command Unit := do
  match ← sys (.io .vaultOpen) with
  | .error _ => sys (.startHost none)
  | .ok () =>
      match ← Routine.attempt (loadOrCreateKey c) with
      | .error _ => sys (.startHost none)
      | .ok vk => sys (.startHost (some vk))

end Suite

/-- `&escrow[0..4] == b"SNTL" && escrow[5] == Password`. -/
def isPasswordWrap (escrow : Bytes) : Bool :=
  decide (8 ≤ escrow.length ∧ escrow.take 4 = wrapMagic ∧
    escrow.getD 5 0 = WrapperType.password.code)

/-- Keep the account's wrapper as this device's own, if it is headed as one and can be
written. -/
def adoptWrap (escrow : Bytes) : Command Bool :=
  if isPasswordWrap escrow then do
    match ← Routine.attempt (writeAtomic escrow) with
    | .ok () => pure true
    | .error _ => pure false
  else pure false

/-- `sync::make_password_protected`: the account's wrapper and no key in the keychain, or else
the key in the keychain. -/
def makePasswordProtected (escrow : Bytes) (vk : Key) : Command Unit := do
  -- already requires the password on this device
  if ← sys .wrapExists then pure ()
  else do
    if ← adoptWrap escrow then
      let _ ← Routine.attempt deleteKey
      pure ()
    else
      let _ ← Routine.attempt (kcSetVaultKey (keyText vk))
      pure ()

end Sentinel.Desktop
