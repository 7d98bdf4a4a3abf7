import Sentinel.Lib.Fault
import Sentinel.Vault.Store
import Sentinel.Desktop.Wrapper

/-!
# The computer under the desktop app

One user's computer: the entries of the OS keychain, the files of the app's directory, the
local vault, and the two processes that share them, the desktop app and the
native-messaging host that a browser starts. `Stmt` lists the calls their code makes,
`exec` performs one of them. The environment decides by an `Outcome` whether a call fails
and what it answers where the answer is not a matter of this state: the clock, the random
source, Windows Hello and the sync server.

A call that fails leaves everything as it was, with two exceptions: a failed write leaves
the beginning of what was to be written, and the settings file, which is written in place,
may be left unreadable.
-/

namespace Sentinel.Desktop

open Vault Atomic

/-- `settings.json`, as far as the app lock reads it: a flag that is absent or is not a
boolean is `none`. -/
inductive Settings where
  /-- no file, or no JSON -/
  | unreadable
  /-- JSON that is not an object -/
  | scalar
  | object (requireHello applockTotpEnabled : Option Bool)
  deriving DecidableEq, Repr

namespace Settings

/-- `state::require_hello`. -/
def requireHello : Settings → Bool
  | object flag _ => flag.getD false
  | _ => false

/-- `state::totp_enabled`. -/
def totpEnabled : Settings → Bool
  | object _ flag => flag.getD false
  | _ => false

end Settings

/-- The state of the computer. `desktop` and `host` are the processes that run, each with
the key of its session. -/
structure World where
  /-- the `cfg(windows)` of the build -/
  windows : Bool
  /-- the keychain entry `vault-key` -/
  keychain : Option String
  /-- the keychain entry `applock-totp` -/
  totpSecret : Option String
  /-- `vault-key.wrap` -/
  wrap : Option Bytes
  /-- `vault-key.tmp` -/
  tmp : Option Bytes
  settings : Settings
  vault : LocalVault
  desktop : Option (Option Key)
  host : Option (Option Key)

/-- `keyring::Error`. -/
inductive KeyringError where
  | noEntry
  | other (detail : String)
  deriving DecidableEq, Repr

/-- The calls that answer nothing, but may fail. -/
inductive Io where
  | keyEntry
  | keySet (text : String)
  | totpSet (secret : String)
  | wrapRemove
  | tmpCreate
  | tmpWrite (bytes : Bytes)
  | tmpSync
  | tmpRename
  | tmpRemove
  | settingsWrite (settings : Settings)
  | vaultOpen
  | apiFor
  deriving DecidableEq, Repr

namespace Io

/-- The world after the call; `none` if there is no file to work on. -/
def perform : Io → World → Option World
  | keyEntry, w | tmpSync, w | vaultOpen, w | apiFor, w => some w
  | keySet text, w => some { w with keychain := some text }
  | totpSet secret, w => some { w with totpSecret := some secret }
  | wrapRemove, w => w.wrap.map fun _ => { w with wrap := none }
  | tmpCreate, w => some { w with tmp := some [] }
  | tmpWrite bytes, w => some { w with tmp := some bytes }
  | tmpRename, w => w.tmp.map fun bytes => { w with wrap := some bytes, tmp := none }
  | tmpRemove, w => w.tmp.map fun _ => { w with tmp := none }
  | settingsWrite settings, w => some { w with settings := settings }

/-- The world after a call that failed; `written` is how much of a file was written. -/
def leave (written : Nat) : Io → World → World
  | tmpWrite bytes, w => { w with tmp := some (bytes.take written) }
  -- the file is truncated before it is written
  | settingsWrite _, w => { w with settings := if written = 0 then w.settings else .unreadable }
  | _, w => w

end Io

/-- The calls of the two processes. -/
inductive Stmt where
  | io (call : Io)
  | keyGet
  | keyDelete
  | totpGet
  | totpDelete
  | wrapExists
  | wrapRead
  | isWindows
  | settingsRead
  | helloAvailable
  | helloVerify (message : String)
  | clock
  | random (n : Nat)
  | listEnvelopes
  | vaultGet (id : ItemId)
  | upsert (env : ItemEnvelope)
  | vaultDelete (id : ItemId) (deletedAt : Int)
  | merge (doc : VaultDocument)
  | session
  | setSession (session : Option Key)
  | startHost (session : Option Key)
  | getWrappedKey (wrapper : UInt8)
  | getVault
  | signIn
  | localSettings
  deriving DecidableEq

/-- What a call answers. -/
@[reducible] def Stmt.Result : Stmt → Type
  | io _ => Except String Unit
  | keyGet | totpGet => Except KeyringError String
  | keyDelete | totpDelete => Except KeyringError Unit
  | wrapExists | isWindows | helloAvailable => Bool
  | wrapRead | getWrappedKey _ => Except String Bytes
  | settingsRead => Settings
  | helloVerify _ | signIn => Except String Bool
  | clock => Int
  | random n => { bytes : Bytes // bytes.length = n }
  | listEnvelopes => List ItemEnvelope
  | vaultGet _ => Option ItemEnvelope
  | upsert _ => Except CoreError Unit
  | merge _ => Except CoreError MergeReport
  | vaultDelete _ _ | setSession _ | startHost _ => Unit
  | session => Option Key
  | getVault => Except String (Option (Int × Bytes))
  | localSettings => List (String × String)

/-- What the environment decides about one call. -/
structure Outcome where
  /-- the call fails with this message -/
  fault : Option String := none
  /-- how much of a failed write reached the file -/
  written : Nat := 0
  time : Int := 0
  draw : Nat → UInt8 := fun _ => 0
  /-- what the user did at the Hello prompt, or the server about a second step -/
  answer : Bool := false
  /-- a wrapped key on the server -/
  wrapped : Bytes := []
  /-- the vault on the server -/
  remote : Option (Int × Bytes) := none
  /-- the device's own settings -/
  locals : List (String × String) := []

/-- The `i64` with the same low 64 bits. -/
def asI64 (n : Int) : Int := Int.bmod n (2 ^ 64)

theorem asI64_range (n : Int) : -(2 ^ 63) ≤ asI64 n ∧ asI64 n < 2 ^ 63 := by
  have low := Int.le_bmod (x := n) (m := 2 ^ 64) (by norm_num)
  have high := Int.bmod_lt (x := n) (m := 2 ^ 64) (by norm_num)
  unfold asI64
  omega

/-- A reading that fails when the environment says so. -/
def fallible {α : Type} (o : Outcome) (works : Except String α) : Except String α :=
  match o.fault with
  | some e => .error e
  | none => works

/-- Reading an entry of the keychain. -/
def entryGet (o : Outcome) (entry : Option String) : Except KeyringError String :=
  match o.fault, entry with
  | some e, _ => .error (.other e)
  | none, none => .error .noEntry
  | none, some text => .ok text

/-- Deleting an entry of the keychain; `w'` is the world without it. -/
def entryDelete (o : Outcome) (entry : Option String) (w w' : World) :
    Except KeyringError Unit × World :=
  match o.fault, entry with
  | some e, _ => (.error (.other e), w)
  | none, none => (.error .noEntry, w)
  | none, some _ => (.ok (), w')

/-- One call. -/
def exec : (q : Stmt) → Outcome → World → q.Result × World
  | .io call, o, w =>
      match o.fault with
      | some e => (.error e, call.leave o.written w)
      | none => match call.perform w with
        | none => (.error "No such file or directory", w)
        | some w' => (.ok (), w')
  | .keyGet, o, w => (entryGet o w.keychain, w)
  | .keyDelete, o, w => entryDelete o w.keychain w { w with keychain := none }
  | .totpGet, o, w => (entryGet o w.totpSecret, w)
  | .totpDelete, o, w => entryDelete o w.totpSecret w { w with totpSecret := none }
  | .wrapExists, _, w => (w.wrap.isSome, w)
  | .wrapRead, o, w => (fallible o (w.wrap.elim (.error "No such file or directory") .ok), w)
  | .isWindows, _, w => (w.windows, w)
  | .settingsRead, _, w => (w.settings, w)
  | .helloAvailable, o, w => (w.windows && o.answer, w)
  -- other systems have no Hello: `verify` passes there
  | .helloVerify _, o, w => (if w.windows then fallible o (.ok o.answer) else .ok true, w)
  | .clock, o, w => (asI64 o.time, w)
  | .random n, o, w => (⟨(List.range n).map o.draw, by simp⟩, w)
  | .listEnvelopes, _, w => (w.vault.listEnvelopes, w)
  | .vaultGet id, _, w => (w.vault.get id, w)
  | .upsert env, _, w =>
      match w.vault.upsert env with
      | .error e => (.error e, w)
      | .ok vault => (.ok (), { w with vault := vault })
  | .vaultDelete id deletedAt, _, w => ((), { w with vault := w.vault.delete id deletedAt })
  | .merge doc, _, w => ((w.vault.merge doc).2, { w with vault := (w.vault.merge doc).1 })
  | .session, _, w => (w.desktop.join, w)
  | .setSession session, _, w => ((), { w with desktop := some session })
  | .startHost session, _, w => ((), { w with host := some session })
  | .getWrappedKey _, o, w => (fallible o (.ok o.wrapped), w)
  | .getVault, o, w => (fallible o (.ok o.remote), w)
  | .signIn, o, w => (fallible o (.ok o.answer), w)
  | .localSettings, o, w => (o.locals, w)

/-- How a command fails: with a text, or with a code and a text. -/
inductive Failure where
  | text (message : String)
  | api (code message : String)
  deriving DecidableEq, Repr

/-- The code of a command or of a function it calls. -/
abbrev Command (α : Type) := Routine Stmt Stmt.Result Failure α

/-- One call of the code. -/
def sys (q : Stmt) : Command q.Result := Routine.call q

/-- The `?` operator after `map_err`. -/
def orFail {ε α : Type} (x : Except ε α) (f : ε → Failure) : Command α :=
  Routine.ofExcept (x.mapError f)

/-- A call that answers nothing, and the `?` after it. -/
def io (call : Io) (f : String → Failure) : Command Unit := do
  orFail (← sys (.io call)) f

/-- The message of a failure, for a caller that puts it under a code. -/
def Failure.message : Failure → String
  | text m => m
  | api _ m => m

section Rules

variable {α : Type} {I : List (Exchange Stmt Stmt.Result) → World → Prop} {w : World}

@[simp] theorem always_sys (q : Stmt)
    {post : List (Exchange Stmt Stmt.Result) → Except Failure q.Result → World → Prop} :
    @Routine.Always Stmt Stmt.Result Failure (no_index q.Result) World Outcome exec (sys q) I post w ↔
      ∀ o, I [⟨q, (exec q o w).1⟩] (exec q o w).2 ∧
        post [⟨q, (exec q o w).1⟩] (.ok (exec q o w).1) (exec q o w).2 := Iff.rfl

@[simp] theorem always_orFail {ε : Type} (x : Except ε α) (f : ε → Failure)
    {post : List (Exchange Stmt Stmt.Result) → Except Failure α → World → Prop} :
    (orFail x f).Always exec I post w ↔ post [] (x.mapError f) w := Iff.rfl

/-- A call that answers nothing fails, or finds nothing to work on, or works. -/
theorem always_sysIo {call : Io}
    {post : List (Exchange Stmt Stmt.Result) → Except Failure (Except String Unit) → World → Prop}
    (fails : ∀ e n, I [⟨.io call, .error e⟩] (call.leave n w) ∧
      post [⟨.io call, .error e⟩] (.ok (.error e)) (call.leave n w))
    (missing : call.perform w = none → ∀ e, I [⟨.io call, .error e⟩] w ∧
      post [⟨.io call, .error e⟩] (.ok (.error e)) w)
    (works : ∀ w', call.perform w = some w' → I [⟨.io call, .ok ()⟩] w' ∧
      post [⟨.io call, .ok ()⟩] (.ok (.ok ())) w') :
    (sys (.io call)).Always exec I post w := by
  rw [always_sys]
  intro o
  simp only [exec]
  cases o.fault with
  | some e => exact fails e o.written
  | none =>
      cases performed : call.perform w with
      | none => exact missing performed _
      | some w' => exact works w' performed

theorem always_io {call : Io} {f : String → Failure}
    {post : List (Exchange Stmt Stmt.Result) → Except Failure Unit → World → Prop}
    (fails : ∀ e n, I [⟨.io call, .error e⟩] (call.leave n w) ∧
      post [⟨.io call, .error e⟩] (.error (f e)) (call.leave n w))
    (missing : call.perform w = none → ∀ e, I [⟨.io call, .error e⟩] w ∧
      post [⟨.io call, .error e⟩] (.error (f e)) w)
    (works : ∀ w', call.perform w = some w' → I [⟨.io call, .ok ()⟩] w' ∧
      post [⟨.io call, .ok ()⟩] (.ok ()) w') :
    (io call f).Always exec I post w := by
  rw [io, Routine.always_bind]
  exact always_sysIo fails missing works

/-- A call that always answers the same leaves nothing to the environment. -/
theorem always_sys_of_eq {q : Stmt} {answer : q.Result} {w' : World}
    (same : ∀ o, exec q o w = (answer, w'))
    {post : List (Exchange Stmt Stmt.Result) → Except Failure q.Result → World → Prop} :
    @Routine.Always Stmt Stmt.Result Failure (no_index q.Result) World Outcome exec (sys q) I post w ↔
      I [⟨q, answer⟩] w' ∧ post [⟨q, answer⟩] (.ok answer) w' := by
  rw [always_sys]
  simp only [same]
  exact ⟨fun h => h {}, fun h _ => h⟩

@[simp] theorem always_wrapExists
    {post : List (Exchange Stmt Stmt.Result) → Except Failure Bool → World → Prop} :
    @Routine.Always Stmt Stmt.Result Failure (no_index Bool) World Outcome exec (sys .wrapExists) I post w ↔ I [⟨.wrapExists, w.wrap.isSome⟩] w ∧
      post [⟨.wrapExists, w.wrap.isSome⟩] (.ok w.wrap.isSome) w :=
  always_sys_of_eq fun _ => rfl

@[simp] theorem always_isWindows
    {post : List (Exchange Stmt Stmt.Result) → Except Failure Bool → World → Prop} :
    @Routine.Always Stmt Stmt.Result Failure (no_index Bool) World Outcome exec (sys .isWindows) I post w ↔ I [⟨.isWindows, w.windows⟩] w ∧
      post [⟨.isWindows, w.windows⟩] (.ok w.windows) w :=
  always_sys_of_eq fun _ => rfl

@[simp] theorem always_settingsRead
    {post : List (Exchange Stmt Stmt.Result) → Except Failure Settings → World → Prop} :
    @Routine.Always Stmt Stmt.Result Failure (no_index Settings) World Outcome exec (sys .settingsRead) I post w ↔ I [⟨.settingsRead, w.settings⟩] w ∧
      post [⟨.settingsRead, w.settings⟩] (.ok w.settings) w :=
  always_sys_of_eq fun _ => rfl

@[simp] theorem always_setSession (session : Option Key)
    {post : List (Exchange Stmt Stmt.Result) → Except Failure Unit → World → Prop} :
    @Routine.Always Stmt Stmt.Result Failure (no_index Unit) World Outcome exec (sys (.setSession session)) I post w ↔
      I [⟨.setSession session, ()⟩] { w with desktop := some session } ∧
        post [⟨.setSession session, ()⟩] (.ok ()) { w with desktop := some session } :=
  always_sys_of_eq fun _ => rfl

@[simp] theorem always_startHost (session : Option Key)
    {post : List (Exchange Stmt Stmt.Result) → Except Failure Unit → World → Prop} :
    @Routine.Always Stmt Stmt.Result Failure (no_index Unit) World Outcome exec (sys (.startHost session)) I post w ↔
      I [⟨.startHost session, ()⟩] { w with host := some session } ∧
        post [⟨.startHost session, ()⟩] (.ok ()) { w with host := some session } :=
  always_sys_of_eq fun _ => rfl

@[simp] theorem always_session
    {post : List (Exchange Stmt Stmt.Result) → Except Failure (Option Key) → World → Prop} :
    @Routine.Always Stmt Stmt.Result Failure (no_index (Option Key)) World Outcome exec
        (sys .session) I post w ↔
      I [⟨.session, w.desktop.join⟩] w ∧ post [⟨.session, w.desktop.join⟩] (.ok w.desktop.join) w :=
  always_sys_of_eq fun _ => rfl

@[simp] theorem always_listEnvelopes
    {post : List (Exchange Stmt Stmt.Result) → Except Failure (List ItemEnvelope) → World → Prop} :
    @Routine.Always Stmt Stmt.Result Failure (no_index (List ItemEnvelope)) World Outcome exec
        (sys .listEnvelopes) I post w ↔
      I [⟨.listEnvelopes, w.vault.listEnvelopes⟩] w ∧
        post [⟨.listEnvelopes, w.vault.listEnvelopes⟩] (.ok w.vault.listEnvelopes) w :=
  always_sys_of_eq fun _ => rfl

@[simp] theorem always_vaultGet (id : ItemId)
    {post : List (Exchange Stmt Stmt.Result) → Except Failure (Option ItemEnvelope) →
      World → Prop} :
    @Routine.Always Stmt Stmt.Result Failure (no_index (Option ItemEnvelope)) World Outcome exec
        (sys (.vaultGet id)) I post w ↔
      I [⟨.vaultGet id, w.vault.get id⟩] w ∧
        post [⟨.vaultGet id, w.vault.get id⟩] (.ok (w.vault.get id)) w :=
  always_sys_of_eq fun _ => rfl

@[simp] theorem always_vaultDelete (id : ItemId) (deletedAt : Int)
    {post : List (Exchange Stmt Stmt.Result) → Except Failure Unit → World → Prop} :
    @Routine.Always Stmt Stmt.Result Failure (no_index Unit) World Outcome exec
        (sys (.vaultDelete id deletedAt)) I post w ↔
      I [⟨.vaultDelete id deletedAt, ()⟩] { w with vault := w.vault.delete id deletedAt } ∧
        post [⟨.vaultDelete id deletedAt, ()⟩] (.ok ())
          { w with vault := w.vault.delete id deletedAt } :=
  always_sys_of_eq fun _ => rfl

@[simp] theorem always_merge (doc : VaultDocument)
    {post : List (Exchange Stmt Stmt.Result) → Except Failure (Except CoreError MergeReport) →
      World → Prop} :
    @Routine.Always Stmt Stmt.Result Failure (no_index (Except CoreError MergeReport)) World Outcome
        exec (sys (.merge doc)) I post w ↔
      I [⟨.merge doc, (w.vault.merge doc).2⟩] { w with vault := (w.vault.merge doc).1 } ∧
        post [⟨.merge doc, (w.vault.merge doc).2⟩] (.ok (w.vault.merge doc).2)
          { w with vault := (w.vault.merge doc).1 } :=
  always_sys_of_eq fun _ => rfl

/-- Storing an envelope fails without a trace, or it is stored. -/
theorem always_upsert {env : ItemEnvelope}
    {post : List (Exchange Stmt Stmt.Result) → Except Failure (Except CoreError Unit) →
      World → Prop}
    (fails : ∀ e, w.vault.upsert env = .error e → I [⟨.upsert env, .error e⟩] w ∧
      post [⟨.upsert env, .error e⟩] (.ok (.error e)) w)
    (stored : ∀ vault, w.vault.upsert env = .ok vault →
      I [⟨.upsert env, .ok ()⟩] { w with vault := vault } ∧
        post [⟨.upsert env, .ok ()⟩] (.ok (.ok ())) { w with vault := vault }) :
    (sys (.upsert env)).Always exec I post w := by
  rw [always_sys]
  intro o
  simp only [exec]
  cases attempt : w.vault.upsert env with
  | error e => exact fails e attempt
  | ok vault => exact stored vault attempt

/-- The clock may show anything. -/
theorem always_clock
    {post : List (Exchange Stmt Stmt.Result) → Except Failure Int → World → Prop}
    (shows : ∀ time, -(2 ^ 63) ≤ time → time < 2 ^ 63 → I [⟨.clock, time⟩] w ∧
      post [⟨.clock, time⟩] (.ok time) w) :
    (sys .clock).Always exec I post w := by
  rw [always_sys]
  intro o
  exact shows _ (asI64_range o.time).1 (asI64_range o.time).2

/-- The random source may give anything. -/
theorem always_random {n : Nat}
    {post : List (Exchange Stmt Stmt.Result) → Except Failure { bytes : Bytes // bytes.length = n } →
      World → Prop}
    (gives : ∀ drawn, I [⟨.random n, drawn⟩] w ∧ post [⟨.random n, drawn⟩] (.ok drawn) w) :
    (sys (.random n)).Always exec I post w := by
  rw [always_sys]
  intro o
  exact gives _

/-- The server may answer anything. -/
theorem always_getVault
    {post : List (Exchange Stmt Stmt.Result) → Except Failure (Except String (Option (Int × Bytes))) →
      World → Prop}
    (answers : ∀ answer, I [⟨.getVault, answer⟩] w ∧ post [⟨.getVault, answer⟩] (.ok answer) w) :
    (sys .getVault).Always exec I post w := by
  rw [always_sys]
  intro o
  exact answers _

theorem always_getWrappedKey {wrapper : UInt8}
    {post : List (Exchange Stmt Stmt.Result) → Except Failure (Except String Bytes) → World → Prop}
    (answers : ∀ answer, I [⟨.getWrappedKey wrapper, answer⟩] w ∧
      post [⟨.getWrappedKey wrapper, answer⟩] (.ok answer) w) :
    (sys (.getWrappedKey wrapper)).Always exec I post w := by
  rw [always_sys]
  intro o
  exact answers _

theorem always_signIn
    {post : List (Exchange Stmt Stmt.Result) → Except Failure (Except String Bool) → World → Prop}
    (answers : ∀ answer, I [⟨.signIn, answer⟩] w ∧ post [⟨.signIn, answer⟩] (.ok answer) w) :
    (sys .signIn).Always exec I post w := by
  rw [always_sys]
  intro o
  exact answers _

/-- Reading the key entry fails, or finds nothing, or finds its text. -/
theorem always_keyGet
    {post : List (Exchange Stmt Stmt.Result) → Except Failure (Except KeyringError String) →
      World → Prop}
    (fails : ∀ e, I [⟨.keyGet, .error (.other e)⟩] w ∧
      post [⟨.keyGet, .error (.other e)⟩] (.ok (.error (.other e))) w)
    (absent : w.keychain = none → I [⟨.keyGet, .error .noEntry⟩] w ∧
      post [⟨.keyGet, .error .noEntry⟩] (.ok (.error .noEntry)) w)
    (found : ∀ text, w.keychain = some text → I [⟨.keyGet, .ok text⟩] w ∧
      post [⟨.keyGet, .ok text⟩] (.ok (.ok text)) w) :
    (sys .keyGet).Always exec I post w := by
  rw [always_sys]
  intro o
  simp only [exec, entryGet]
  cases o.fault with
  | some e => exact fails e
  | none =>
      cases entry : w.keychain with
      | none => exact absent entry
      | some text => exact found text entry

theorem always_totpGet
    {post : List (Exchange Stmt Stmt.Result) → Except Failure (Except KeyringError String) →
      World → Prop}
    (fails : ∀ e, I [⟨.totpGet, .error (.other e)⟩] w ∧
      post [⟨.totpGet, .error (.other e)⟩] (.ok (.error (.other e))) w)
    (absent : w.totpSecret = none → I [⟨.totpGet, .error .noEntry⟩] w ∧
      post [⟨.totpGet, .error .noEntry⟩] (.ok (.error .noEntry)) w)
    (found : ∀ text, w.totpSecret = some text → I [⟨.totpGet, .ok text⟩] w ∧
      post [⟨.totpGet, .ok text⟩] (.ok (.ok text)) w) :
    (sys .totpGet).Always exec I post w := by
  rw [always_sys]
  intro o
  simp only [exec, entryGet]
  cases o.fault with
  | some e => exact fails e
  | none =>
      cases entry : w.totpSecret with
      | none => exact absent entry
      | some text => exact found text entry

/-- Deleting the key entry fails, or finds nothing, or removes it. -/
theorem always_keyDelete
    {post : List (Exchange Stmt Stmt.Result) → Except Failure (Except KeyringError Unit) →
      World → Prop}
    (fails : ∀ e, I [⟨.keyDelete, .error (.other e)⟩] w ∧
      post [⟨.keyDelete, .error (.other e)⟩] (.ok (.error (.other e))) w)
    (absent : w.keychain = none → I [⟨.keyDelete, .error .noEntry⟩] w ∧
      post [⟨.keyDelete, .error .noEntry⟩] (.ok (.error .noEntry)) w)
    (removed : I [⟨.keyDelete, .ok ()⟩] { w with keychain := none } ∧
      post [⟨.keyDelete, .ok ()⟩] (.ok (.ok ())) { w with keychain := none }) :
    (sys .keyDelete).Always exec I post w := by
  rw [always_sys]
  intro o
  simp only [exec, entryDelete]
  cases o.fault with
  | some e => exact fails e
  | none =>
      cases entry : w.keychain with
      | none => exact absent entry
      | some text => exact removed

end Rules

end Sentinel.Desktop
