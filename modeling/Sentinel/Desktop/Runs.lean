import Sentinel.Desktop.Adopt
import Sentinel.Desktop.HostEffects
import Sentinel.Desktop.Recorded

/-!
# Runs of a computer

The desktop app, with every command that reads or writes a key, a gate or an item, and any
number of native-messaging hosts. One step is a start or an end of a process, a command of
the desktop, or a request to a host; it comes with the outcomes its calls meet, and when
they are used up the process is killed where it stands.
-/

namespace Sentinel.Desktop

open Vault Atomic

/-- How far a program came: its answer, unless it was cut off, its exchanges and the world it
left. -/
structure Passage (α : Type) where
  answer : Option (Except Failure α)
  trace : Trace
  world : World

/-- A program that meets these outcomes. -/
def observe {α : Type} (p : Command α) (os : List Outcome) (w : World) : Passage α where
  answer := match (p.feed exec os w).1 with
    | .done r => some r
    | .stmt _ _ => none
  trace := p.exchanges exec os w
  world := (p.feed exec os w).2

/-- The passage without the value of its answer. -/
def Passage.forget {α : Type} (p : Passage α) : Passage Unit where
  answer := p.answer.map (Except.map fun _ => ())
  trace := p.trace
  world := p.world

@[simp] theorem Passage.forget_trace {α : Type} (p : Passage α) : p.forget.trace = p.trace := rfl

@[simp] theorem Passage.forget_world {α : Type} (p : Passage α) : p.forget.world = p.world := rfl

/-- A passage that makes no calls. -/
def Passage.still (w : World) : Passage Unit := ⟨some (.ok ()), [], w⟩

theorem observe_always {α : Type} {p : Command α} {w : World} {I : Trace → World → Prop}
    {post : Trace → Except Failure α → World → Prop} (h : p.Always exec I post w) (start : I [] w)
    (os : List Outcome) : I (observe p os w).trace (observe p os w).world ∧
      ∀ r, (observe p os w).answer = some r → post (observe p os w).trace r (observe p os w).world := by
  obtain ⟨during, after⟩ := Prog.Always.feed h start os
  refine ⟨during, ?_⟩
  intro r answered
  refine after r ?_
  unfold observe at answered
  dsimp only at answered
  cases left : (Prog.feed exec p os w).1 with
  | done r' =>
      rw [left] at answered
      cases answered
      rfl
  | stmt q k =>
      rw [left] at answered
      cases answered

/-- The commands of the desktop. -/
inductive DesktopOp where
  | lock
  | unlockPlatform
  | unlockRecovery (key : String)
  | unlockPhoneAwait (requestId : String)
  | setPassword (password : String)
  | unlockPassword (password : String) (code : Option String)
  | changePassword (oldPassword newPassword : String) (code : Option String)
  | removePassword (password : String) (code : Option String)
  | totpEnroll
  | totpConfirm (code : String)
  | totpDisable (code : String)
  | helloSet (enabled : Bool)
  | settingsSet (requireHello applockTotpEnabled : Option (Option Bool))
  | save (input : ItemInput)
  | delete (id : String)
  | list
  | writeSettings (values : List (String × String))
  | restore (recoveryCode : String)
  | unlockWithPassword (password : String)
  | passwordSignin (password : String)
  | pairComplete (code : String)

/-- A command that meets these outcomes. -/
def DesktopOp.passage (c : Suite) (op : DesktopOp) (os : List Outcome) (w : World) : Passage Unit :=
  match op with
  | .lock => observe Desktop.lock os w
  | .unlockPlatform => observe (Desktop.unlockPlatform c) os w
  | .unlockRecovery key => observe (Desktop.unlockRecovery c key) os w
  | .unlockPhoneAwait requestId => observe (Desktop.unlockPhoneAwait c requestId) os w
  | .setPassword password => observe (authSetPassword c password) os w
  | .unlockPassword password code => observe (authUnlockPassword c password code) os w
  | .changePassword oldPassword newPassword code =>
      observe (authChangePassword c oldPassword newPassword code) os w
  | .removePassword password code => observe (authRemovePassword c password code) os w
  | .totpEnroll => (observe applockTotpEnroll os w).forget
  | .totpConfirm code => observe (applockTotpConfirm c code) os w
  | .totpDisable code => observe (applockTotpDisable c code) os w
  | .helloSet enabled => observe (Desktop.helloSet enabled) os w
  | .settingsSet requireHello applockTotpEnabled =>
      observe (Desktop.settingsSet requireHello applockTotpEnabled) os w
  | .save input => (observe (vaultSave c input) os w).forget
  | .delete id => observe (vaultDelete c id) os w
  | .list => (observe (vaultList c) os w).forget
  | .writeSettings values => observe (writeSettingsItem c values) os w
  | .restore recoveryCode => (observe (syncRestore c recoveryCode) os w).forget
  | .unlockWithPassword password => (observe (syncUnlockWithPassword c password) os w).forget
  | .passwordSignin password => (observe (syncPasswordSignin c password) os w).forget
  | .pairComplete code => (observe (syncPairComplete c code) os w).forget

/-- The world and the keys of the hosts that run. -/
structure Computer where
  world : World
  hosts : List (Option Key)

inductive Op where
  | launch
  | quit
  | command (op : DesktopOp)
  | hostStart
  | hostStop (i : Nat)
  | request (i : Nat) (env : NmEnvelope)

namespace Op

variable (c : HostSuite)

/-- What a step does to the world. A command needs a desktop that runs, a request a host. -/
def passage (s : Computer) (os : List Outcome) : Op → Passage Unit
  | launch => observe (newPersistent c.toSuite) os { s.world with desktop := none }
  | quit => .still { s.world with desktop := none }
  | command op => if s.world.desktop = none then .still s.world else op.passage c.toSuite os s.world
  | hostStart => observe (openVault c.toSuite) os s.world
  | hostStop _ => .still s.world
  | request i env =>
      match s.hosts[i]? with
      | none => .still s.world
      | some host => (observe (handle c host env) os s.world).forget

/-- The computer after a step. A process that was cut off is gone. -/
def next (s : Computer) (os : List Outcome) (op : Op) : Computer :=
  let p := op.passage c s os
  match op with
  | launch | quit | command _ =>
      { s with world := if p.answer.isSome then p.world else { p.world with desktop := none } }
  | hostStart =>
      { world := p.world
        hosts := if p.answer.isSome then s.hosts ++ [p.world.host.join] else s.hosts }
  | hostStop i => { s with hosts := s.hosts.eraseIdx i }
  | request i _ =>
      { world := p.world, hosts := if p.answer.isSome then s.hosts else s.hosts.eraseIdx i }

end Op

/-- Steps, each with the outcomes it meets. -/
abbrev Run := List (Op × List Outcome)

/-- Every step of the run satisfies `P` in the state it starts from. -/
def Along (c : HostSuite) (P : Computer → Op → List Outcome → Prop) : Computer → Run → Prop
  | _, [] => True
  | s, (op, os) :: rest => P s op os ∧ Along c P (op.next c s os) rest

/-- The computer after a run. -/
def Computer.after (c : HostSuite) : Computer → Run → Computer
  | s, [] => s
  | s, (op, os) :: rest => Computer.after c (op.next c s os) rest

/-- The induction over a run: an invariant that the admitted steps keep, and what they do in
its presence. -/
theorem Along.of_invariant {c : HostSuite} {I : Computer → Prop}
    {Admitted P : Computer → Op → List Outcome → Prop}
    (step : ∀ s op os, I s → Admitted s op os → P s op os ∧ I (op.next c s os)) {s : Computer}
    (start : I s) (run : Run) (admitted : Along c Admitted s run) : Along c P s run := by
  induction run generalizing s with
  | nil => trivial
  | cons entry rest ih =>
      obtain ⟨op, os⟩ := entry
      obtain ⟨first, later⟩ := admitted
      obtain ⟨done, kept⟩ := step s op os start first
      exact ⟨done, ih kept later⟩

/-- The calls that touch no key, no item and no session. -/
def Stmt.aside : Stmt → Bool
  | io (.totpSet _) | io (.settingsWrite _) | io .keyEntry | totpGet | totpDelete | settingsRead
  | helloAvailable | helloVerify _ | clock | random _ => true
  | _ => false

/-- Only the gates may differ. -/
def SameKeys (w w' : World) : Prop :=
  ∃ totpSecret settings, w' = { w with totpSecret := totpSecret, settings := settings }

theorem SameKeys.refl (w : World) : SameKeys w w := ⟨w.totpSecret, w.settings, rfl⟩

theorem SameKeys.step {w w' : World} (h : SameKeys w w') {q : Stmt} (o : Outcome)
    (aside : q.aside = true) : SameKeys w (exec q o w').2 := by
  obtain ⟨totpSecret, settings, rfl⟩ := h
  cases q with
  | io call =>
      cases call with
      | totpSet | settingsWrite | keyEntry =>
          rw [exec]
          cases o.fault <;> exact ⟨_, _, rfl⟩
      | _ => cases aside
  | totpDelete =>
      simp only [exec, entryDelete]
      cases o.fault <;> cases totpSecret <;> exact ⟨_, _, rfl⟩
  | totpGet | settingsRead | helloAvailable | helloVerify | clock | random => exact ⟨_, _, rfl⟩
  | _ => cases aside

/-- A command of such calls changes nothing but the gates. -/
theorem always_sameKeys {α : Type} {p : Command α} (uses : p.Uses fun q => q.aside = true)
    (w : World) : p.Always exec (fun _ => SameKeys w) (fun _ _ => SameKeys w) w :=
  uses.always (fun _ o _ aside same => same.step o aside) (.refl w)

section Aside

/-- A call of this kind. -/
theorem uses_sys {q : Stmt} (h : q.aside = true) :
    (sys q : Command q.Result).Uses fun q => q.aside = true :=
  Routine.Uses.call h

theorem uses_io {call : Io} {f : String → Failure} (h : (Stmt.io call).aside = true) :
    (io call f).Uses fun q => q.aside = true :=
  (uses_sys h).bind fun _ => trivial

theorem setTotpFlag_uses (val : Bool) : (setTotpFlag val).Uses fun q => q.aside = true :=
  (uses_sys rfl).bind fun _ => uses_io rfl

theorem totpSecretLoad_uses : totpSecretLoad.Uses fun q => q.aside = true := by
  refine (uses_io rfl).bind fun _ => (uses_sys rfl).bind fun entry => ?_
  cases entry with
  | ok s => trivial
  | error e => cases e <;> trivial

theorem totpSecretDelete_uses : totpSecretDelete.Uses fun q => q.aside = true := by
  refine (uses_io rfl).bind fun _ => (uses_sys rfl).bind fun entry => ?_
  cases entry with
  | ok s => trivial
  | error e => cases e <;> trivial

theorem nowUnix_uses : nowUnix.Uses fun q => q.aside = true :=
  (uses_sys rfl).bind fun _ => trivial

theorem applockTotpEnroll_uses : applockTotpEnroll.Uses fun q => q.aside = true :=
  (uses_sys rfl).bind fun _ => ((uses_io rfl).bind fun _ => uses_io rfl).bind fun _ => trivial

theorem applockTotpConfirm_uses (c : Suite) (code : String) :
    (applockTotpConfirm c code).Uses fun q => q.aside = true := by
  refine totpSecretLoad_uses.bind fun stored => Routine.Uses.bind trivial fun secret =>
    Routine.Uses.bind trivial fun t => nowUnix_uses.bind fun unix => ?_
  cases t.verifyAt c.toTotpEngine (Api.trim code) unix with
  | false => trivial
  | true => exact setTotpFlag_uses true

theorem applockTotpDisable_uses (c : Suite) (code : String) :
    (applockTotpDisable c code).Uses fun q => q.aside = true := by
  refine totpSecretLoad_uses.bind fun stored => ?_
  cases stored with
  | none => exact (setTotpFlag_uses false).bind fun _ => totpSecretDelete_uses
  | some secret =>
      refine Routine.Uses.bind trivial fun t => nowUnix_uses.bind fun unix => ?_
      cases t.verifyAt c.toTotpEngine (Api.trim code) unix with
      | false => trivial
      | true => exact (setTotpFlag_uses false).bind fun _ => totpSecretDelete_uses

theorem settingsSet_uses (requireHello applockTotpEnabled : Option (Option Bool)) :
    (settingsSet requireHello applockTotpEnabled).Uses fun q => q.aside = true :=
  (uses_sys rfl).bind fun _ => uses_io rfl

theorem helloSet_uses (enabled : Bool) : (helloSet enabled).Uses fun q => q.aside = true := by
  have store : ((do
      let cur := (← sys .settingsRead).orDefault
      io (.settingsWrite (cur.withFlags (some (some enabled)) none)) (.api "io")) : Command Unit).Uses
      fun q => q.aside = true :=
    (uses_sys rfl).bind fun _ => uses_io rfl
  cases enabled with
  | false => exact store
  | true =>
      refine Routine.Uses.bind (uses_sys rfl) fun available => ?_
      cases available with
      | false => exact Routine.Uses.bind trivial fun _ => store
      | true =>
          refine Routine.Uses.bind (uses_sys rfl) fun verdict =>
            Routine.Uses.bind trivial fun ok => ?_
          cases ok with
          | false => exact Routine.Uses.bind trivial fun _ => store
          | true => exact store

end Aside

/-- A host suite over recorded values; it knows one address. -/
def Records.hostSuite (r : Records) : HostSuite where
  toSuite := r.suite
  parseUrl s :=
    if s = "https://example.com" then some ⟨"https", some "example.com", none⟩
    else if s = "https://other.org" then some ⟨"https", some "other.org", none⟩
    else none
  lowercase := asciiLower
  generatorPassword _ := none
  signingScalar bytes := bytes
  registrationAttestation _ := .error (.state "not recorded")
  assertion _ _ _ := .error (.state "not recorded")
  appVersion := "0.1.0"

/-- A computer on which the app was just installed. -/
def freshComputer : Computer where
  world :=
    { windows := true
      keychain := none
      totpSecret := none
      wrap := none
      tmp := none
      settings := .unreadable
      vault := .empty
      desktop := none
      host := none }
  hosts := []

/-- Outcomes without a failure: the user passes Hello, the random source gives nines. -/
def fineOutcomes : List Outcome := List.replicate 12 { answer := true, draw := fun _ => 9 }

end Sentinel.Desktop
