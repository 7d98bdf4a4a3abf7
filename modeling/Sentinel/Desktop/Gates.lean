import Sentinel.Desktop.Runs
import Sentinel.Desktop.KeySafety

/-!
# Unlocking passes every gate

Three gates are optional: a master password, an authenticator code and Windows Hello. The
commands that unlock the session check different ones of them: with the password Hello is
not asked for, the platform unlock asks for no code, the recovery and phone unlocks ask for
nothing at all, and neither do setting a password and taking over the key of an account.
Where a command does not come to the key, or the gates that it skips are off, the session
is unlocked only past every gate that is on.
-/

namespace Sentinel.Desktop

open Vault Atomic

/-- The desktop runs and has a key. -/
def Unlocked (w : World) : Prop := ∃ vk, w.desktop = some (some vk)

theorem Unlocked.of_eq {w w' : World} (h : Unlocked w') (same : w'.desktop = w.desktop) :
    Unlocked w := by
  obtain ⟨vk, found⟩ := h
  exact ⟨vk, same.symm.trans found⟩

/-- The password that a command submits. -/
def DesktopOp.password : DesktopOp → Option String
  | unlockPassword password _ | changePassword password _ _ | removePassword password _
  | unlockWithPassword password | passwordSignin password => some password
  | _ => none

/-- The authenticator code that a command submits. -/
def DesktopOp.code : DesktopOp → Option String
  | unlockPassword _ code | changePassword _ _ code | removePassword _ code => code
  | _ => none

def Op.password : Op → Option String
  | command op => op.password
  | _ => none

def Op.code : Op → Option String
  | command op => op.code
  | _ => none

/-- Every gate that is on was passed: the password opens the wrapper, the code is one of the
enrolled secret, and the user passed Windows Hello. -/
structure GatesPassed (c : Suite) (password code : Option String) (w : World) (t : Trace) :
    Prop where
  password : w.wrap.isSome = true → ∃ text vk, password = some text ∧ WrapOpens c w text vk
  code : CodePassed c w code t
  hello : HelloPassed w t

/-- Whenever the step unlocks a desktop that was not unlocked, it has passed the gates. -/
def Op.Lawful (c : HostSuite) (s : Computer) (op : Op) (os : List Outcome) : Prop :=
  ¬ Unlocked s.world → ∀ n, Unlocked (op.passage c s (os.take n)).world →
    GatesPassed c.toSuite op.password op.code s.world (op.passage c s (os.take n)).trace

/-- Neither an authenticator code nor Windows Hello is required. -/
def FlagsOff (w : World) : Prop :=
  w.settings.requireHello = false ∧ w.settings.totpEnabled = false

/-- The keychain gives no key to a session that asks for it. -/
def Shut (c : Suite) (w : World) : Prop := w.wrap.isSome = true ∨ ∀ vk, ¬ Holds c w vk

/-- The password or the code is wrong. -/
def Refused (c : Suite) (w : World) (password : String) (code : Option String) : Prop :=
  (∀ vk, ¬ WrapOpens c w password vk) ∨ KeyOp.CodeRefused c w code

/-- The gates that the command skips are off, or it does not come to a key. -/
def DesktopOp.Gated (c : Suite) (w : World) : DesktopOp → Prop
  | unlockPlatform => w.settings.totpEnabled = false ∨ Shut c w
  | unlockRecovery _ | unlockPhoneAwait _ => FlagsOff w ∨ Shut c w
  | setPassword password => FlagsOff w ∨ w.wrap.isSome = true ∨ tooShort password = true ∨
      ∃ text, w.keychain = some text ∧ ∀ vk, decodeKey c text ≠ .ok vk
  | unlockPassword password code | removePassword password code =>
      w.settings.requireHello = false ∨ Refused c w password code
  | changePassword oldPassword newPassword code =>
      w.settings.requireHello = false ∨ tooShort newPassword = true ∨ Refused c w oldPassword code
  | restore recoveryCode => ¬ Protected w ∨ w.vault.listEnvelopes ≠ [] ∨
      ∀ rk, c.recoveryKitDecode (Api.trim recoveryCode) ≠ .ok rk
  | unlockWithPassword password | passwordSignin password =>
      FlagsOff w ∧ (w.wrap = none ∨ ∃ vk, WrapOpens c w password vk) ∨ w.vault.listEnvelopes ≠ []
  | pairComplete code => ¬ Protected w ∨ w.vault.listEnvelopes ≠ [] ∨
      ∀ vk, joinKey c code ≠ .ok vk
  | _ => True

def Op.Gated (c : HostSuite) (s : Computer) (op : Op) (_ : List Outcome) : Prop :=
  match op with
  | command op => op.Gated c.toSuite s.world
  | _ => True

section Step

variable {c : Suite} {w w' : World} {t : Trace} {password code : Option String}

theorem FlagsOff.codePassed (off : FlagsOff w) : CodePassed c w code t := by
  intro on
  rw [off.2] at on
  cases on

theorem FlagsOff.helloPassed (off : FlagsOff w) : HelloPassed w t := by
  intro on
  rw [off.1] at on
  cases on

theorem GatesPassed.of_off (off : FlagsOff w) (free : w.wrap = none) :
    GatesPassed c password code w t := by
  refine ⟨?_, off.codePassed, off.helloPassed⟩
  intro on
  rw [free] at on
  cases on

theorem FlagsOff.of_not_protected (open_ : ¬ Protected w) : FlagsOff w ∧ w.wrap = none := by
  unfold Protected at open_
  push Not at open_
  obtain ⟨free, hello, totp⟩ := open_
  refine ⟨⟨Bool.eq_false_iff.mpr hello, Bool.eq_false_iff.mpr totp⟩, ?_⟩
  exact Option.not_isSome_iff_eq_none.mp free

theorem Minting.desktop (h : Minting w w') : w'.desktop = w.desktop := by
  obtain rfl | ⟨-, vk, rfl⟩ := h <;> rfl

theorem Writing.desktop {bytes : Bytes} (h : Writing bytes w w') : w'.desktop = w.desktop := by
  obtain ⟨wrap, tmp, rfl, -⟩ := h
  rfl

theorem SameKeys.desktop (h : SameKeys w w') : w'.desktop = w.desktop := by
  obtain ⟨totpSecret, settings, rfl⟩ := h
  rfl

theorem Filed.desktop {session : Option Key} {item : Item} (h : Filed c session item w w') :
    w'.desktop = w.desktop := by
  obtain ⟨-, -, -, vault, -, -, -, rfl⟩ := h
  rfl

theorem Launch.gatesPassed (locked : ¬ Unlocked w) (stage : Launch c w w') (now : Unlocked w') :
    GatesPassed c password code w t := by
  cases stage with
  | untouched => exact absurd now locked
  | locked =>
      obtain ⟨vk, found⟩ := now
      cases found
  | minting _ minting => exact absurd (now.of_eq minting.desktop) locked
  | unlocked _ open_ _ =>
      obtain ⟨off, free⟩ := FlagsOff.of_not_protected open_
      exact .of_off off free

theorem Reunlock.gatesPassed (locked : ¬ Unlocked w) (gated : FlagsOff w ∨ Shut c w)
    (stage : Reunlock c w w') (now : Unlocked w') : GatesPassed c password code w t := by
  obtain rfl | ⟨free, vk, held, rfl⟩ := stage
  · exact absurd now locked
  · obtain off | present | empty := gated
    · exact .of_off off free
    · rw [free] at present
      cases present
    · exact absurd held (empty vk)

theorem UnlockPlatform.gatesPassed (locked : ¬ Unlocked w)
    (gated : w.settings.totpEnabled = false ∨ Shut c w) (stage : UnlockPlatform c w t w')
    (now : Unlocked w') : GatesPassed c password code w t := by
  obtain rfl | ⟨hello, rfl | ⟨free, vk, held, rfl⟩⟩ := stage
  · exact absurd now locked
  · exact absurd now locked
  · obtain off | present | empty := gated
    · refine ⟨?_, ?_, hello⟩
      · intro on
        rw [free] at on
        cases on
      · intro on
        rw [off] at on
        cases on
    · rw [free] at present
      cases present
    · exact absurd held (empty vk)

theorem SetPassword.gatesPassed {new : String} (locked : ¬ Unlocked w)
    (gated : (DesktopOp.setPassword new).Gated c w) (stage : SetPassword c new w w')
    (now : Unlocked w') : GatesPassed c password code w t := by
  cases stage with
  | untouched => exact absurd now locked
  | minting _ _ minting => exact absurd (now.of_eq minting.desktop) locked
  | sealing _ _ source _ writing =>
      exact absurd (now.of_eq (writing.desktop.trans source.minting.desktop)) locked
  | dropped wk _ _ source => exact absurd (now.of_eq source.minting.desktop) locked
  | unlocked wk long free source _ =>
      obtain off | present | short | ⟨text, found, bad⟩ := gated
      · exact .of_off off free
      · rw [free] at present
        cases present
      · rw [long] at short
        cases short
      · obtain ⟨-, text', found', read⟩ | ⟨absent, -⟩ := source
        · obtain rfl := Option.some.inj (found.symm.trans found')
          exact absurd read (bad _)
        · rw [absent] at found
          cases found

/-- A command that has checked the password and the code. -/
theorem gatesPassed_of_checked {text : String} {vk : Key} (gated : w.settings.requireHello = false ∨
    Refused c w text code) (opens : WrapOpens c w text vk) (passed : CodePassed c w code t) :
    GatesPassed c (some text) code w t := by
  refine ⟨fun _ => ⟨text, vk, rfl, opens⟩, passed, ?_⟩
  intro on
  obtain off | wrong | ⟨enabled, refused⟩ := gated
  · rw [off] at on
    cases on
  · exact absurd opens (wrong vk)
  · obtain ⟨time, -, fits⟩ := passed enabled
    exact absurd fits (refused time)

theorem ChangePassword.gatesPassed {old new : String} (locked : ¬ Unlocked w)
    (gated : (DesktopOp.changePassword old new code).Gated c w)
    (stage : ChangePassword c old new code w t w') (now : Unlocked w') :
    GatesPassed c (some old) code w t := by
  cases stage with
  | untouched => exact absurd now locked
  | sealing _ _ _ _ writing => exact absurd (now.of_eq writing.desktop) locked
  | unlocked long opens passed _ =>
      obtain off | short | refused := gated
      · exact gatesPassed_of_checked (.inl off) opens passed
      · rw [long] at short
        cases short
      · exact gatesPassed_of_checked (.inr refused) opens passed

theorem RemovePassword.gatesPassed {text : String} (locked : ¬ Unlocked w)
    (gated : w.settings.requireHello = false ∨ Refused c w text code)
    (stage : RemovePassword c text code w t w') (now : Unlocked w') :
    GatesPassed c (some text) code w t := by
  cases stage with
  | untouched | stored | removed => exact absurd now locked
  | unlocked opens passed => exact gatesPassed_of_checked gated opens passed

/-- Taking a key over: with an empty vault, and entitled to it. -/
theorem Adoption.unlocks {Entitled : Trace → Key → Prop} {Stage : Trace → Key → World → Prop}
    (locked : ¬ Unlocked w) (stage : Adoption c Entitled Stage w t w') (now : Unlocked w') :
    w.vault.listEnvelopes = [] ∧ ∃ vk, Entitled t vk := by
  obtain rfl | ⟨empty, vk, entitled, -⟩ := stage
  · exact absurd now locked
  · exact ⟨empty, vk, entitled⟩

theorem gatesPassed_of_account {text : String} (empty : w.vault.listEnvelopes = [])
    (gated : FlagsOff w ∧ (w.wrap = none ∨ ∃ vk, WrapOpens c w text vk) ∨
      w.vault.listEnvelopes ≠ []) : GatesPassed c (some text) none w t := by
  obtain ⟨off, free | ⟨vk, opens⟩⟩ | full := gated
  · exact .of_off off free
  · exact ⟨fun _ => ⟨text, vk, rfl, opens⟩, off.codePassed, off.helloPassed⟩
  · exact absurd empty full

end Step

-- the specifications of the commands are used as they are stated, never unfolded
seal Routine.Always

/-- One command of the desktop. -/
theorem DesktopOp.gatesPassed {c : Suite} {w : World} {op : DesktopOp} (gated : op.Gated c w)
    (locked : ¬ Unlocked w) (os : List Outcome) (now : Unlocked (op.passage c os w).world) :
    GatesPassed c op.password op.code w (op.passage c os w).trace := by
  have aside : ∀ {α : Type} {p : Command α}, (p.Uses fun q => q.aside = true) →
      ¬ Unlocked (observe p os w).world := by
    intro α p uses now
    have same := (observe_always (always_sameKeys uses w) (.refl w) os).1
    exact locked (now.of_eq same.desktop)
  cases op with
  | lock =>
      obtain ⟨vk, found⟩ := now
      obtain same | same := (observe_always lock_always (.inl rfl) os).1
      · exact absurd ⟨vk, (congrArg World.desktop same).symm.trans found⟩ locked
      · cases (congrArg World.desktop same).symm.trans found
  | unlockPlatform =>
      exact (observe_always unlockPlatform_always (.inl rfl) os).1.gatesPassed locked gated now
  | unlockRecovery | unlockPhoneAwait =>
      exact (observe_always reunlock_always (.inl rfl) os).1.gatesPassed locked gated now
  | setPassword password =>
      exact (observe_always authSetPassword_always .untouched os).1.gatesPassed
        locked gated now
  | unlockPassword password code =>
      obtain same | ⟨vk, opens, passed, -⟩ :=
        (observe_always authUnlockPassword_always (.inl rfl) os).1
      · exact absurd (now.of_eq (congrArg World.desktop same)) locked
      · exact gatesPassed_of_checked gated opens passed
  | changePassword oldPassword newPassword code =>
      exact (observe_always authChangePassword_always .untouched os).1.gatesPassed locked gated now
  | removePassword password code =>
      exact (observe_always authRemovePassword_always .untouched os).1.gatesPassed locked gated now
  | totpEnroll => exact absurd now (aside applockTotpEnroll_uses)
  | totpConfirm code => exact absurd now (aside (applockTotpConfirm_uses c code))
  | totpDisable code => exact absurd now (aside (applockTotpDisable_uses c code))
  | helloSet enabled => exact absurd now (aside (helloSet_uses enabled))
  | settingsSet hello totp => exact absurd now (aside (settingsSet_uses hello totp))
  | save input =>
      obtain same | ⟨_, _, _, -, -, -, -, filed⟩ :=
        (observe_always vaultSave_always (.inl rfl) os).1
      · exact absurd (now.of_eq (congrArg World.desktop same)) locked
      · exact absurd (now.of_eq filed.desktop) locked
  | delete id =>
      obtain same | ⟨_, _, -, -, same⟩ := (observe_always vaultDelete_always (.inl rfl) os).1
      · exact absurd (now.of_eq (congrArg World.desktop same)) locked
      · exact absurd (now.of_eq (congrArg World.desktop same)) locked
  | list =>
      have same : (observe (vaultList c) os w).world = w :=
        (observe_always vaultList_always rfl os).1
      exact absurd (now.of_eq (congrArg World.desktop same)) locked
  | writeSettings values =>
      obtain same | ⟨_, -, -, -, filed⟩ :=
        (observe_always writeSettingsItem_always (.inl rfl) os).1
      · exact absurd (now.of_eq (congrArg World.desktop same)) locked
      · exact absurd (now.of_eq filed.desktop) locked
  | restore recoveryCode =>
      obtain ⟨empty, vk, rk, bytes, decoded, -⟩ :=
        (observe_always syncRestore_always (.inl rfl) os).1.unlocks locked now
      obtain open_ | full | bad := gated
      · obtain ⟨off, free⟩ := FlagsOff.of_not_protected open_
        exact .of_off off free
      · exact absurd empty full
      · exact absurd decoded (bad rk)
  | unlockWithPassword password =>
      obtain ⟨empty, -⟩ :=
        (observe_always syncUnlockWithPassword_always (.inl rfl) os).1.unlocks locked now
      exact gatesPassed_of_account empty gated
  | passwordSignin password =>
      have start : Signin c password (fun _ _ _ => True) w [] w := .inl (.inl rfl)
      obtain adoption | ⟨item, filed⟩ := (observe_always syncPasswordSignin_always start os).1
      · exact gatesPassed_of_account (adoption.unlocks locked now).1 gated
      · exact absurd (now.of_eq filed.desktop) locked
  | pairComplete code =>
      have stage : Adoption c (fun _ vk => joinKey c code = .ok vk) (Keyed w) w
          (observe (syncPairComplete c code) os w).trace
          (observe (syncPairComplete c code) os w).world :=
        (observe_always syncPairComplete_always (.inl rfl) os).1
      rw [DesktopOp.passage, Passage.forget_world] at now
      obtain ⟨empty, vk, joined⟩ := stage.unlocks locked now
      obtain open_ | full | bad := gated
      · obtain ⟨off, free⟩ := FlagsOff.of_not_protected open_
        exact .of_off off free
      · exact absurd empty full
      · exact absurd joined (bad vk)

/-- A host does not touch the session of the desktop. -/
theorem handle_desktop {c : HostSuite} {host : Option Key} {env : NmEnvelope} (os : List Outcome)
    (w : World) : (observe (handle c host env) os w).world.desktop = w.desktop := by
  cases host with
  | none =>
      have same : (observe (handle c none env) os w).world = w :=
        (observe_always handle_none_always rfl os).1
      rw [same]
  | some vk =>
      obtain same | ⟨item, -, filed⟩ :=
        (observe_always handle_some_always (.inl rfl) os).1
      · rw [same]
      · exact filed.desktop

theorem openVault_desktop {c : Suite} (os : List Outcome) (w : World) :
    (observe (openVault c) os w).world.desktop = w.desktop := by
  have stage : HostStart c w (observe (openVault c) os w).world :=
    (observe_always openVault_always (.minting (.inl rfl)) os).1
  generalize (observe (openVault c) os w).world = w' at stage
  cases stage with
  | minting minting => exact minting.desktop
  | closed => rfl
  | opened wk source => exact source.minting.desktop

/-- One step of a run. -/
theorem Op.lawful {c : HostSuite} {s : Computer} {op : Op} {os : List Outcome}
    (gated : op.Gated c s os) : op.Lawful c s os := by
  intro locked n now
  cases op with
  | launch =>
      have closed : ¬ Unlocked { s.world with desktop := none } := fun ⟨_, found⟩ => nomatch found
      have stage : Launch c.toSuite { s.world with desktop := none }
          (observe (newPersistent c.toSuite) (os.take n) { s.world with desktop := none }).world :=
        (observe_always newPersistent_always .untouched _).1
      have passed : GatesPassed c.toSuite none none { s.world with desktop := none }
          (Op.launch.passage c s (os.take n)).trace := stage.gatesPassed closed now
      exact ⟨passed.password, passed.code, passed.hello⟩
  | quit =>
      obtain ⟨vk, found⟩ := now
      cases found
  | command op =>
      rw [passage] at now ⊢
      by_cases running : s.world.desktop = none
      · rw [if_pos running] at now
        exact absurd now locked
      · rw [if_neg running] at now ⊢
        exact op.gatesPassed gated locked _ now
  | hostStart => exact absurd (now.of_eq (openVault_desktop _ _)) locked
  | hostStop => exact absurd now locked
  | request i env =>
      rw [passage] at now
      cases found : s.hosts[i]? with
      | none =>
          rw [found] at now
          exact absurd now locked
      | some host =>
          rw [found] at now
          exact absurd (now.of_eq (handle_desktop _ _)) locked

/-- In a run whose commands skip no gate that is on, the session is unlocked only past every
gate. -/
theorem unlocked_past_gates {c : HostSuite} (s : Computer) (run : Run)
    (gated : Along c (fun s op os => op.Gated c s os) s run) :
    Along c (fun s op os => op.Lawful c s os) s run :=
  Along.of_invariant (I := fun _ => True) (fun _ _ _ _ gated => ⟨Op.lawful gated, trivial⟩) trivial
    run gated

/-- Hello is turned on, the app is locked, and unlocked again by some command. -/
def helloRun (unlock : DesktopOp) : Run :=
  [(.launch, fineOutcomes), (.command (.helloSet true), fineOutcomes),
   (.command .lock, fineOutcomes), (.command unlock, fineOutcomes)]

/-- The computer when the last command of the run starts. -/
def helloLocked : Computer :=
  freshComputer.after sampleRecords.hostSuite ((helloRun .lock).take 3)

/-- The recovery unlock looks neither at the recovery key nor at the gates. -/
theorem recovery_skips_hello :
    ¬ Along sampleRecords.hostSuite (fun s op os => op.Lawful sampleRecords.hostSuite s os)
      freshComputer (helloRun (.unlockRecovery "not the recovery key")) := by
  rintro ⟨-, -, -, lawful, -⟩
  have locked : ¬ Unlocked helloLocked.world := by
    have off : helloLocked.world.desktop = some none := by decide +kernel
    rintro ⟨vk, found⟩
    rw [off] at found
    cases found
  have unlocked : Unlocked ((Op.command (.unlockRecovery "not the recovery key")).passage
      sampleRecords.hostSuite helloLocked (fineOutcomes.take 12)).world :=
    ⟨sampleKey, by decide +kernel⟩
  have required : helloLocked.world.settings.requireHello = true := by decide +kernel
  obtain ⟨message, seen⟩ := (lawful locked 12 unlocked).hello required
  have never : ∀ x ∈ ((Op.command (.unlockRecovery "not the recovery key")).passage
      sampleRecords.hostSuite helloLocked (fineOutcomes.take 12)).trace,
      (match x.1 with | .helloVerify _ => true | _ => false) = false := by decide +kernel
  cases never _ seen

/-- The platform unlock asks for Hello. -/
theorem platform_asks_hello :
    Along sampleRecords.hostSuite (fun s op os => op.Lawful sampleRecords.hostSuite s os)
      freshComputer (helloRun .unlockPlatform) :=
  unlocked_past_gates freshComputer (helloRun .unlockPlatform)
    ⟨trivial, trivial, trivial, .inl (by decide +kernel), trivial⟩

end Sentinel.Desktop
