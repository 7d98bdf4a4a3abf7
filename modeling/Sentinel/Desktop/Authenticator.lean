import Sentinel.Desktop.Gates

/-!
# Enrolling an authenticator

The keychain has one entry for the secret of the authenticator, the settings file a flag that
makes its codes required. An enrollment stores a new secret in the entry at once and only
the confirmation sets the flag. As long as the flag is off the secret of an abandoned
enrollment is looked at by nobody; when it is on, the new secret replaces the confirmed one.
-/

namespace Sentinel.Desktop

open Vault Atomic

/-- The commands of the app lock, and the start and the end of the app. -/
def Op.appLock : Op → Bool
  | launch | quit => true
  | command op => match op with
      | .lock | .unlockPlatform | .unlockRecovery _ | .unlockPhoneAwait _ | .setPassword _
      | .unlockPassword .. | .changePassword .. | .removePassword .. | .totpEnroll
      | .totpConfirm _ | .totpDisable _ => true
      | _ => false
  | _ => false

/-- The settings file was written. -/
def storedSettings : Exchange Stmt Stmt.Result → Bool
  | ⟨.io (.settingsWrite _), .ok ()⟩ => true
  | _ => false

/-- The secret confirmed last, after the step: a confirmation that stores the flag confirms the
secret that the entry holds. -/
def Op.confirmed (c : HostSuite) (s : Computer) (os : List Outcome) (op : Op)
    (last : Option String) : Option String :=
  match op with
  | command (.totpConfirm _) =>
      if (op.passage c s os).trace.any storedSettings then s.world.totpSecret else last
  | _ => last

/-- The secret confirmed last in a run. -/
def lastConfirmed (c : HostSuite) : Computer → Option String → Run → Option String
  | _, last, [] => last
  | s, last, (op, os) :: rest => lastConfirmed c (op.next c s os) (op.confirmed c s os last) rest

/-- `check_totp` lets the code pass. -/
def Accepts (c : Suite) (w : World) (code : Option String) (os : List Outcome) : Prop :=
  (observe (checkTotp c code) os w).answer = some (.ok ())

section Stages

variable {c : Suite} {w w' : World} {t : Trace} {code : String}

/-- The flag and the entry are as they were. -/
def SameGate (w w' : World) : Prop := w'.settings = w.settings ∧ w'.totpSecret = w.totpSecret

theorem Minting.sameGate (h : Minting w w') : SameGate w w' := by
  obtain rfl | ⟨-, vk, rfl⟩ := h <;> exact ⟨rfl, rfl⟩

theorem Writing.sameGate {bytes : Bytes} (h : Writing bytes w w') : SameGate w w' := by
  obtain ⟨wrap, tmp, rfl, -⟩ := h
  exact ⟨rfl, rfl⟩

theorem SetPassword.sameGate {password : String} (h : SetPassword c password w w') :
    SameGate w w' := by
  cases h with
  | untouched => exact ⟨rfl, rfl⟩
  | minting _ _ minting => exact minting.sameGate
  | sealing _ _ source _ writing =>
      obtain ⟨settings, secret⟩ := source.minting.sameGate
      exact ⟨writing.sameGate.1.trans settings, writing.sameGate.2.trans secret⟩
  | dropped wk _ _ source | unlocked wk _ _ source => exact source.minting.sameGate

theorem ChangePassword.sameGate {old new : String} {code : Option String}
    (h : ChangePassword c old new code w t w') : SameGate w w' := by
  cases h with
  | untouched | unlocked => exact ⟨rfl, rfl⟩
  | sealing _ _ _ _ writing => exact writing.sameGate

theorem RemovePassword.sameGate {password : String} {code : Option String}
    (h : RemovePassword c password code w t w') : SameGate w w' := by
  cases h <;> exact ⟨rfl, rfl⟩

theorem UnlockPassword.sameGate {password : String} {code : Option String}
    (h : UnlockPassword c password code w t w') : SameGate w w' := by
  obtain rfl | ⟨vk, -, -, rfl⟩ := h <;> exact ⟨rfl, rfl⟩

theorem Reunlock.sameGate (h : Reunlock c w w') : SameGate w w' := by
  obtain rfl | ⟨-, vk, -, rfl⟩ := h <;> exact ⟨rfl, rfl⟩

theorem UnlockPlatform.sameGate (h : UnlockPlatform c w t w') : SameGate w w' := by
  obtain rfl | ⟨-, stage⟩ := h
  · exact ⟨rfl, rfl⟩
  · exact stage.sameGate

theorem Locking.sameGate (h : Locking w w') : SameGate w w' := by
  obtain rfl | rfl := h <;> exact ⟨rfl, rfl⟩

theorem Launch.sameGate (h : Launch c w w') : SameGate w w' := by
  cases h with
  | untouched | locked => exact ⟨rfl, rfl⟩
  | minting _ minting => exact minting.sameGate
  | unlocked wk _ source => exact source.minting.sameGate

/-- The stages of `applock_totp_enroll`. -/
def Enrolling (w w' : World) : Prop :=
  w' = w ∨ ∃ secret, w' = { w with totpSecret := some secret }

theorem applockTotpEnroll_always :
    applockTotpEnroll.Always exec (fun _ => Enrolling w) (fun _ _ => Enrolling w) w := by
  rw [applockTotpEnroll, Routine.always_bind]
  refine always_random fun drawn => ⟨.inl rfl, ?_⟩
  rw [Routine.always_andThen_ok, Routine.always_bind, totpSecretStore, Routine.always_bind]
  refine keyEntry_always.mono (fun _ _ still => .inl still) ?_
  rintro t (e | ⟨⟩) w' ⟨rfl, -⟩
  · exact .inl rfl
  · rw [Routine.always_andThen_ok]
    refine always_io (fun e n => ⟨.inl rfl, .inl rfl⟩) nofun ?_
    rintro w'' performed
    cases performed
    exact ⟨.inr ⟨_, rfl⟩, .inr ⟨_, rfl⟩⟩

/-- The stages of writing the flag; a failed write leaves no flag. -/
inductive SettingFlag (val : Bool) (w : World) (t : Trace) : World → Prop where
  | untouched : SettingFlag val w t w
  | unreadable : SettingFlag val w t { w with settings := .unreadable }
  | written (settings : Settings) : settings.totpEnabled = val → t.any storedSettings = true →
      SettingFlag val w t { w with settings := settings }

theorem setTotpFlag_always {val : Bool} :
    (setTotpFlag val).Always exec (SettingFlag val w) (fun t r w' => SettingFlag val w t w' ∧
      (r = .ok () → ∃ settings, settings.totpEnabled = val ∧
        w' = { w with settings := settings })) w := by
  simp only [setTotpFlag, Routine.always_bind, always_settingsRead, Routine.always_andThen_ok]
  refine ⟨.untouched, ?_⟩
  refine always_io ?_ ?_ ?_
  · intro e n
    have left : ∀ t, SettingFlag val w t
        { w with settings := if n = 0 then w.settings else .unreadable } := by
      intro t
      split
      · exact .untouched
      · exact .unreadable
    refine ⟨left _, left _, fun done => ?_⟩
    cases done
  · intro performed
    cases performed
  · rintro w' performed
    cases performed
    refine ⟨.written _ ?_ rfl, .written _ ?_ rfl, fun _ => ⟨_, ?_, rfl⟩⟩
    -- the write goes to an object, whatever the file was before
    all_goals cases w.settings <;> rfl

theorem SettingFlag.append (h : SettingFlag val w t w') (before : Trace) :
    SettingFlag val w (before ++ t) w' := by
  cases h with
  | untouched => exact .untouched
  | unreadable => exact .unreadable
  | written settings flag stored =>
      refine .written settings flag ?_
      rw [List.any_append, stored, Bool.or_true]

/-- The stages of `applock_totp_confirm`: the flag is written only for a code of the secret. -/
def Confirming (c : Suite) (code : String) (w : World) (t : Trace) (w' : World) : Prop :=
  w' = w ∨ (∃ time, CodeFits c w (some code) time) ∧ SettingFlag true w t w'

theorem applockTotpConfirm_always :
    (applockTotpConfirm c code).Always exec (Confirming c code w)
      (fun t _ => Confirming c code w t) w := by
  rw [applockTotpConfirm, Routine.always_bind]
  refine totpSecretLoad_always.mono (fun _ _ still => .inl still) ?_
  rintro t₁ (e | stored) w' ⟨rfl, loaded⟩
  · exact .inl rfl
  · obtain rfl := loaded stored rfl
    simp only [Routine.always_andThen_ok, Routine.always_bind, always_orFail]
    cases found : w'.totpSecret with
    | none => exact .inl rfl
    | some secret =>
        simp only [Option.elim, Except.mapError, Routine.always_andThen_ok, Routine.always_bind,
          always_orFail]
        cases parsed : TotpSecret.parse c.toTotpEngine secret with
        | error e => exact .inl rfl
        | ok s =>
            simp only [Routine.always_andThen_ok, nowUnix, Routine.always_bind]
            refine always_clock fun time _ _ => ⟨.inl rfl, ?_⟩
            simp only [Routine.always_andThen_ok, Routine.always_pure]
            generalize fits : s.verifyAt c.toTotpEngine (Api.trim code) (max 0 time).toNat = verdict
            cases verdict with
            | false => exact .inl rfl
            | true =>
                have fits : ∃ time, CodeFits c w' (some code) time :=
                  ⟨time, secret, s, code, found, parsed, rfl, fits⟩
                rw [if_pos rfl]
                refine setTotpFlag_always.mono (fun t w'' stage => .inr ⟨fits, ?_⟩)
                  fun t r w'' stage => .inr ⟨fits, ?_⟩
                · exact (stage.append [⟨.clock, time⟩]).append t₁
                · exact (stage.1.append [⟨.clock, time⟩]).append t₁

/-- The stages of `applock_totp_disable`: whatever it changes, the flag is off. -/
def Disabling (w w' : World) : Prop :=
  w' = w ∨ w'.settings.totpEnabled = false

theorem SettingFlag.disabling (h : SettingFlag false w t w') : Disabling w w' := by
  cases h with
  | untouched => exact .inl rfl
  | unreadable => exact .inr rfl
  | written settings flag _ => exact .inr flag

theorem totpSecretDelete_always (off : w.settings.totpEnabled = false) :
    totpSecretDelete.Always exec (fun _ w' => w'.settings.totpEnabled = false)
      (fun _ _ w' => w'.settings.totpEnabled = false) w := by
  rw [totpSecretDelete, Routine.always_bind]
  refine keyEntry_always.mono (fun _ w' still => by rw [still]; exact off) ?_
  rintro t (e | ⟨⟩) w' ⟨rfl, -⟩
  · exact off
  · rw [Routine.always_andThen_ok, Routine.always_bind, always_sys]
    intro o
    have left : (exec .totpDelete o w').2.settings.totpEnabled = false := by
      simp only [exec, entryDelete]
      cases o.fault <;> cases w'.totpSecret <;> exact off
    refine ⟨left, ?_⟩
    rw [Routine.always_andThen_ok]
    cases (exec .totpDelete o w').1 with
    | ok _ => exact left
    | error e => cases e <;> exact left

theorem applockTotpDisable_always :
    (applockTotpDisable c code).Always exec (fun _ => Disabling w) (fun _ _ => Disabling w) w := by
  -- the flag first, then the entry
  have turnOff : ((do setTotpFlag false; totpSecretDelete) : Command Unit).Always exec
      (fun _ => Disabling w) (fun _ _ => Disabling w) w := by
    rw [Routine.always_bind]
    refine setTotpFlag_always.mono (fun t w' stage => stage.disabling) ?_
    rintro t (e | ⟨⟩) w' ⟨stage, done⟩
    · exact stage.disabling
    · obtain ⟨settings, off, rfl⟩ := done rfl
      rw [Routine.always_andThen_ok]
      exact (totpSecretDelete_always off).mono (fun _ _ => .inr) fun _ _ _ => .inr
  rw [applockTotpDisable, Routine.always_bind]
  refine totpSecretLoad_always.mono (fun _ _ still => .inl still) ?_
  rintro t₁ (e | stored) w' ⟨rfl, -⟩
  · exact .inl rfl
  rw [Routine.always_andThen_ok]
  cases stored with
  | none => exact turnOff
  | some secret =>
      simp only [Routine.always_bind, always_orFail]
      cases TotpSecret.parse c.toTotpEngine secret with
      | error e => exact .inl rfl
      | ok s =>
          simp only [Except.mapError, Routine.always_andThen_ok, nowUnix, Routine.always_bind]
          refine always_clock fun time _ _ => ⟨.inl rfl, ?_⟩
          simp only [Routine.always_andThen_ok, Routine.always_pure]
          cases s.verifyAt c.toTotpEngine (Api.trim code) (max 0 time).toNat with
          | false => exact .inl rfl
          | true => exact turnOff

/-- Without the flag no code is asked for, whatever the entry holds. -/
theorem accepts_of_off (off : w.settings.totpEnabled = false) (given : Option String)
    (os : List Outcome) : Accepts c w given os ↔ os ≠ [] := by
  cases os with
  | nil => exact ⟨fun h => (by cases h), fun h => absurd rfl h⟩
  | cons o os =>
      have done : Prog.feed exec (checkTotp c given) (o :: os) w = (.done (.ok ()), w) := by
        have open_ : ∀ m : Command Unit,
            (if w.settings.totpEnabled = true then m else pure ()) = pure () := by
          intro m
          rw [off, if_neg Bool.false_ne_true]
        refine (congrArg (fun p => Prog.feed exec p os w) (open_ _)).trans ?_
        cases os <;> rfl
      have answer : (observe (checkTotp c given) (o :: os) w).answer = some (.ok ()) := by
        simp only [observe, done]
      exact ⟨fun _ => List.cons_ne_nil _ _, fun _ => answer⟩

end Stages

/-- While a code is required, the entry holds the secret that was confirmed last. -/
def Confirmed (last : Option String) (w : World) : Prop :=
  w.settings.totpEnabled = true → ∃ secret, last = some secret ∧ w.totpSecret = some secret

theorem Confirmed.of_off {last : Option String} {w : World} (off : w.settings.totpEnabled = false) :
    Confirmed last w := by
  intro on
  rw [off] at on
  cases on

theorem Confirmed.of_sameGate {last : Option String} {w w' : World} (h : Confirmed last w)
    (same : SameGate w w') : Confirmed last w' := by
  intro on
  rw [same.1] at on
  rw [same.2]
  exact h on

/-- While a code is required, `check_totp` verifies codes against the secret that was confirmed
last. -/
def VerifiesConfirmed (c : Suite) (last : Option String) (w : World) : Prop :=
  w.settings.totpEnabled = true → ∃ secret, last = some secret ∧ w.totpSecret = some secret ∧
    ∀ code os, Accepts c w code os → ∃ t text time, TotpSecret.parse c.toTotpEngine secret = .ok t ∧
      code = some text ∧ ⟨.clock, time⟩ ∈ (observe (checkTotp c code) os w).trace ∧
      t.verifyAt c.toTotpEngine (Api.trim text) (max 0 time).toNat = true

theorem Confirmed.verifies {c : Suite} {last : Option String} {w : World} (h : Confirmed last w) :
    VerifiesConfirmed c last w := by
  intro on
  obtain ⟨secret, confirmed, stored⟩ := h on
  refine ⟨secret, confirmed, stored, fun code os accepted => ?_⟩
  obtain ⟨same, passed⟩ := (observe_always checkTotp_always rfl os).2 _ accepted
  obtain ⟨time, seen, secret', t, text, stored', parsed, given, fits⟩ := passed rfl on
  cases stored.symm.trans stored'
  exact ⟨t, text, time, parsed, given, seen, fits⟩

/-- An enrollment is started only while no code is required. -/
def Op.EnrollsOff (s : Computer) (op : Op) : Prop :=
  op = .command .totpEnroll → s.world.settings.totpEnabled = false

-- the specifications of the commands are used as they are stated, never unfolded
seal Routine.Always

/-- The world after one step, the app being killed or not. -/
theorem Op.confirmed_passage {c : HostSuite} {s : Computer} {op : Op} {os : List Outcome}
    {last : Option String} (lock : op.appLock = true) (off : op.EnrollsOff s)
    (h : Confirmed last s.world) :
    Confirmed (op.confirmed c s os last) (op.passage c s os).world := by
  cases op with
  | launch =>
      have stage : Launch c.toSuite { s.world with desktop := none }
          (observe (newPersistent c.toSuite) os { s.world with desktop := none }).world :=
        (observe_always newPersistent_always .untouched _).1
      have start : Confirmed last { s.world with desktop := none } := h
      exact start.of_sameGate stage.sameGate
  | quit => exact h
  | command op =>
      by_cases running : s.world.desktop = none
      · have same : (Op.command op).passage c s os = .still s.world := if_pos running
        have kept : (Op.command op).confirmed c s os last = last := by
          cases op with
          | totpConfirm code =>
              rw [confirmed, same]
              rfl
          | _ => rfl
        rw [kept, same]
        exact h
      have same : (Op.command op).passage c s os = op.passage c.toSuite os s.world := if_neg running
      rw [same]
      cases op with
      | totpEnroll =>
          -- the entry may have a new secret, which nobody looks at
          have stage : Enrolling s.world (observe applockTotpEnroll os s.world).world :=
            (observe_always applockTotpEnroll_always (.inl rfl) os).1
          have same : (observe applockTotpEnroll os s.world).world.settings = s.world.settings := by
            obtain same | ⟨secret, same⟩ := stage <;> rw [same]
          exact .of_off ((congrArg Settings.totpEnabled same).trans (off rfl))
      | totpConfirm code =>
          have kept : Confirmed ((Op.command (.totpConfirm code)).confirmed c s os last) s.world := by
            intro on
            obtain ⟨secret, rfl, stored⟩ := h on
            refine ⟨secret, ?_, stored⟩
            rw [confirmed, stored]
            exact ite_self _
          have stage : Confirming c.toSuite code s.world
              (observe (applockTotpConfirm c.toSuite code) os s.world).trace
              (observe (applockTotpConfirm c.toSuite code) os s.world).world :=
            (observe_always applockTotpConfirm_always (.inl rfl) os).1
          change Confirmed _ (observe (applockTotpConfirm c.toSuite code) os s.world).world
          have traced : ((Op.command (.totpConfirm code)).passage c s os).trace =
              (observe (applockTotpConfirm c.toSuite code) os s.world).trace :=
            congrArg Passage.trace same
          obtain same | ⟨⟨time, secret, t, text, enrolled, -⟩, stage⟩ := stage
          · rw [same]
            exact kept
          · generalize (observe (applockTotpConfirm c.toSuite code) os s.world).world = w' at stage
            cases stage with
            | untouched => exact kept
            | unreadable => exact .of_off rfl
            | written settings flag stored =>
                refine fun _ => ⟨secret, ?_, enrolled⟩
                rw [confirmed, traced, if_pos stored, enrolled]
      | totpDisable code =>
          have stage : Disabling s.world
              (observe (applockTotpDisable c.toSuite code) os s.world).world :=
            (observe_always applockTotpDisable_always (.inl rfl) os).1
          obtain same | off := stage
          · exact h.of_sameGate ⟨congrArg World.settings same, congrArg World.totpSecret same⟩
          · exact .of_off off
      | lock => exact h.of_sameGate (observe_always lock_always (.inl rfl) os).1.sameGate
      | unlockPlatform =>
          exact h.of_sameGate (observe_always unlockPlatform_always (.inl rfl) os).1.sameGate
      | unlockRecovery | unlockPhoneAwait =>
          exact h.of_sameGate (observe_always reunlock_always (.inl rfl) os).1.sameGate
      | setPassword password =>
          rw [DesktopOp.passage]
          exact h.of_sameGate (observe_always authSetPassword_always .untouched os).1.sameGate
      | unlockPassword password code =>
          rw [DesktopOp.passage]
          exact h.of_sameGate (observe_always authUnlockPassword_always (.inl rfl) os).1.sameGate
      | changePassword oldPassword newPassword code =>
          rw [DesktopOp.passage]
          exact h.of_sameGate (observe_always authChangePassword_always .untouched os).1.sameGate
      | removePassword password code =>
          rw [DesktopOp.passage]
          exact h.of_sameGate (observe_always authRemovePassword_always .untouched os).1.sameGate
      | _ => cases lock
  | _ => cases lock

/-- The computer after one step. -/
theorem Op.confirmed_next {c : HostSuite} {s : Computer} {op : Op} {os : List Outcome}
    {last : Option String} (lock : op.appLock = true) (off : op.EnrollsOff s)
    (h : Confirmed last s.world) :
    Confirmed (op.confirmed c s os last) (op.next c s os).world := by
  have passed := @confirmed_passage c s op os last lock off h
  cases op with
  | launch | quit | command op =>
      rw [next]
      dsimp only
      split
      · exact passed
      · exact passed
  | _ => cases lock

/-- An enrollment changes neither whether a code is required nor which codes are accepted. -/
def Op.EnrollsQuietly (c : HostSuite) (s : Computer) (op : Op) (os : List Outcome) : Prop :=
  op = .command .totpEnroll →
    (op.next c s os).world.settings.totpEnabled = s.world.settings.totpEnabled ∧
      ∀ code os', Accepts c.toSuite (op.next c s os).world code os' ↔
        Accepts c.toSuite s.world code os'

theorem Op.enrollsQuietly {c : HostSuite} {s : Computer} {op : Op} (off : op.EnrollsOff s)
    (os : List Outcome) : op.EnrollsQuietly c s os := by
  rintro rfl
  have before := off rfl
  have settings : ((Op.command .totpEnroll).next c s os).world.settings = s.world.settings := by
    have passed : ((Op.command .totpEnroll).passage c s os).world.settings = s.world.settings := by
      rw [passage]
      split
      · rfl
      · have stage : Enrolling s.world (observe applockTotpEnroll os s.world).world :=
          (observe_always applockTotpEnroll_always (.inl rfl) os).1
        change (observe applockTotpEnroll os s.world).world.settings = s.world.settings
        obtain same | ⟨secret, same⟩ := stage <;> rw [same]
    rw [next]
    dsimp only
    split
    · exact passed
    · exact passed
  have after : ((Op.command .totpEnroll).next c s os).world.settings.totpEnabled = false := by
    rw [settings, before]
  refine ⟨after.trans before.symm, fun code os' => ?_⟩
  rw [accepts_of_off after, accepts_of_off before]

/-- In every run of the app lock that starts with no code required, with any codes, failing
calls and kills, and in which an enrollment is started only while no code is required: whenever
one is required, it is one of the secret confirmed last, and no enrollment changes whether a
code is required or which codes are accepted. -/
theorem enrollment_waits_for_confirmation (c : HostSuite) (s : Computer) (run : Run)
    (off : s.world.settings.totpEnabled = false)
    (lock : Along c (fun _ op _ => op.appLock = true) s run)
    (quiet : Along c (fun s op _ => op.EnrollsOff s) s run) :
    (∀ past rest, run = past ++ rest →
      VerifiesConfirmed c.toSuite (lastConfirmed c s none past) (s.after c past).world) ∧
    Along c (fun s op os => op.EnrollsQuietly c s os) s run := by
  refine ⟨?_, ?_⟩
  · have general : ∀ past rest s last, Along c (fun _ op _ => op.appLock = true) s (past ++ rest) →
        Along c (fun s op _ => op.EnrollsOff s) s (past ++ rest) → Confirmed last s.world →
        Confirmed (lastConfirmed c s last past) (s.after c past).world := by
      intro past rest
      induction past with
      | nil => exact fun s last _ _ h => h
      | cons entry past ih =>
          obtain ⟨op, os⟩ := entry
          exact fun s last lock quiet h => ih _ _ lock.2 quiet.2 (Op.confirmed_next lock.1 quiet.1 h)
    rintro past rest rfl
    exact (general past rest s none lock quiet (.of_off off)).verifies
  · exact Along.of_invariant (I := fun _ => True)
      (fun s op os _ quiet => ⟨Op.enrollsQuietly quiet os, trivial⟩) trivial run quiet

/-- The codes of two secrets in the first minute. -/
def authenticatorRecords : Records where
  hmac :=
    [((.sha1, List.replicate 20 9, Api.toBeBytes 0),
      [52, 163, 9, 112, 231, 20, 129, 138, 206, 8, 232, 92, 207, 72, 88, 142, 234, 64, 44, 83]),
     ((.sha1, List.replicate 20 9, Api.toBeBytes 1),
      [46, 242, 44, 191, 253, 182, 117, 105, 207, 111, 122, 85, 162, 219, 45, 209, 244, 67, 111,
       138]),
     ((.sha1, List.replicate 20 7, Api.toBeBytes 0),
      [20, 254, 158, 163, 71, 87, 171, 150, 114, 50, 184, 169, 79, 14, 27, 223, 190, 254, 51,
       119]),
     ((.sha1, List.replicate 20 7, Api.toBeBytes 1),
      [156, 252, 198, 43, 195, 15, 24, 164, 106, 186, 165, 254, 69, 231, 22, 228, 117, 237, 96,
       198])]

/-- The authenticator is enrolled and confirmed, and an unlock asks for its code. -/
def enrollRun : Run :=
  [(.launch, fineOutcomes), (.command .totpEnroll, fineOutcomes),
   (.command (.totpConfirm "192257"), fineOutcomes),
   (.command (.unlockPassword "correct horse" (some "192257")), fineOutcomes)]

theorem enrollment_waits_once :
    (∀ past rest, enrollRun = past ++ rest →
      VerifiesConfirmed authenticatorRecords.hostSuite.toSuite
        (lastConfirmed authenticatorRecords.hostSuite freshComputer none past)
        (freshComputer.after authenticatorRecords.hostSuite past).world) ∧
    Along authenticatorRecords.hostSuite
      (fun s op os => op.EnrollsQuietly authenticatorRecords.hostSuite s os) freshComputer
      enrollRun :=
  enrollment_waits_for_confirmation _ freshComputer enrollRun rfl ⟨rfl, rfl, rfl, rfl, trivial⟩
    ⟨fun h => (by cases h), fun _ => by decide +kernel, fun h => (by cases h),
      fun h => (by cases h), trivial⟩

/-- After a confirmation another enrollment is started, and never confirmed. -/
def abandonedRun : Run :=
  [(.launch, fineOutcomes), (.command .totpEnroll, fineOutcomes),
   (.command (.totpConfirm "192257"), fineOutcomes),
   (.command .totpEnroll, List.replicate 12 { draw := fun _ => 7 })]

/-- The computer before and after the abandoned enrollment. -/
def beforeAbandoned : Computer :=
  freshComputer.after authenticatorRecords.hostSuite (abandonedRun.take 3)

def afterAbandoned : Computer := freshComputer.after authenticatorRecords.hostSuite abandonedRun

/-- The codes are required that the owner has no authenticator for. -/
theorem abandoned_enrollment_takes_effect :
    ¬ VerifiesConfirmed authenticatorRecords.hostSuite.toSuite
        (lastConfirmed authenticatorRecords.hostSuite freshComputer none abandonedRun)
        afterAbandoned.world ∧
      ¬ Along authenticatorRecords.hostSuite
        (fun s op os => op.EnrollsQuietly authenticatorRecords.hostSuite s os) freshComputer
        abandonedRun := by
  refine ⟨fun verifies => ?_, fun quiet => ?_⟩
  · obtain ⟨secret, confirmed, stored, -⟩ := verifies (by decide +kernel)
    have other : lastConfirmed authenticatorRecords.hostSuite freshComputer none abandonedRun ≠
        afterAbandoned.world.totpSecret := by decide +kernel
    exact other (confirmed.trans stored.symm)
  · obtain ⟨-, -, -, quiet, -⟩ := quiet
    have before : Accepts authenticatorRecords.hostSuite.toSuite beforeAbandoned.world
        (some "192257") fineOutcomes := by
      unfold Accepts
      decide +kernel
    have after : ¬ Accepts authenticatorRecords.hostSuite.toSuite afterAbandoned.world
        (some "192257") fineOutcomes := by
      unfold Accepts
      decide +kernel
    exact after (((quiet rfl).2 _ _).mpr before)

end Sentinel.Desktop
