import Sentinel.Desktop.AppLock

/-!
# What the key functions do

For every function that touches a key: the worlds it passes through, whatever fails and
wherever it is cut off, and the worlds it ends in. The commands of the app lock are
described by one relation each (`SetPassword`, `ChangePassword`, ...), with a constructor
for each stage; the properties of the app lock are derived from these relations and never
look at the code again.
-/

namespace Sentinel.Desktop

open Vault Atomic

variable {c : Suite} {w : World}

/-- The exchanges of a command with the computer. -/
abbrev Trace := List (Exchange Stmt Stmt.Result)

/-- The keychain entry is a text of the key. -/
def Holds (c : Suite) (w : World) (vk : Key) : Prop :=
  ∃ text, w.keychain = some text ∧ decodeKey c text = .ok vk

/-- `vault-key.wrap` opens to the key under the password. -/
def WrapOpens (c : Suite) (w : World) (password : String) (vk : Key) : Prop :=
  ∃ bytes, w.wrap = some bytes ∧ Opens c bytes password vk

/-- The submitted code is one of the enrolled secret at the time. -/
def CodeFits (c : Suite) (w : World) (code : Option String) (time : Int) : Prop :=
  ∃ secret t text, w.totpSecret = some secret ∧ TotpSecret.parse c.toTotpEngine secret = .ok t ∧
    code = some text ∧ t.verifyAt c.toTotpEngine (Api.trim text) (max 0 time).toNat = true

/-- If a code is required, the submitted one was verified at the time the clock showed. -/
def CodePassed (c : Suite) (w : World) (code : Option String) (t : Trace) : Prop :=
  w.settings.totpEnabled = true → ∃ time, ⟨.clock, time⟩ ∈ t ∧ CodeFits c w code time

/-- If Windows Hello is required, the user passed it. -/
def HelloPassed (w : World) (t : Trace) : Prop :=
  w.settings.requireHello = true → ∃ message, ⟨.helloVerify message, .ok true⟩ ∈ t

/-- A call to the keychain failed. -/
def KeychainFault (t : Trace) : Prop :=
  ∃ e, ⟨.io .keyEntry, .error e⟩ ∈ t ∨ ⟨.keyDelete, .error (.other e)⟩ ∈ t ∨
    ∃ text, ⟨.io (.keySet text), .error e⟩ ∈ t

theorem KeychainFault.mono {t t' : Trace} (h : KeychainFault t) (more : ∀ x ∈ t, x ∈ t') :
    KeychainFault t' := by
  obtain ⟨e, entry | deletion | ⟨text, stored⟩⟩ := h
  · exact ⟨e, .inl (more _ entry)⟩
  · exact ⟨e, .inr (.inl (more _ deletion))⟩
  · exact ⟨e, .inr (.inr ⟨text, more _ stored⟩)⟩

theorem KeychainFault.append {t : Trace} (h : KeychainFault t) (before after : Trace) :
    KeychainFault (before ++ t ++ after) :=
  h.mono fun _ here => List.mem_append_left _ (List.mem_append_right _ here)

section Reading

/-- Nothing changes. -/
def Still (w : World) (_ : Trace) (w' : World) : Prop := w' = w

theorem keyEntry_always {f : String → Failure} :
    (io .keyEntry f).Always exec (Still w) (fun t r w' => w' = w ∧
      ∀ e, r = .error e → KeychainFault t) w := by
  refine always_io ?_ nofun ?_
  · intro e n
    exact ⟨rfl, rfl, fun _ _ => ⟨e, .inl (List.mem_singleton_self _)⟩⟩
  · rintro w' performed
    cases performed
    exact ⟨rfl, rfl, nofun⟩

theorem readWrap_always :
    readWrap.Always exec (Still w) (fun _ r w' => w' = w ∧
      ∀ blob, r = .ok blob → ∃ bytes, w.wrap = some bytes ∧ blob = ⟨.password, bytes⟩) w := by
  simp only [readWrap, Routine.always_bind, always_sys, Routine.always_andThen_ok, always_orFail]
  intro o
  refine ⟨rfl, ?_⟩
  simp only [exec, fallible]
  cases o.fault with
  | some e => exact ⟨rfl, by rintro _ ⟨⟩⟩
  | none =>
      cases found : w.wrap with
      | none => exact ⟨rfl, by rintro _ ⟨⟩⟩
      | some bytes =>
          refine ⟨rfl, ?_⟩
          rintro blob same
          cases same
          exact ⟨bytes, rfl, rfl⟩

theorem totpSecretLoad_always :
    totpSecretLoad.Always exec (Still w) (fun _ r w' => w' = w ∧
      ∀ secret, r = .ok secret → secret = w.totpSecret) w := by
  rw [totpSecretLoad, Routine.always_bind]
  refine keyEntry_always.mono (fun _ _ still => still) ?_
  rintro t (e | ⟨⟩) w' ⟨rfl, -⟩
  · exact ⟨rfl, nofun⟩
  · rw [Routine.always_andThen_ok, Routine.always_bind]
    refine always_totpGet (fun e => ⟨rfl, rfl, nofun⟩) ?_ ?_
    · refine fun absent => ⟨rfl, rfl, ?_⟩
      rintro secret same
      cases same
      exact absent.symm
    · refine fun text found => ⟨rfl, rfl, ?_⟩
      rintro secret same
      cases same
      exact found.symm

theorem ok_of_mapError {ε ε' α : Type} {x : Except ε α} {f : ε → ε'} {a : α}
    (h : x.mapError f = .ok a) : x = .ok a := by
  cases x with
  | error e => cases h
  | ok b =>
      cases h
      rfl

theorem loadKeyStrict_always :
    (loadKeyStrict c).Always exec (Still w) (fun _ r w' => w' = w ∧
      ∀ vk, r = .ok vk → Holds c w vk) w := by
  rw [loadKeyStrict, Routine.always_bind]
  refine keyEntry_always.mono (fun _ _ still => still) ?_
  rintro t (e | ⟨⟩) w' ⟨rfl, -⟩
  · exact ⟨rfl, nofun⟩
  · rw [Routine.always_andThen_ok, Routine.always_bind]
    refine always_keyGet (fun e => ⟨rfl, rfl, nofun⟩) (fun _ => ⟨rfl, rfl, nofun⟩) ?_
    refine fun text found => ⟨rfl, rfl, ?_⟩
    intro vk read
    exact ⟨text, found, ok_of_mapError read⟩

theorem given_eq_some {code : Option String} {text : String}
    (given : (code.map Api.trim).filter (fun t => decide (t ≠ "")) = some text) :
    ∃ raw, code = some raw ∧ text = Api.trim raw := by
  cases code with
  | none => cases given
  | some raw =>
      simp only [Option.map_some, Option.filter_eq_some_iff] at given
      obtain ⟨same, -⟩ := given
      cases same
      exact ⟨raw, rfl, rfl⟩

/-- `check_totp` changes nothing; it lets pass what it should. -/
theorem checkTotp_always {code : Option String} :
    (checkTotp c code).Always exec (Still w) (fun t r w' => w' = w ∧
      (r = .ok () → CodePassed c w code t)) w := by
  simp only [checkTotp, Routine.always_bind, always_settingsRead, Routine.always_andThen_ok]
  refine ⟨rfl, ?_⟩
  by_cases enabled : w.settings.totpEnabled = true
  · rw [if_pos enabled, Routine.always_bind]
    refine totpSecretLoad_always.mono (fun _ _ still => still) ?_
    rintro t (e | stored) w' ⟨rfl, loaded⟩
    · exact ⟨rfl, by rintro ⟨⟩⟩
    · obtain rfl := loaded stored rfl
      simp only [Routine.always_andThen_ok, Routine.always_bind, always_orFail]
      cases found : w'.totpSecret with
      | none => exact ⟨rfl, by rintro ⟨⟩⟩
      | some secret =>
          simp only [Option.elim, Except.mapError, Routine.always_andThen_ok]
          cases given : (code.map Api.trim).filter fun t => decide (t ≠ "") with
          | none => exact ⟨rfl, by rintro ⟨⟩⟩
          | some text =>
              simp only [Except.mapError, Routine.always_andThen_ok, always_orFail,
                Routine.always_bind]
              cases parsed : TotpSecret.parse c.toTotpEngine secret with
              | error e => exact ⟨rfl, by rintro ⟨⟩⟩
              | ok s =>
                  simp only [Routine.always_andThen_ok, nowUnix, Routine.always_bind]
                  refine always_clock fun time _ _ => ⟨rfl, ?_⟩
                  simp only [Routine.always_andThen_ok, Routine.always_pure]
                  generalize fits : s.verifyAt c.toTotpEngine text (max 0 time).toNat = verdict
                  cases verdict with
                  | false => exact ⟨rfl, by rintro ⟨⟩⟩
                  | true =>
                      refine ⟨rfl, fun _ _ => ⟨time, by simp, ?_⟩⟩
                      obtain ⟨raw, rfl, rfl⟩ := given_eq_some given
                      exact ⟨secret, s, raw, found, parsed, rfl, fits⟩
  · rw [if_neg enabled]
    exact ⟨rfl, fun _ on => absurd on enabled⟩

end Reading

section Writing

/-- The worlds on the way of `write_atomic`: the wrapper is the old one, the new one, or, on
Windows, for a while none. -/
def Writing (bytes : Bytes) (w w' : World) : Prop :=
  ∃ wrap tmp, w' = { w with wrap := wrap, tmp := tmp } ∧
    (wrap = w.wrap ∨ w.windows = true ∧ wrap = none ∨ wrap = some bytes)

/-- `write_atomic` gave up: the wrapper is the old one or, on Windows, gone. -/
def GaveUp (w w' : World) : Prop :=
  ∃ wrap tmp, w' = { w with wrap := wrap, tmp := tmp } ∧
    (wrap = w.wrap ∨ w.windows = true ∧ wrap = none)

/-- How `write_atomic` ends. -/
def Written (bytes : Bytes) (w : World) : Except Failure Unit → World → Prop
  | .ok (), w' => ∃ tmp, w' = { w with wrap := some bytes, tmp := tmp }
  | .error _, w' => GaveUp w w'

theorem GaveUp.writing {w' : World} (h : GaveUp w w') (bytes : Bytes) : Writing bytes w w' := by
  obtain ⟨wrap, tmp, rfl, same | ⟨windows, gone⟩⟩ := h
  · exact ⟨wrap, tmp, rfl, .inl same⟩
  · exact ⟨wrap, tmp, rfl, .inr (.inl ⟨windows, gone⟩)⟩

theorem GaveUp.removed {w' : World} (h : GaveUp w w') (windows : w.windows = true) :
    GaveUp w { w' with wrap := none } := by
  obtain ⟨wrap, tmp, rfl, -⟩ := h
  exact ⟨none, tmp, rfl, .inr ⟨windows, rfl⟩⟩

theorem GaveUp.tmp {w' : World} (h : GaveUp w w') (tmp : Option Bytes) :
    GaveUp w { w' with tmp := tmp } := by
  obtain ⟨wrap, _, rfl, reason⟩ := h
  exact ⟨wrap, tmp, rfl, reason⟩

/-- The rename at the end, and the clean-up after it. -/
theorem rename_always {bytes : Bytes} {w' : World} (so_far : GaveUp w w')
    (ready : w'.tmp = some bytes) :
    ((sys (.io .tmpRename) >>= fun res => match res with
      | .ok () => pure ()
      | .error e => do
          let _ ← sys (.io .tmpRemove)
          Routine.throw (.text ("replace file: " ++ e))) : Command Unit).Always exec
      (fun _ => Writing bytes w) (fun _ => Written bytes w) w' := by
  have cleanUp : ∀ (e : String) {w'' : World}, GaveUp w w'' →
      ((do
        let _ ← sys (.io .tmpRemove)
        Routine.throw (.text ("replace file: " ++ e))) : Command Unit).Always exec
        (fun _ => Writing bytes w) (fun _ => Written bytes w) w'' := by
    intro e w'' gaveUp
    rw [Routine.always_bind]
    refine always_sysIo (fun _ _ => ⟨gaveUp.writing bytes, gaveUp⟩)
      (fun _ _ => ⟨gaveUp.writing bytes, gaveUp⟩) ?_
    intro w₃ performed
    obtain ⟨-, -, rfl⟩ := Option.map_eq_some_iff.mp performed
    exact ⟨(gaveUp.tmp none).writing bytes, gaveUp.tmp none⟩
  rw [Routine.always_bind]
  refine always_sysIo (fun e _ => ⟨so_far.writing bytes, cleanUp e so_far⟩)
    (fun _ e => ⟨so_far.writing bytes, cleanUp e so_far⟩) ?_
  intro w'' performed
  obtain ⟨stored, found, rfl⟩ := Option.map_eq_some_iff.mp performed
  obtain rfl : stored = bytes := Option.some.inj (found.symm.trans ready)
  obtain ⟨wrap, tmp, rfl, -⟩ := so_far
  exact ⟨⟨some stored, none, rfl, .inr (.inr rfl)⟩, none, rfl⟩

theorem writeAtomic_always {bytes : Bytes} :
    (writeAtomic bytes).Always exec (fun _ => Writing bytes w) (fun _ => Written bytes w) w := by
  have start : GaveUp w w := ⟨w.wrap, w.tmp, rfl, .inl rfl⟩
  have step : ∀ tmp, Writing bytes w { w with tmp := tmp } := fun tmp => (start.tmp tmp).writing bytes
  rw [writeAtomic, Routine.always_bind]
  refine always_io (fun e n => ⟨start.writing bytes, start⟩) nofun ?_
  rintro w₁ performed
  cases performed
  refine ⟨step (some []), ?_⟩
  rw [Routine.always_andThen_ok, Routine.always_bind]
  refine always_io (fun e n => ⟨step _, start.tmp _⟩) nofun ?_
  rintro w₂ performed
  cases performed
  refine ⟨step (some bytes), ?_⟩
  rw [Routine.always_andThen_ok, Routine.always_bind]
  refine always_io (fun e n => ⟨step _, start.tmp _⟩) nofun ?_
  rintro w₃ performed
  cases performed
  refine ⟨step (some bytes), ?_⟩
  simp only [Routine.always_andThen_ok, Routine.always_bind, always_isWindows]
  refine ⟨step (some bytes), ?_⟩
  by_cases windows : w.windows = true
  · have removed := (start.tmp (some bytes)).removed windows
    rw [if_pos windows, Routine.always_bind]
    refine always_sysIo (fun _ _ => ⟨step _, rename_always (start.tmp _) rfl⟩)
      (fun _ _ => ⟨step _, rename_always (start.tmp _) rfl⟩) ?_
    intro w₄ performed
    obtain ⟨-, -, rfl⟩ := Option.map_eq_some_iff.mp performed
    exact ⟨removed.writing bytes, rename_always removed rfl⟩
  · rw [if_neg windows]
    exact rename_always (start.tmp _) rfl

/-- The world with the key in the keychain. -/
def World.withKey (w : World) (vk : Key) : World := { w with keychain := some (keyText vk) }

theorem holds_withKey (c : Suite) (w : World) (vk : Key) : Holds c (w.withKey vk) vk :=
  ⟨keyText vk, rfl, decodeKey_keyText c vk⟩

theorem eq_of_holds {vk vk' : Key} (h : Holds c w vk) (h' : Holds c w vk') : vk = vk' := by
  obtain ⟨text, found, decoded⟩ := h
  obtain ⟨text', found', decoded'⟩ := h'
  obtain rfl := Option.some.inj (found.symm.trans found')
  exact Except.ok.inj (decoded.symm.trans decoded')

/-- How storing a key ends. -/
def Stored (vk : Key) (w : World) (t : Trace) : Except Failure Unit → World → Prop
  | .ok (), w' => w' = w.withKey vk
  | .error _, w' => w' = w ∧ KeychainFault t

/-- The call that stores a key, in `store_key` and in `kc_set`. -/
theorem keySet_always {vk : Key} {f : String → Failure} :
    (io (.keySet (keyText vk)) f).Always exec (fun _ w' => w' = w ∨ w' = w.withKey vk)
      (Stored vk w) w := by
  refine always_io (fun e n => ⟨.inl rfl, rfl, e, .inr (.inr ⟨_, List.mem_singleton_self _⟩)⟩)
    nofun ?_
  intro w' performed
  cases performed
  exact ⟨.inr rfl, rfl⟩

/-- Looking for the entry and then storing the key. -/
theorem entryThenSet_always {vk : Key} {f g : String → Failure} :
    ((do
      io .keyEntry f
      io (.keySet (keyText vk)) g) : Command Unit).Always exec
      (fun _ w' => w' = w ∨ w' = w.withKey vk) (Stored vk w) w := by
  rw [Routine.always_bind]
  refine keyEntry_always.mono (fun _ _ still => .inl still) ?_
  rintro t (e | ⟨⟩) w' ⟨rfl, fault⟩
  · have failed := (fault e rfl).append [] []
    simp only [List.nil_append, List.append_nil] at failed
    exact ⟨rfl, by simpa using failed⟩
  · refine keySet_always.mono (fun _ _ stage => stage) ?_
    rintro t' (e | ⟨⟩) w'' ended
    · obtain ⟨rfl, failed⟩ := ended
      have later := failed.append t []
      rw [List.append_nil] at later
      exact ⟨rfl, later⟩
    · exact ended

theorem storeKey_always {vk : Key} :
    (storeKey vk).Always exec (fun _ w' => w' = w ∨ w' = w.withKey vk)
      (Stored vk w) w := by
  exact entryThenSet_always

theorem keyText_ne_empty (vk : Key) : keyText vk ≠ "" := by
  intro empty
  have read := Base64.decode_encode vk.bytes
  rw [← keyText, empty] at read
  have none_ : vk.bytes = [] := (Option.some.inj read).symm
  have whole := vk.length
  rw [none_] at whole
  cases whole

theorem kcSetVaultKey_always {vk : Key} :
    (kcSetVaultKey (keyText vk)).Always exec (fun _ w' => w' = w ∨ w' = w.withKey vk)
      (Stored vk w) w := by
  rw [kcSetVaultKey, trim_keyText, if_neg (keyText_ne_empty vk)]
  exact entryThenSet_always

/-- How deleting the key ends. -/
def Deleted (w : World) (t : Trace) : Except Failure Unit → World → Prop
  | .ok (), w' => w' = { w with keychain := none }
  | .error _, w' => w' = w ∧ KeychainFault t

theorem deleteKey_always :
    deleteKey.Always exec (fun _ w' => w' = w ∨ w' = { w with keychain := none }) (Deleted w) w := by
  rw [deleteKey, Routine.always_bind]
  refine keyEntry_always.mono (fun _ _ still => .inl still) ?_
  rintro t (e | ⟨⟩) w' ⟨rfl, fault⟩
  · have failed := (fault e rfl).append [] []
    exact ⟨rfl, by simpa using failed⟩
  · rw [Routine.always_andThen_ok, Routine.always_bind]
    refine always_keyDelete ?_ ?_ ⟨.inr rfl, rfl⟩
    · intro e
      exact ⟨.inl rfl, rfl, e, .inr (.inl (by simp))⟩
    · intro absent
      refine ⟨.inl rfl, ?_⟩
      cases w'
      cases absent
      rfl

/-- Where `load_or_create_key` has its key from: the entry, or a new one that it stored. -/
def Source (c : Suite) (vk : Key) (w w' : World) : Prop :=
  w' = w ∧ Holds c w vk ∨ w.keychain = none ∧ w' = w.withKey vk

/-- The worlds on the way of `load_or_create_key`. -/
def Minting (w w' : World) : Prop :=
  w' = w ∨ w.keychain = none ∧ ∃ vk, w' = w.withKey vk

theorem Source.minting {vk : Key} {w' : World} (h : Source c vk w w') : Minting w w' := by
  obtain ⟨rfl, -⟩ | ⟨absent, rfl⟩ := h
  · exact .inl rfl
  · exact .inr ⟨absent, vk, rfl⟩

/-- How `load_or_create_key` ends. -/
def Loaded (c : Suite) (w : World) : Except Failure Key → World → Prop
  | .ok vk, w' => Source c vk w w'
  | .error _, w' => w' = w

theorem loadOrCreateKey_always :
    (loadOrCreateKey c).Always exec (fun _ => Minting w) (fun _ => Loaded c w) w := by
  rw [loadOrCreateKey, Routine.always_bind]
  refine keyEntry_always.mono (fun _ _ still => .inl still) ?_
  rintro t (e | ⟨⟩) w' ⟨rfl, -⟩
  · rfl
  · rw [Routine.always_andThen_ok, Routine.always_bind]
    refine always_keyGet (fun e => ⟨.inl rfl, rfl⟩) ?_ ?_
    · intro absent
      refine ⟨.inl rfl, ?_⟩
      simp only [Routine.always_andThen_ok, Routine.always_bind, always_sys]
      intro o
      refine ⟨.inl rfl, ?_⟩
      refine keySet_always.mono ?_ ?_
      · rintro t w₁ (rfl | rfl)
        · exact .inl rfl
        · exact .inr ⟨absent, _, rfl⟩
      · rintro t (e | ⟨⟩) w₁ stored
        · exact stored.1
        · exact .inr ⟨absent, stored⟩
    · intro text found
      refine ⟨.inl rfl, ?_⟩
      simp only [Routine.always_andThen_ok, always_orFail]
      cases decoded : decodeKey c text with
      | error e => rfl
      | ok vk => exact .inl ⟨rfl, text, found, decoded⟩

/-- The wrapper of the key that `seal_new` makes for some salt and nonce. -/
def MadeFor (c : Suite) (vk : Key) (password : String) (bytes : Bytes) : Prop :=
  ∃ salt nonce, salt.length = 16 ∧ bytes = passwordBlob c password salt nonce vk

theorem sealNew_always {password : String} {vk : Key} :
    (sealNew c password vk).Always exec
      (fun _ w' => w' = w ∨ ∃ bytes, MadeFor c vk password bytes ∧ Writing bytes w w')
      (fun _ r w' => ∃ bytes, MadeFor c vk password bytes ∧ Written bytes w r w') w := by
  simp only [sealNew, Routine.always_bind, always_sys, Routine.always_andThen_ok]
  intro o
  refine ⟨.inl rfl, ?_⟩
  intro o'
  refine ⟨.inl rfl, ?_⟩
  have made : MadeFor c vk password (passwordBlob c password ((exec (.random 16) o w).1).1
      ⟨((exec (.random 24) o' w).1).1, ((exec (.random 24) o' w).1).2⟩ vk) :=
    ⟨_, _, (exec (.random 16) o w).1.2, rfl⟩
  refine writeAtomic_always.mono ?_ ?_
  · intro t w' writing
    exact .inr ⟨_, made, writing⟩
  · intro t r w' written
    exact ⟨_, made, written⟩

end Writing

section Traces

variable {code : Option String} {t : Trace}

theorem CodePassed.append (h : CodePassed c w code t) (before after : Trace) :
    CodePassed c w code (before ++ t ++ after) := by
  intro enabled
  obtain ⟨time, seen, fits⟩ := h enabled
  refine ⟨time, ?_, fits⟩
  simp only [List.mem_append]
  exact .inl (.inr seen)

end Traces

/-- The stages of `auth_set_password`. -/
inductive SetPassword (c : Suite) (password : String) (w : World) : World → Prop where
  | untouched : SetPassword c password w w
  | minting {w' : World} : tooShort password = false → w.wrap = none → Minting w w' →
      SetPassword c password w w'
  | sealing {vk : Key} {wk w' : World} {bytes : Bytes} : tooShort password = false → w.wrap = none →
      Source c vk w wk → MadeFor c vk password bytes → Writing bytes wk w' →
      SetPassword c password w w'
  | dropped (wk : World) {vk : Key} {bytes : Bytes} {tmp : Option Bytes} :
      tooShort password = false → w.wrap = none → Source c vk w wk → MadeFor c vk password bytes →
      SetPassword c password w { wk with wrap := some bytes, tmp := tmp, keychain := none }
  | unlocked (wk : World) {vk : Key} {bytes : Bytes} {tmp : Option Bytes} :
      tooShort password = false → w.wrap = none → Source c vk w wk → MadeFor c vk password bytes →
      SetPassword c password w
        { wk with wrap := some bytes, tmp := tmp, keychain := none, desktop := some (some vk) }

theorem authSetPassword_always {password : String} :
    (authSetPassword c password).Always exec (fun _ => SetPassword c password w)
      (fun _ _ => SetPassword c password w) w := by
  rw [authSetPassword]
  cases long : tooShort password with
  | true => exact .untouched
  | false =>
      simp only [Bool.false_eq_true, if_false, Routine.always_bind, always_wrapExists,
        Routine.always_andThen_ok]
      refine ⟨.untouched, ?_⟩
      cases free : w.wrap with
      | some bytes => exact .untouched
      | none =>
          simp only [Option.isSome_none, Bool.false_eq_true, if_false, Routine.always_bind]
          refine loadOrCreateKey_always.mono (fun t w' minting => .minting long free minting) ?_
          rintro t (e | vk) w₁ loaded
          · obtain rfl := loaded
            exact .untouched
          · rw [Routine.always_andThen_ok, Routine.always_bind]
            refine sealNew_always.mono ?_ ?_
            · rintro t w₂ (rfl | ⟨bytes, made, writing⟩)
              · exact .minting long free loaded.minting
              · exact .sealing long free loaded made writing
            · rintro t (e | ⟨⟩) w₂ ⟨bytes, made, written⟩
              · exact .sealing long free loaded made (written.writing bytes)
              · obtain ⟨tmp, rfl⟩ := written
                have here : SetPassword c password w { w₁ with wrap := some bytes, tmp := tmp } :=
                  .sealing long free loaded made ⟨_, tmp, rfl, .inr (.inr rfl)⟩
                simp only [Routine.always_andThen_ok, Routine.always_bind]
                refine deleteKey_always.mono ?_ ?_
                · rintro t w₃ (rfl | rfl)
                  · exact here
                  · exact .dropped w₁ long free loaded made
                · rintro t (e | ⟨⟩) w₃ ended
                  · obtain ⟨rfl, -⟩ := ended
                    exact here
                  · obtain rfl := ended
                    simp only [Routine.always_andThen_ok, always_setSession]
                    exact ⟨.unlocked w₁ long free loaded made, .unlocked w₁ long free loaded made⟩

/-- `auth_unlock_password` does nothing, or it unlocks. -/
def UnlockPassword (c : Suite) (password : String) (code : Option String) (w : World) (t : Trace)
    (w' : World) : Prop :=
  w' = w ∨ ∃ vk, WrapOpens c w password vk ∧ CodePassed c w code t ∧
    w' = { w with desktop := some (some vk) }

/-- The common beginning of the commands that ask for the password: whatever follows may
rely on the password and the code. -/
theorem passwordChecked_always {password : String} {code : Option String} {rest : Key → Command Unit}
    {E : Trace → World → Prop} (untouched : ∀ t, E t w)
    (go_on : ∀ vk before, WrapOpens c w password vk → CodePassed c w code before →
      (rest vk).Always exec (fun t => E (before ++ t)) (fun t _ => E (before ++ t)) w) :
    ((do
      let blob ← readWrap
      let vk ← orFail (openWithPassword c blob password) .text
      checkTotp c code
      rest vk) : Command Unit).Always exec E (fun t _ => E t) w := by
  rw [Routine.always_bind]
  refine readWrap_always.mono (fun t w' still => by rw [still]; exact untouched t) ?_
  rintro t₁ (e | blob) w' ⟨rfl, found⟩
  · exact untouched _
  · obtain ⟨bytes, stored, rfl⟩ := found blob rfl
    simp only [Routine.always_andThen_ok, Routine.always_bind, always_orFail]
    cases opened : openWithPassword c ⟨.password, bytes⟩ password with
    | error e => exact untouched _
    | ok vk =>
        simp only [Except.mapError, Routine.always_andThen_ok, Routine.always_bind]
        refine checkTotp_always.mono ?_ ?_
        · intro t w'' still
          rw [still]
          exact untouched _
        rintro t₂ (e | ⟨⟩) w'' ⟨rfl, passed⟩
        · exact untouched _
        · have before := (passed rfl).append t₁ []
          rw [List.append_nil] at before
          refine (go_on vk (t₁ ++ t₂) ⟨bytes, stored, opened⟩ before).mono ?_ ?_
          · intro t w₃ stage
            rw [List.append_assoc] at stage
            exact stage
          · intro t r w₃ stage
            rw [List.append_assoc] at stage
            exact stage

theorem authUnlockPassword_always {password : String} {code : Option String} :
    (authUnlockPassword c password code).Always exec (UnlockPassword c password code w)
      (fun t _ => UnlockPassword c password code w t) w := by
  refine passwordChecked_always (fun t => .inl rfl) ?_
  intro vk before opens passed
  have unlocked : UnlockPassword c password code w (before ++ [⟨.setSession (some vk), ()⟩])
      { w with desktop := some (some vk) } :=
    .inr ⟨vk, opens, passed.append [] _, rfl⟩
  rw [always_setSession]
  exact ⟨unlocked, unlocked⟩

/-- The stages of `auth_change_password`. -/
inductive ChangePassword (c : Suite) (oldPassword newPassword : String) (code : Option String)
    (w : World) (t : Trace) : World → Prop where
  | untouched : ChangePassword c oldPassword newPassword code w t w
  | sealing {vk : Key} {bytes : Bytes} {w' : World} : tooShort newPassword = false →
      WrapOpens c w oldPassword vk → CodePassed c w code t → MadeFor c vk newPassword bytes →
      Writing bytes w w' → ChangePassword c oldPassword newPassword code w t w'
  | unlocked {vk : Key} {bytes : Bytes} {tmp : Option Bytes} : tooShort newPassword = false →
      WrapOpens c w oldPassword vk → CodePassed c w code t → MadeFor c vk newPassword bytes →
      ChangePassword c oldPassword newPassword code w t
        { w with wrap := some bytes, tmp := tmp, desktop := some (some vk) }

theorem authChangePassword_always {oldPassword newPassword : String} {code : Option String} :
    (authChangePassword c oldPassword newPassword code).Always exec
      (ChangePassword c oldPassword newPassword code w)
      (fun t _ => ChangePassword c oldPassword newPassword code w t) w := by
  rw [authChangePassword]
  cases long : tooShort newPassword with
  | true => exact .untouched
  | false =>
      simp only [Bool.false_eq_true, if_false]
      refine passwordChecked_always (fun t => .untouched) ?_
      intro vk before opens passed
      have later : ∀ t, CodePassed c w code (before ++ t) := fun t => passed.append [] t
      rw [Routine.always_bind]
      refine sealNew_always.mono ?_ ?_
      · rintro t w' (rfl | ⟨bytes, made, writing⟩)
        · exact .untouched
        · exact .sealing long opens (later t) made writing
      · rintro t (e | ⟨⟩) w' ⟨bytes, made, written⟩
        · exact .sealing long opens (later _) made (written.writing bytes)
        · obtain ⟨tmp, rfl⟩ := written
          simp only [Routine.always_andThen_ok, always_setSession]
          exact ⟨.unlocked long opens (later _) made, .unlocked long opens (later _) made⟩

/-- The stages of `auth_remove_password`. -/
inductive RemovePassword (c : Suite) (password : String) (code : Option String) (w : World)
    (t : Trace) : World → Prop where
  | untouched : RemovePassword c password code w t w
  | stored {vk : Key} : WrapOpens c w password vk → CodePassed c w code t →
      RemovePassword c password code w t (w.withKey vk)
  | removed {vk : Key} : WrapOpens c w password vk → CodePassed c w code t →
      RemovePassword c password code w t { w.withKey vk with wrap := none }
  | unlocked {vk : Key} : WrapOpens c w password vk → CodePassed c w code t →
      RemovePassword c password code w t
        { w.withKey vk with wrap := none, desktop := some (some vk) }

theorem authRemovePassword_always {password : String} {code : Option String} :
    (authRemovePassword c password code).Always exec (RemovePassword c password code w)
      (fun t _ => RemovePassword c password code w t) w := by
  refine passwordChecked_always (fun t => .untouched) ?_
  intro vk before opens passed
  have later : ∀ t, CodePassed c w code (before ++ t) := fun t => passed.append [] t
  rw [Routine.always_bind]
  refine storeKey_always.mono ?_ ?_
  · rintro t w' (rfl | rfl)
    · exact .untouched
    · exact .stored opens (later t)
  · rintro t (e | ⟨⟩) w' ended
    · obtain ⟨rfl, -⟩ := ended
      exact .untouched
    · obtain rfl := ended
      rw [Routine.always_andThen_ok, Routine.always_bind]
      refine always_io (fun e n => ⟨.stored opens (later _), .stored opens (later _)⟩)
        (fun _ e => ⟨.stored opens (later _), .stored opens (later _)⟩) ?_
      intro w' performed
      obtain ⟨-, -, rfl⟩ := Option.map_eq_some_iff.mp performed
      refine ⟨.removed opens (later _), ?_⟩
      simp only [Routine.always_andThen_ok, always_setSession]
      exact ⟨.unlocked opens (later _), .unlocked opens (later _)⟩

/-- The stages of `make_password_protected`. -/
inductive Protect (escrow : Bytes) (vk : Key) (w : World) : World → Prop where
  | untouched : Protect escrow vk w w
  | writing {w' : World} : w.wrap = none → isPasswordWrap escrow = true → Writing escrow w w' →
      Protect escrow vk w w'
  | dropped {tmp : Option Bytes} : w.wrap = none → isPasswordWrap escrow = true →
      Protect escrow vk w { w with wrap := some escrow, tmp := tmp, keychain := none }
  | kept {w' : World} : w.wrap = none → GaveUp w w' → Protect escrow vk w (w'.withKey vk)
  | failed {w' : World} : w.wrap = none → GaveUp w w' → Protect escrow vk w w'

/-- How `make_password_protected` ends when the keychain works: the device keeps its own
wrapper, or it has the account's and nothing in the keychain, or the key in the keychain. -/
def Settled (escrow : Bytes) (vk : Key) (w w' : World) : Prop :=
  w.wrap.isSome = true ∧ w' = w ∨
    w.wrap = none ∧ isPasswordWrap escrow = true ∧
      (∃ tmp, w' = { w with wrap := some escrow, tmp := tmp, keychain := none }) ∨
    w.wrap = none ∧ ∃ wg, GaveUp w wg ∧ w' = wg.withKey vk

theorem adoptWrap_always {escrow : Bytes} :
    (adoptWrap escrow).Always exec
      (fun _ w' => isPasswordWrap escrow = true ∧ Writing escrow w w')
      (fun _ r w' => match r with
        | .ok true => isPasswordWrap escrow = true ∧ ∃ tmp,
            w' = { w with wrap := some escrow, tmp := tmp }
        | .ok false => GaveUp w w'
        | .error _ => False) w := by
  have start : GaveUp w w := ⟨w.wrap, w.tmp, rfl, .inl rfl⟩
  rw [adoptWrap]
  cases headed : isPasswordWrap escrow with
  | false => exact start
  | true =>
      rw [if_pos rfl, Routine.always_bind, Routine.always_attempt]
      refine writeAtomic_always.mono (fun t w' writing => ⟨rfl, writing⟩) ?_
      rintro t (e | ⟨⟩) w' written
      · exact written
      · exact ⟨rfl, written⟩

theorem makePasswordProtected_always {escrow : Bytes} {vk : Key} :
    (makePasswordProtected escrow vk).Always exec (fun _ => Protect escrow vk w)
      (fun t _ w' => Protect escrow vk w w' ∧ (KeychainFault t ∨ Settled escrow vk w w')) w := by
  rw [makePasswordProtected, Routine.always_bind, always_wrapExists]
  refine ⟨.untouched, ?_⟩
  rw [Routine.always_andThen_ok]
  cases free : w.wrap with
  | some bytes => exact ⟨.untouched, .inr (.inl ⟨by rw [free]; rfl, rfl⟩)⟩
  | none =>
      rw [Option.isSome_none, if_neg Bool.false_ne_true, Routine.always_bind]
      refine adoptWrap_always.mono (fun t w' stage => .writing free stage.1 stage.2) ?_
      rintro t (e | (- | -)) w' ended
      · exact ended.elim
      · -- the wrapper was not taken: the key goes to the keychain
        rw [Routine.always_andThen_ok, if_neg Bool.false_ne_true, Routine.always_bind,
          Routine.always_attempt]
        refine kcSetVaultKey_always.mono ?_ ?_
        · rintro t' w₁ (rfl | rfl)
          · exact .failed free ended
          · exact .kept free ended
        · rintro t' (e | ⟨⟩) w₁ stored
          · obtain ⟨rfl, fault⟩ := stored
            have later := fault.append ([⟨.wrapExists, false⟩] ++ t) []
            exact ⟨.failed free ended, .inl (by simpa using later)⟩
          · obtain rfl := stored
            exact ⟨.kept free ended, .inr (.inr (.inr ⟨free, w', ended, rfl⟩))⟩
      · obtain ⟨headed, tmp, rfl⟩ := ended
        have here : Protect escrow vk w { w with wrap := some escrow, tmp := tmp } :=
          .writing free headed ⟨_, tmp, rfl, .inr (.inr rfl)⟩
        rw [Routine.always_andThen_ok, if_pos rfl, Routine.always_bind, Routine.always_attempt]
        refine deleteKey_always.mono ?_ ?_
        · rintro t' w₁ (rfl | rfl)
          · exact here
          · exact .dropped free headed
        · rintro t' (e | ⟨⟩) w₁ deleted
          · obtain ⟨rfl, fault⟩ := deleted
            have later := fault.append ([⟨.wrapExists, false⟩] ++ t) []
            exact ⟨here, .inl (by simpa using later)⟩
          · obtain rfl := deleted
            exact ⟨.dropped free headed, .inr (.inr (.inl ⟨free, headed, tmp, rfl⟩))⟩

/-- `reunlock` does nothing, or it unlocks with the key in the keychain. -/
def Reunlock (c : Suite) (w w' : World) : Prop :=
  w' = w ∨ w.wrap = none ∧ ∃ vk, Holds c w vk ∧ w' = { w with desktop := some (some vk) }

theorem reunlock_always :
    (reunlock c).Always exec (fun _ => Reunlock c w) (fun _ _ => Reunlock c w) w := by
  simp only [reunlock, Routine.always_bind, always_wrapExists, Routine.always_andThen_ok]
  refine ⟨.inl rfl, ?_⟩
  cases free : w.wrap with
  | some bytes => exact .inl rfl
  | none =>
      simp only [Option.isSome_none, Bool.false_eq_true, if_false, Routine.always_bind,
        Routine.always_attempt]
      refine loadKeyStrict_always.mono (fun t w' still => .inl still) ?_
      rintro t (e | vk) w' ⟨rfl, held⟩
      · exact .inl rfl
      · simp only [Routine.always_andThen_ok, Routine.always_bind, always_orFail, Except.mapError,
          always_setSession]
        have unlocked : Reunlock c w' { w' with desktop := some (some vk) } :=
          .inr ⟨free, vk, held vk rfl, rfl⟩
        exact ⟨unlocked, unlocked⟩

/-- `unlock_platform` does nothing, or it unlocks behind Windows Hello. -/
def UnlockPlatform (c : Suite) (w : World) (t : Trace) (w' : World) : Prop :=
  w' = w ∨ HelloPassed w t ∧ Reunlock c w w'

theorem unlockPlatform_always :
    (unlockPlatform c).Always exec (UnlockPlatform c w) (fun t _ => UnlockPlatform c w t) w := by
  simp only [unlockPlatform, Routine.always_bind, always_settingsRead, Routine.always_andThen_ok]
  refine ⟨.inl rfl, ?_⟩
  by_cases required : w.settings.requireHello = true
  · simp only [if_pos required, Routine.always_bind, always_sys, Routine.always_andThen_ok,
      always_orFail]
    intro o
    refine ⟨.inl rfl, ?_⟩
    cases verdict : (exec (.helloVerify "Unlock NorthKey") o w).1 with
    | error e => exact .inl rfl
    | ok passed =>
        cases passed with
        | false => exact .inl rfl
        | true =>
            have hello : ∀ t, HelloPassed w
                ([⟨.settingsRead, w.settings⟩] ++ ([⟨.helloVerify "Unlock NorthKey", .ok true⟩] ++ t)) :=
              fun t _ => ⟨"Unlock NorthKey", by simp⟩
            exact reunlock_always.mono (fun t w' stage => .inr ⟨hello t, stage⟩)
              fun t r w' stage => .inr ⟨hello t, stage⟩
  · rw [if_neg required]
    exact reunlock_always.mono (fun t w' stage => .inr ⟨fun on => absurd on required, stage⟩)
      fun t r w' stage => .inr ⟨fun on => absurd on required, stage⟩

/-- `lock` drops the session. -/
def Locking (w w' : World) : Prop := w' = w ∨ w' = { w with desktop := some none }

theorem lock_always :
    lock.Always exec (fun _ => Locking w) (fun _ _ => Locking w) w := by
  rw [lock, always_setSession]
  exact ⟨.inr rfl, .inr rfl⟩

/-- A gate is on: the app starts locked. -/
def Protected (w : World) : Prop :=
  w.wrap.isSome = true ∨ w.settings.requireHello = true ∨ w.settings.totpEnabled = true

instance (w : World) : Decidable (Protected w) := by
  unfold Protected
  infer_instance

/-- The stages of a start of the app. -/
inductive Launch (c : Suite) (w : World) : World → Prop where
  | untouched : Launch c w w
  | locked : Protected w → Launch c w { w with desktop := some none }
  | minting {w' : World} : ¬ Protected w → Minting w w' → Launch c w w'
  | unlocked (wk : World) {vk : Key} : ¬ Protected w → Source c vk w wk →
      Launch c w { wk with desktop := some (some vk) }

theorem newPersistent_always :
    (newPersistent c).Always exec (fun _ => Launch c w) (fun _ _ => Launch c w) w := by
  rw [newPersistent, Routine.always_bind]
  refine always_io (fun e n => ⟨.untouched, .untouched⟩) nofun ?_
  rintro w' performed
  cases performed
  simp only [Routine.always_andThen_ok, Routine.always_bind, always_wrapExists, always_settingsRead]
  refine ⟨.untouched, .untouched, .untouched, ?_⟩
  have same : (w.wrap.isSome || w.settings.requireHello || w.settings.totpEnabled) = true ↔
      Protected w := by
    simp only [Bool.or_eq_true, or_assoc, Protected]
  by_cases gate : Protected w
  · rw [if_pos (same.mpr gate), always_setSession]
    exact ⟨.locked gate, .locked gate⟩
  · rw [if_neg (same.not.mpr gate), Routine.always_bind]
    refine loadOrCreateKey_always.mono (fun t w' minting => .minting gate minting) ?_
    rintro t (e | vk) w' loaded
    · obtain rfl := loaded
      exact .untouched
    · simp only [Routine.always_andThen_ok, always_setSession]
      exact ⟨.unlocked w' gate loaded, .unlocked w' gate loaded⟩

/-- The stages of a start of the host: it has no key, or one from the keychain. -/
inductive HostStart (c : Suite) (w : World) : World → Prop where
  | minting {w' : World} : Minting w w' → HostStart c w w'
  | closed : HostStart c w { w with host := some none }
  | opened (wk : World) {vk : Key} : Source c vk w wk →
      HostStart c w { wk with host := some (some vk) }

theorem openVault_always :
    (openVault c).Always exec (fun _ => HostStart c w) (fun _ _ => HostStart c w) w := by
  have untouched : HostStart c w w := .minting (.inl rfl)
  rw [openVault, Routine.always_bind]
  refine always_sysIo ?_ nofun ?_
  · intro e n
    simp only [Routine.always_andThen_ok, always_startHost]
    exact ⟨untouched, .closed, .closed⟩
  · rintro w' performed
    cases performed
    refine ⟨untouched, ?_⟩
    simp only [Routine.always_andThen_ok, Routine.always_bind, Routine.always_attempt]
    refine loadOrCreateKey_always.mono (fun t w' minting => .minting minting) ?_
    rintro t (e | vk) w' loaded
    · obtain rfl := loaded
      simp only [always_startHost]
      exact ⟨.closed, .closed⟩
    · simp only [always_startHost]
      exact ⟨.opened w' loaded, .opened w' loaded⟩

end Sentinel.Desktop
