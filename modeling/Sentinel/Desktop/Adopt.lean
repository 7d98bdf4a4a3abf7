import Sentinel.Desktop.Items

/-!
# Taking over the key of another device

The commands of `sync.rs` that give a device the vault key of an account: restoring with the
printed recovery code, unlocking and signing in with the account's master password, and
joining with a code from another device. Each refuses a device whose vault is not empty,
puts the key into the session, stores it, and merges the vault of the server.

Signing in, the configuration of the server and the device's own settings are answers of the
environment here.
-/

namespace Sentinel.Desktop

open Vault Atomic

section Programs

variable (c : Suite)

/-- "Never clobber an existing local vault". -/
def requireEmpty (message : String) : Command Unit := do
  let envs ← sys .listEnvelopes
  if envs = [] then pure () else Routine.throw (.text message)

def getWrappedKey (wrapper : WrapperType) : Command WrappedBlob := do
  let bytes ← orFail (← sys (.getWrappedKey wrapper.code)) .text
  pure ⟨wrapper, bytes⟩

/-- The vault of the server, opened with the adopted key and merged; the number of items
added. -/
def pullVault (vk : Key) : Command Nat := do
  match ← orFail (← sys .getVault) .text with
  | none => pure 0
  | some (v, ct) => do
      let doc ← orFail (decodeSyncBlob c.toCodec vk.bytes ct (v % 2 ^ 64).toNat) coreText
      let report ← orFail (← sys (.merge doc)) coreText
      pure report.added

/-- `sync_restore`. -/
def syncRestore (recoveryCode : String) : Command Nat := do
  requireEmpty "this device already has a vault"
  io .apiFor .text
  let blob ← getWrappedKey .recovery
  let rk ← orFail (c.recoveryKitDecode (Api.trim recoveryCode)) .text
  let vk ← orFail (recoveryUnwrap c rk blob) coreText
  requireEmpty "this device already has a vault"
  sys (.setSession (some vk))
  kcSetVaultKey (keyText vk)
  let restored ← pullVault c vk
  let _ ← syncDeviceSettings c
  pure restored

/-- `sync_unlock_with_password`. -/
def syncUnlockWithPassword (password : String) : Command Nat := do
  requireEmpty "this device already has a vault"
  io .apiFor .text
  let blob ← getWrappedKey .password
  let vk ← orFail (passwordUnwrap c password blob) fun _ => .text "wrong master password"
  requireEmpty "this device already has a vault"
  sys (.setSession (some vk))
  makePasswordProtected blob.bytes vk
  let restored ← pullVault c vk
  let _ ← syncDeviceSettings c
  pure restored

/-- `sync_password_signin`; the answer says whether a second step is required. -/
def syncPasswordSignin (password : String) : Command (Bool × Nat) := do
  if ← orFail (← sys .signIn) .text then pure (true, 0)
  else do
    io .apiFor .text
    let blob ← getWrappedKey .password
    let vk ← orFail (passwordUnwrap c password blob) fun _ => .text
      "signed in, but the escrowed key didn't unwrap — was the master password changed on another device?"
    let envs ← sys .listEnvelopes
    let restored ← if envs = [] then do
        sys (.setSession (some vk))
        makePasswordProtected blob.bytes vk
        pullVault c vk
      else pure 0
    let _ ← syncDeviceSettings c
    pure (false, restored)

/-- `code.trim().strip_prefix(JOIN_PREFIX)`. -/
def joinBody (code : String) : Option String :=
  let pre := "SNTL1.".toList
  let text := (Api.trim code).toList
  if pre.isPrefixOf text then some (String.ofList (text.drop pre.length)) else none

/-- The vault key of a device-join code. -/
def joinKey (code : String) : Except String Key :=
  match joinBody code with
  | none => .error "That doesn't look like a NorthKey device code. Copy the whole code from the other device."
  | some body =>
      match c.urlSafeDecode body with
      | none =>
          .error "The device code is malformed or was cut off. Copy the whole thing and try again."
      | some json =>
          match c.joinBundleFromJson json with
          | none => .error "The device code is malformed. Copy the whole thing and try again."
          | some bundle =>
              if bundle.v ≠ 1 then
                .error "This device code is from a newer version of NorthKey. Update this app and try again."
              else
                match Base64.decode bundle.vkey with
                | none => .error "The device code carried an invalid vault key."
                | some bytes =>
                    if whole : bytes.length = 32 then .ok ⟨bytes, whole⟩
                    else .error "The device code carried an invalid vault key."

/-- `sync_pair_complete`. -/
def syncPairComplete (code : String) : Command Nat := do
  let vk ← orFail (joinKey c code) .text
  requireEmpty
    "This device already has a vault. Device pairing only works on a fresh install with an empty vault, so it can't overwrite what's already here."
  sys (.setSession (some vk))
  kcSetVaultKey (keyText vk)
  let _ ← orFail (← sys .signIn) .text
  io .apiFor .text
  let restored ← pullVault c vk
  match ← Routine.attempt (getWrappedKey .password) with
  | .ok escrow => makePasswordProtected escrow.bytes vk
  | .error _ => pure ()
  let _ ← syncDeviceSettings c
  pure restored

end Programs

variable {c : Suite} {w : World}

/-- The vault after a merge of what the server answered, if it answered a vault. -/
def Pulled (c : Suite) (vk : Key) (t : Trace) (v v' : LocalVault) : Prop :=
  v' = v ∨ ∃ n ct doc, ⟨.getVault, .ok (some (n, ct))⟩ ∈ t ∧
    decodeSyncBlob c.toCodec vk.bytes ct (n % 2 ^ 64).toNat = .ok doc ∧ v' = (v.merge doc).1

/-- What a device does once it has taken a key into its session. -/
inductive Adopting (c : Suite) (vk : Key) (w : World) (t : Trace) : World → Prop where
  | session : Adopting c vk w t { w with desktop := some (some vk) }
  | keyed {w' : World} : Adopting c vk w t w' → Adopting c vk w t (w'.withKey vk)
  | protecting {escrow : Bytes} {w' w'' : World} : Adopting c vk w t w' →
      ⟨.getWrappedKey WrapperType.password.code, .ok escrow⟩ ∈ t → Protect escrow vk w' w'' →
      Adopting c vk w t w''
  | pulled {w' : World} {v : LocalVault} : Adopting c vk w t w' → Pulled c vk t w'.vault v →
      Adopting c vk w t { w' with vault := v }
  | filed {item : Item} {w' w'' : World} : Adopting c vk w t w' → Filed c (some vk) item w' w'' →
      Adopting c vk w t w''

/-- The key is in the keychain, or nothing is. -/
def Persisted (vk : Key) (w : World) : Prop :=
  w.keychain = some (keyText vk) ∨ w.keychain = none

section Adopting

variable {vk : Key} {t t' : Trace}

theorem Pulled.mono {v v' : LocalVault} (h : Pulled c vk t v v') (more : ∀ x ∈ t, x ∈ t') :
    Pulled c vk t' v v' := by
  obtain rfl | ⟨n, ct, doc, seen, decoded, rfl⟩ := h
  · exact .inl rfl
  · exact .inr ⟨n, ct, doc, more _ seen, decoded, rfl⟩

theorem Adopting.mono {w' : World} (h : Adopting c vk w t w') (more : ∀ x ∈ t, x ∈ t') :
    Adopting c vk w t' w' := by
  induction h with
  | session => exact .session
  | keyed _ ih => exact .keyed ih
  | protecting _ seen stage ih => exact .protecting ih (more _ seen) stage
  | pulled _ step ih => exact .pulled ih (step.mono more)
  | filed _ step ih => exact .filed ih step

theorem Protect.desktop {escrow : Bytes} {w' : World} (h : Protect escrow vk w w') :
    w'.desktop = w.desktop := by
  cases h with
  | untouched => rfl
  | writing _ _ writing =>
      obtain ⟨wrap, tmp, rfl, -⟩ := writing
      rfl
  | dropped => rfl
  | kept _ gaveUp =>
      obtain ⟨wrap, tmp, rfl, -⟩ := gaveUp
      rfl
  | failed _ gaveUp =>
      obtain ⟨wrap, tmp, rfl, -⟩ := gaveUp
      rfl

theorem Adopting.desktop {w' : World} (h : Adopting c vk w t w') :
    w'.desktop = some (some vk) := by
  induction h with
  | session => rfl
  | keyed _ ih => exact ih
  | protecting _ _ stage ih => exact stage.desktop.trans ih
  | pulled _ _ ih => exact ih
  | filed _ step ih =>
      obtain ⟨-, -, -, -, -, -, -, rfl⟩ := step
      exact ih

end Adopting

theorem requireEmpty_always {message : String} :
    (requireEmpty message).Always exec (Still w) (fun _ r w' => w' = w ∧
      (r = .ok () → w.vault.listEnvelopes = [])) w := by
  rw [requireEmpty, Routine.always_bind, always_listEnvelopes]
  refine ⟨rfl, ?_⟩
  rw [Routine.always_andThen_ok]
  by_cases empty : w.vault.listEnvelopes = []
  · rw [if_pos empty]
    exact ⟨rfl, fun _ => empty⟩
  · rw [if_neg empty]
    exact ⟨rfl, nofun⟩

theorem apiFor_always {f : String → Failure} :
    (io .apiFor f).Always exec (Still w) (fun _ _ w' => w' = w) w := by
  refine always_io (fun e n => ⟨rfl, rfl⟩) nofun ?_
  rintro w' performed
  cases performed
  exact ⟨rfl, rfl⟩

theorem getWrappedKey_always {wrapper : WrapperType} :
    (getWrappedKey wrapper).Always exec (Still w) (fun t r w' => w' = w ∧
      ∀ blob, r = .ok blob → ∃ bytes, blob = ⟨wrapper, bytes⟩ ∧
        ⟨.getWrappedKey wrapper.code, .ok bytes⟩ ∈ t) w := by
  rw [getWrappedKey, Routine.always_bind]
  refine always_getWrappedKey fun answer => ⟨rfl, ?_⟩
  rw [Routine.always_andThen_ok, Routine.always_bind, always_orFail]
  cases answer with
  | error e => exact ⟨rfl, fun _ h => nomatch h⟩
  | ok bytes =>
      refine ⟨rfl, ?_⟩
      intro blob same
      obtain rfl := Except.ok.inj same
      exact ⟨bytes, rfl, by simp⟩

theorem pullVault_always {vk : Key} :
    (pullVault c vk).Always exec
      (fun t w' => ∃ v, Pulled c vk t w.vault v ∧ w' = { w with vault := v })
      (fun t _ w' => ∃ v, Pulled c vk t w.vault v ∧ w' = { w with vault := v }) w := by
  have untouched : ∀ t, ∃ v, Pulled c vk t w.vault v ∧ w = { w with vault := v } :=
    fun t => ⟨w.vault, .inl rfl, rfl⟩
  rw [pullVault, Routine.always_bind]
  refine always_getVault fun answer => ⟨untouched _, ?_⟩
  rw [Routine.always_andThen_ok, Routine.always_bind, always_orFail]
  cases answer with
  | error e => exact untouched _
  | ok stored =>
      cases stored with
      | none => exact untouched _
      | some version =>
          obtain ⟨n, ct⟩ := version
          simp only [Except.mapError, Routine.always_andThen_ok, Routine.always_bind, always_orFail]
          cases decoded : decodeSyncBlob c.toCodec vk.bytes ct (n % 2 ^ 64).toNat with
          | error e => exact untouched _
          | ok doc =>
              simp only [Routine.always_andThen_ok, Routine.always_bind, always_merge]
              have merged : ∀ after : Trace, ∃ v,
                  Pulled c vk (⟨.getVault, .ok (some (n, ct))⟩ :: after) w.vault v ∧
                    { w with vault := (w.vault.merge doc).1 } = { w with vault := v } :=
                fun after => ⟨_, .inr ⟨n, ct, doc, by simp, decoded, rfl⟩, rfl⟩
              refine ⟨merged _, ?_⟩
              rw [always_orFail]
              cases (w.vault.merge doc).2 with
              | error e => exact merged _
              | ok report => exact merged _

/-- The vault of a device that has taken a key changes; nothing else does. -/
def Filling (c : Suite) (vk : Key) (w w₁ : World) (t : Trace) (w' : World) : Prop :=
  Adopting c vk w t w' ∧ ∃ v, w' = { w₁ with vault := v }

theorem Filling.start {vk : Key} {w₁ : World} {t : Trace} (h : Adopting c vk w t w₁) :
    Filling c vk w w₁ t w₁ :=
  ⟨h, w₁.vault, rfl⟩

/-- `sync_device_settings` of a device that has taken a key. -/
theorem settings_filling {vk : Key} {w₁ w₂ : World} {before : Trace}
    (h : Filling c vk w w₁ before w₂) :
    (syncDeviceSettings c).Always exec (fun t => Filling c vk w w₁ (before ++ t))
      (fun t _ => Filling c vk w w₁ (before ++ t)) w₂ := by
  obtain ⟨adopting, v, rfl⟩ := h
  have stage : ∀ (t : Trace) (w' : World), (w' = { w₁ with vault := v } ∨ ∃ item,
      Filed c ({ w₁ with vault := v } : World).desktop.join item { w₁ with vault := v } w') →
      Filling c vk w w₁ (before ++ t) w' := by
    have more : ∀ t : Trace, Adopting c vk w (before ++ t) { w₁ with vault := v } :=
      fun t => adopting.mono fun x seen => List.mem_append_left _ seen
    rintro t w' (rfl | ⟨item, filed⟩)
    · exact ⟨more t, v, rfl⟩
    · have session : ({ w₁ with vault := v } : World).desktop.join = some vk :=
        congrArg Option.join adopting.desktop
      rw [session] at filed
      refine ⟨.filed (more t) filed, ?_⟩
      obtain ⟨-, -, -, vault, -, -, -, rfl⟩ := filed
      exact ⟨vault, rfl⟩
  exact syncDeviceSettings_always.mono stage fun t _ => stage t

/-- `pullVault` of a device that has taken a key. -/
theorem pull_filling {vk : Key} {w₁ : World} {before : Trace} (h : Adopting c vk w before w₁) :
    (pullVault c vk).Always exec (fun t => Filling c vk w w₁ (before ++ t))
      (fun t _ => Filling c vk w w₁ (before ++ t)) w₁ := by
  have stage : ∀ (t : Trace) (w' : World),
      (∃ v, Pulled c vk t w₁.vault v ∧ w' = { w₁ with vault := v }) →
      Filling c vk w w₁ (before ++ t) w' := by
    rintro t w' ⟨v, pulled, rfl⟩
    have more : Adopting c vk w (before ++ t) w₁ :=
      h.mono fun x seen => List.mem_append_left _ seen
    exact ⟨.pulled more (pulled.mono fun x seen => List.mem_append_right _ seen), v, rfl⟩
  exact pullVault_always.mono stage fun t _ => stage t

/-- The common end of the commands: pull, then look after the settings. -/
theorem pullThenSettings_filling {β : Type} {vk : Key} {w₁ : World} {before : Trace}
    (answer : Nat → β) (h : Adopting c vk w before w₁) :
    ((do
      let restored ← pullVault c vk
      let _ ← syncDeviceSettings c
      pure (answer restored)) : Command β).Always exec (fun t => Filling c vk w w₁ (before ++ t))
      (fun t _ => Filling c vk w w₁ (before ++ t)) w₁ := by
  rw [Routine.always_bind]
  refine (pull_filling h).mono (fun t w' stage => stage) ?_
  rintro t (e | restored) w₂ filling
  · rwa [Routine.always_andThen_error, List.append_nil]
  · rw [Routine.always_andThen_ok, Routine.always_bind]
    refine (settings_filling filling).mono ?_ ?_
    · intro t' w₃ stage
      rwa [List.append_assoc] at stage
    · rintro t' (e | seeded) w₃ stage
      · rwa [Routine.always_andThen_error, List.append_nil, ← List.append_assoc]
      · rwa [Routine.always_andThen_ok, Routine.always_pure, List.append_nil, ← List.append_assoc]

/-- The stages of a command that takes a key over: nothing yet or, with an empty vault, a key
that it is entitled to. -/
def Adoption (c : Suite) (Entitled : Trace → Key → Prop) (Stage : Trace → Key → World → Prop)
    (w : World) (t : Trace) (w' : World) : Prop :=
  w' = w ∨ w.vault.listEnvelopes = [] ∧ ∃ vk, Entitled t vk ∧ Adopting c vk w t w' ∧ Stage t vk w'

/-- The key is one that the server's recovery wrapper gives for the code. -/
def Recovered (c : Suite) (code : String) (t : Trace) (vk : Key) : Prop :=
  ∃ rk bytes, c.recoveryKitDecode (Api.trim code) = .ok rk ∧
    ⟨.getWrappedKey WrapperType.recovery.code, .ok bytes⟩ ∈ t ∧
    recoveryUnwrap c rk ⟨.recovery, bytes⟩ = .ok vk

/-- The key is one that the server's password wrapper gives for the password. -/
def Unwrapped (c : Suite) (password : String) (t : Trace) (vk : Key) : Prop :=
  ∃ bytes, ⟨.getWrappedKey WrapperType.password.code, .ok bytes⟩ ∈ t ∧
    passwordUnwrap c password ⟨.password, bytes⟩ = .ok vk

/-- The key is in the session only, or stored. -/
def Keyed (w : World) (_ : Trace) (vk : Key) (w' : World) : Prop :=
  w' = { w with desktop := some (some vk) } ∨ Persisted vk w'

/-- The key was stored, if nothing hindered it. -/
def Secured (w : World) (t : Trace) (vk : Key) (w' : World) : Prop :=
  KeychainFault t ∨ w.wrap.isSome = true ∨ Persisted vk w'

theorem Filling.persisted {vk : Key} {w₁ w' : World} {t : Trace} (h : Filling c vk w w₁ t w')
    (stored : Persisted vk w₁) : Persisted vk w' := by
  obtain ⟨-, v, rfl⟩ := h
  exact stored

/-- Taking the key into the session and the keychain, in `sync_restore` and
`sync_pair_complete`. -/
theorem takeKey_always (vk : Key) {rest : Command Nat} {I : Trace → World → Prop}
    {post : Trace → Except Failure Nat → World → Prop}
    (session : ∀ t, I t { w with desktop := some (some vk) })
    (stored : ∀ t, I t (({ w with desktop := some (some vk) } : World).withKey vk))
    (failed : ∀ t e, KeychainFault t → post t (.error e) { w with desktop := some (some vk) })
    (go_on : ∀ before, rest.Always exec (fun t => I (before ++ t)) (fun t => post (before ++ t))
      (({ w with desktop := some (some vk) } : World).withKey vk)) :
    ((do
      sys (.setSession (some vk))
      kcSetVaultKey (keyText vk)
      rest) : Command Nat).Always exec I post w := by
  rw [Routine.always_bind, always_setSession]
  refine ⟨session _, ?_⟩
  rw [Routine.always_andThen_ok, Routine.always_bind]
  refine kcSetVaultKey_always.mono ?_ ?_
  · rintro t w' (rfl | rfl)
    · exact session _
    · exact stored _
  · rintro t (e | ⟨⟩) w' ended
    · obtain ⟨rfl, fault⟩ := ended
      refine failed _ e ?_
      simpa only [List.append_assoc] using fault.append [⟨.setSession (some vk), ()⟩] []
    · obtain rfl := ended
      refine (go_on ([⟨.setSession (some vk), ()⟩] ++ t)).mono ?_ ?_
      · intro t' w' stage
        rwa [List.append_assoc] at stage
      · intro t' r w' ended
        rwa [List.append_assoc] at ended

theorem Protect.persisted {escrow : Bytes} {vk : Key} {w' : World} (h : Protect escrow vk w w')
    (stored : Persisted vk w) : Persisted vk w' := by
  cases h with
  | untouched => exact stored
  | writing _ _ writing =>
      obtain ⟨wrap, tmp, rfl, -⟩ := writing
      exact stored
  | dropped => exact .inr rfl
  | kept => exact .inl rfl
  | failed _ gaveUp =>
      obtain ⟨wrap, tmp, rfl, -⟩ := gaveUp
      exact stored

/-- A device that has taken a key and stored it. -/
def Stocked (c : Suite) (vk : Key) (w : World) (t : Trace) (w' : World) : Prop :=
  Adopting c vk w t w' ∧ Persisted vk w'

theorem Stocked.mono {vk : Key} {t t' : Trace} {w' : World} (h : Stocked c vk w t w')
    (more : ∀ x ∈ t, x ∈ t') : Stocked c vk w t' w' :=
  ⟨h.1.mono more, h.2⟩

theorem Stocked.append {vk : Key} {t : Trace} {w' : World} (h : Stocked c vk w t w')
    (after : Trace) : Stocked c vk w (t ++ after) w' :=
  h.mono fun _ seen => List.mem_append_left _ seen

/-- The settings, at the end of the commands. -/
theorem settings_stocked {vk : Key} {w₁ : World} {before : Trace} {restored : Nat}
    (h : Stocked c vk w before w₁) :
    ((do
      let _ ← syncDeviceSettings c
      pure restored) : Command Nat).Always exec (fun t => Stocked c vk w (before ++ t))
      (fun t _ => Stocked c vk w (before ++ t)) w₁ := by
  rw [Routine.always_bind]
  refine (settings_filling (.start h.1)).mono ?_ ?_
  · intro t w' filling
    exact ⟨filling.1, filling.persisted h.2⟩
  · rintro t (e | seeded) w' filling
    · rw [Routine.always_andThen_error, List.append_nil]
      exact ⟨filling.1, filling.persisted h.2⟩
    · rw [Routine.always_andThen_ok, Routine.always_pure, List.append_nil]
      exact ⟨filling.1, filling.persisted h.2⟩

/-- Taking a key that is stored at once, over an empty vault. -/
theorem adoptKey_always {vk : Key} {rest : Command Nat} {Entitled : Trace → Key → Prop}
    (pre : Trace) (empty : w.vault.listEnvelopes = []) (entitled : ∀ t, Entitled (pre ++ t) vk)
    (tail : rest.Always exec (Stocked c vk w) (fun t _ => Stocked c vk w t)
      (({ w with desktop := some (some vk) } : World).withKey vk)) :
    ((do
      sys (.setSession (some vk))
      kcSetVaultKey (keyText vk)
      rest) : Command Nat).Always exec (fun t => Adoption c Entitled (Keyed w) w (pre ++ t))
      (fun t _ w' => Adoption c Entitled (Keyed w) w (pre ++ t) w' ∧
        Adoption c Entitled (Secured w) w (pre ++ t) w') w := by
  refine takeKey_always vk ?_ ?_ ?_ ?_
  · intro t
    exact .inr ⟨empty, vk, entitled t, .session, .inl rfl⟩
  · intro t
    exact .inr ⟨empty, vk, entitled t, .keyed .session, .inr (.inl rfl)⟩
  · intro t e fault
    have failed := fault.append pre []
    rw [List.append_nil] at failed
    exact ⟨.inr ⟨empty, vk, entitled t, .session, .inl rfl⟩,
      .inr ⟨empty, vk, entitled t, .session, .inl failed⟩⟩
  · intro before
    have stage : ∀ {t w'}, Stocked c vk w t w' → Stocked c vk w (pre ++ (before ++ t)) w' := by
      intro t w' stocked
      exact stocked.mono fun x here => by simp [here]
    refine tail.mono ?_ ?_
    · intro t w' stocked
      obtain ⟨adopting, stored⟩ := stage stocked
      exact .inr ⟨empty, vk, entitled _, adopting, .inr stored⟩
    · intro t r w' stocked
      obtain ⟨adopting, stored⟩ := stage stocked
      exact ⟨.inr ⟨empty, vk, entitled _, adopting, .inr stored⟩,
        .inr ⟨empty, vk, entitled _, adopting, .inr (.inr stored)⟩⟩

theorem syncRestore_always {code : String} :
    (syncRestore c code).Always exec (Adoption c (Recovered c code) (Keyed w) w)
      (fun t _ w' => Adoption c (Recovered c code) (Keyed w) w t w' ∧
        Adoption c (Recovered c code) (Secured w) w t w') w := by
  rw [syncRestore, Routine.always_bind]
  refine requireEmpty_always.mono (fun _ _ still => .inl still) ?_
  rintro t₁ (e | ⟨⟩) w₁ ⟨rfl, -⟩
  · exact ⟨.inl rfl, .inl rfl⟩
  rw [Routine.always_andThen_ok, Routine.always_bind]
  refine apiFor_always.mono (fun _ _ still => .inl still) ?_
  rintro t₂ (e | ⟨⟩) w₁ rfl
  · exact ⟨.inl rfl, .inl rfl⟩
  rw [Routine.always_andThen_ok, Routine.always_bind]
  refine getWrappedKey_always.mono (fun _ _ still => .inl still) ?_
  rintro t₃ (e | blob) w₁ ⟨rfl, fetched⟩
  · exact ⟨.inl rfl, .inl rfl⟩
  obtain ⟨bytes, rfl, seen⟩ := fetched blob rfl
  rw [Routine.always_andThen_ok, Routine.always_bind, always_orFail]
  cases decoded : c.recoveryKitDecode (Api.trim code) with
  | error e => exact ⟨.inl rfl, .inl rfl⟩
  | ok rk =>
    rw [Except.mapError, Routine.always_andThen_ok, Routine.always_bind, always_orFail]
    cases opened : recoveryUnwrap c rk ⟨.recovery, bytes⟩ with
    | error e => exact ⟨.inl rfl, .inl rfl⟩
    | ok vk =>
      rw [Except.mapError, Routine.always_andThen_ok, Routine.always_bind]
      refine requireEmpty_always.mono (fun _ _ still => .inl still) ?_
      rintro t₄ (e | ⟨⟩) w₁ ⟨rfl, empty⟩
      · exact ⟨.inl rfl, .inl rfl⟩
      rw [Routine.always_andThen_ok]
      have entitled : ∀ t, Recovered c code (t₁ ++ (t₂ ++ (t₃ ++ t₄)) ++ t) vk :=
        fun t => ⟨rk, bytes, decoded, by simp [seen], opened⟩
      have tail : ((do
          let restored ← pullVault c vk
          let _ ← syncDeviceSettings c
          pure restored) : Command Nat).Always exec (Stocked c vk w₁)
          (fun t _ => Stocked c vk w₁ t)
          (({ w₁ with desktop := some (some vk) } : World).withKey vk) :=
        (pullThenSettings_filling id (.keyed (t := []) .session)).mono
          (fun t w' filling => ⟨filling.1, filling.persisted (.inl rfl)⟩)
          fun t r w' filling => ⟨filling.1, filling.persisted (.inl rfl)⟩
      refine (adoptKey_always _ (empty rfl) entitled tail).mono ?_ ?_
      · intro t w' stage
        simpa only [List.append_assoc, List.nil_append] using stage
      · intro t r w' stage
        simpa only [List.append_assoc, List.nil_append] using stage

/-- `make_password_protected` and the settings, at the end of `sync_pair_complete`. -/
theorem protectThenSettings_stocked {vk : Key} {w₁ : World} {before : Trace} {restored : Nat}
    (h : Stocked c vk w before w₁) :
    ((do
      match ← Routine.attempt (getWrappedKey .password) with
      | .ok escrow => makePasswordProtected escrow.bytes vk
      | .error _ => pure ()
      let _ ← syncDeviceSettings c
      pure restored) : Command Nat).Always exec (fun t => Stocked c vk w (before ++ t))
      (fun t _ => Stocked c vk w (before ++ t)) w₁ := by
  rw [Routine.always_bind, Routine.always_attempt]
  refine getWrappedKey_always.mono ?_ ?_
  · intro t w' still
    rw [still]
    exact h.append t
  · rintro t (e | blob) w₂ ⟨rfl, fetched⟩
    · rw [Routine.always_andThen_ok]
      refine (settings_stocked (h.append t)).mono ?_ ?_
      · intro t' w' stage
        rwa [List.append_assoc] at stage
      · intro t' r w' stage
        rwa [List.append_assoc] at stage
    · obtain ⟨bytes, rfl, seen⟩ := fetched blob rfl
      have protect : ∀ {w' : World} (t' : Trace), Protect bytes vk w₂ w' →
          Stocked c vk w ((before ++ t) ++ t') w' := by
        intro w' t' stage
        have here : Adopting c vk w ((before ++ t) ++ t') w₂ := ((h.append t).append t').1
        exact ⟨.protecting here (by simp [seen]) stage, stage.persisted h.2⟩
      rw [Routine.always_andThen_ok]
      refine Routine.always_bind _ _ |>.mpr ?_
      refine makePasswordProtected_always.mono ?_ ?_
      · intro t' w' stage
        have stocked := protect t' stage
        rwa [List.append_assoc] at stocked
      · rintro t' (e | ⟨⟩) w₃ ⟨stage, -⟩
        · have stocked := protect t' stage
          rwa [Routine.always_andThen_error, List.append_nil, ← List.append_assoc]
        · rw [Routine.always_andThen_ok]
          refine (settings_stocked (protect t' stage)).mono ?_ ?_
          · intro t'' w' stage
            rwa [List.append_assoc, List.append_assoc] at stage
          · intro t'' r w' stage
            rwa [List.append_assoc, List.append_assoc] at stage

/-- What `sync_pair_complete` does with the stored key. -/
theorem joinTail_stocked {vk : Key} {w₁ : World} (h : Stocked c vk w [] w₁) :
    ((do
      let _ ← orFail (← sys .signIn) .text
      io .apiFor .text
      let restored ← pullVault c vk
      match ← Routine.attempt (getWrappedKey .password) with
      | .ok escrow => makePasswordProtected escrow.bytes vk
      | .error _ => pure ()
      let _ ← syncDeviceSettings c
      pure restored) : Command Nat).Always exec (Stocked c vk w)
      (fun t _ => Stocked c vk w t) w₁ := by
  rw [Routine.always_bind]
  refine always_signIn fun answer => ⟨h.append _, ?_⟩
  rw [Routine.always_andThen_ok, Routine.always_bind, always_orFail]
  cases answer with
  | error e => exact h.append _
  | ok second =>
    rw [Except.mapError, Routine.always_andThen_ok, Routine.always_bind]
    refine apiFor_always.mono ?_ ?_
    · intro t w' still
      rw [still]
      exact h.append _
    rintro t (e | ⟨⟩) w₂ rfl
    · exact h.append _
    rw [Routine.always_andThen_ok, Routine.always_bind]
    have stage : ∀ {t' : Trace} {w' : World} (before : Trace), Filling c vk w w₂ ([] ++ t') w' →
        Stocked c vk w (before ++ t') w' := by
      intro t' w' before filling
      refine Stocked.mono ⟨filling.1, filling.persisted h.2⟩ ?_
      intro x here
      exact List.mem_append_right _ here
    refine (pull_filling h.1).mono ?_ ?_
    · intro t' w' filling
      exact stage ([⟨.signIn, .ok second⟩] ++ ([] ++ t)) filling
    · rintro t' (e | restored) w₃ filling
      · have stocked := stage ([⟨.signIn, .ok second⟩] ++ t) filling
        simpa only [Routine.always_andThen_error, List.append_assoc, List.nil_append,
          List.append_nil] using stocked
      · rw [Routine.always_andThen_ok]
        refine (protectThenSettings_stocked
          (stage ([⟨.signIn, .ok second⟩] ++ t) filling)).mono ?_ ?_
        · intro t'' w' stocked
          simpa only [List.append_assoc, List.nil_append] using stocked
        · intro t'' r w' stocked
          simpa only [List.append_assoc, List.nil_append] using stocked

theorem syncPairComplete_always {code : String} :
    (syncPairComplete c code).Always exec
      (Adoption c (fun _ vk => joinKey c code = .ok vk) (Keyed w) w)
      (fun t _ w' => Adoption c (fun _ vk => joinKey c code = .ok vk) (Keyed w) w t w' ∧
        Adoption c (fun _ vk => joinKey c code = .ok vk) (Secured w) w t w') w := by
  rw [syncPairComplete, Routine.always_bind, always_orFail]
  cases joinKey c code with
  | error e => exact ⟨.inl rfl, .inl rfl⟩
  | ok vk =>
    rw [Except.mapError, Routine.always_andThen_ok, Routine.always_bind]
    refine requireEmpty_always.mono (fun _ _ still => .inl still) ?_
    rintro t₁ (e | ⟨⟩) w₁ ⟨rfl, empty⟩
    · exact ⟨.inl rfl, .inl rfl⟩
    rw [Routine.always_andThen_ok]
    exact adoptKey_always t₁ (empty rfl) (fun _ => rfl)
      (joinTail_stocked ⟨.keyed .session, .inl rfl⟩)

theorem Settled.secured {escrow : Bytes} {vk : Key} {w' : World} (h : Settled escrow vk w w')
    (t : Trace) : Secured w t vk w' := by
  obtain ⟨own, -⟩ | ⟨-, -, tmp, rfl⟩ | ⟨-, wg, -, rfl⟩ := h
  · exact .inr (.inl own)
  · exact .inr (.inr (.inr rfl))
  · exact .inr (.inr (.inl rfl))

theorem Secured.mono {vk : Key} {w' : World} {t t' : Trace} (h : Secured w t vk w')
    (more : ∀ x ∈ t, x ∈ t') : Secured w t' vk w' := by
  obtain fault | stored := h
  · exact .inl (fault.mono more)
  · exact .inr stored

theorem Filling.secured {vk : Key} {w₁ w' : World} {t : Trace} (h : Filling c vk w w₁ t w')
    (stored : Secured w t vk w₁) : Secured w t vk w' := by
  obtain fault | own | stored := stored
  · exact .inl fault
  · exact .inr (.inl own)
  · exact .inr (.inr (h.persisted stored))

/-- Taking a key under the account's password, over an empty vault. -/
theorem protectKey_always {β : Type} {escrow : Bytes} {vk : Key} {rest : Command β} (pre : Trace)
    (seen : ⟨.getWrappedKey WrapperType.password.code, .ok escrow⟩ ∈ pre)
    (tail : ∀ before w₁, Adopting c vk w before w₁ → rest.Always exec
      (fun t => Filling c vk w w₁ (before ++ t)) (fun t _ => Filling c vk w w₁ (before ++ t)) w₁) :
    ((do
      sys (.setSession (some vk))
      makePasswordProtected escrow vk
      rest) : Command β).Always exec (fun t => Adopting c vk w (pre ++ t))
      (fun t _ w' => Adopting c vk w (pre ++ t) w' ∧ Secured w (pre ++ t) vk w') w := by
  rw [Routine.always_bind, always_setSession]
  refine ⟨.session, ?_⟩
  rw [Routine.always_andThen_ok, Routine.always_bind]
  have protecting : ∀ {t : Trace} {w' : World},
      Protect escrow vk { w with desktop := some (some vk) } w' → Adopting c vk w (pre ++ t) w' :=
    fun stage => .protecting .session (List.mem_append_left _ seen) stage
  refine makePasswordProtected_always.mono (fun t w' stage => protecting stage) ?_
  rintro t r w₁ ⟨stage, ended⟩
  have secured : Secured w (pre ++ (⟨.setSession (some vk), ()⟩ :: t)) vk w₁ := by
    have here : Secured w t vk w₁ := ended.elim .inl fun settled => settled.secured t
    exact here.mono fun x seen => List.mem_append_right _ (List.mem_cons_of_mem _ seen)
  cases r with
  | error e =>
      rw [Routine.always_andThen_error, List.append_nil]
      exact ⟨protecting stage, secured⟩
  | ok done =>
      rw [Routine.always_andThen_ok]
      refine (tail (pre ++ (⟨.setSession (some vk), ()⟩ :: t)) w₁ (protecting stage)).mono ?_ ?_
      · intro t' w' filling
        rw [List.append_assoc] at filling
        exact filling.1
      · intro t' r w' filling
        have ended := filling.secured (secured.mono fun x => List.mem_append_left t')
        rw [List.append_assoc] at filling ended
        exact ⟨filling.1, ended⟩

theorem syncUnlockWithPassword_always {password : String} :
    (syncUnlockWithPassword c password).Always exec
      (Adoption c (Unwrapped c password) (fun _ _ _ => True) w)
      (fun t _ => Adoption c (Unwrapped c password) (Secured w) w t) w := by
  rw [syncUnlockWithPassword, Routine.always_bind]
  refine requireEmpty_always.mono (fun _ _ still => .inl still) ?_
  rintro t₁ (e | ⟨⟩) w₁ ⟨rfl, -⟩
  · exact .inl rfl
  rw [Routine.always_andThen_ok, Routine.always_bind]
  refine apiFor_always.mono (fun _ _ still => .inl still) ?_
  rintro t₂ (e | ⟨⟩) w₁ rfl
  · exact .inl rfl
  rw [Routine.always_andThen_ok, Routine.always_bind]
  refine getWrappedKey_always.mono (fun _ _ still => .inl still) ?_
  rintro t₃ (e | blob) w₁ ⟨rfl, fetched⟩
  · exact .inl rfl
  obtain ⟨bytes, rfl, seen⟩ := fetched blob rfl
  rw [Routine.always_andThen_ok, Routine.always_bind, always_orFail]
  cases opened : passwordUnwrap c password ⟨.password, bytes⟩ with
  | error e => exact .inl rfl
  | ok vk =>
    rw [Except.mapError, Routine.always_andThen_ok, Routine.always_bind]
    refine requireEmpty_always.mono (fun _ _ still => .inl still) ?_
    rintro t₄ (e | ⟨⟩) w₁ ⟨rfl, empty⟩
    · exact .inl rfl
    rw [Routine.always_andThen_ok]
    have entitled : ∀ t, Unwrapped c password (t₁ ++ (t₂ ++ (t₃ ++ t))) vk :=
      fun t => ⟨bytes, by simp [seen], opened⟩
    have tail : ∀ before w₂, Adopting c vk w₁ before w₂ → ((do
        let restored ← pullVault c vk
        let _ ← syncDeviceSettings c
        pure restored) : Command Nat).Always exec (fun t => Filling c vk w₁ w₂ (before ++ t))
        (fun t _ => Filling c vk w₁ w₂ (before ++ t)) w₂ :=
      fun before w₂ adopting => pullThenSettings_filling id adopting
    refine (protectKey_always (t₁ ++ (t₂ ++ (t₃ ++ t₄))) (by simp [seen]) tail).mono ?_ ?_
    · intro t w' stage
      simp only [List.append_assoc] at stage
      exact .inr ⟨empty rfl, vk, entitled _, stage, trivial⟩
    · rintro t r w' stage
      simp only [List.append_assoc] at stage
      exact .inr ⟨empty rfl, vk, entitled _, stage.1, stage.2⟩

/-- `sync_password_signin` takes a key over, or it only files the settings. -/
def Signin (c : Suite) (password : String) (Stage : Trace → Key → World → Prop) (w : World)
    (t : Trace) (w' : World) : Prop :=
  Adoption c (Unwrapped c password) Stage w t w' ∨ ∃ item, Filed c w.desktop.join item w w'

theorem syncPasswordSignin_always {password : String} :
    (syncPasswordSignin c password).Always exec (Signin c password (fun _ _ _ => True) w)
      (fun t _ => Signin c password (Secured w) w t) w := by
  have still : ∀ {Stage t}, Signin c password Stage w t w := fun {_ _} => .inl (.inl rfl)
  rw [syncPasswordSignin, Routine.always_bind]
  refine always_signIn fun answer => ⟨still, ?_⟩
  rw [Routine.always_andThen_ok, Routine.always_bind, always_orFail]
  cases answer with
  | error e => exact still
  | ok second =>
    rw [Except.mapError, Routine.always_andThen_ok]
    cases second with
    | true => exact still
    | false =>
      rw [if_neg Bool.false_ne_true, Routine.always_bind]
      refine apiFor_always.mono (fun _ _ same => .inl (.inl same)) ?_
      rintro t₁ (e | ⟨⟩) w₁ rfl
      · exact still
      rw [Routine.always_andThen_ok, Routine.always_bind]
      refine getWrappedKey_always.mono (fun _ _ same => .inl (.inl same)) ?_
      rintro t₂ (e | blob) w₁ ⟨rfl, fetched⟩
      · exact still
      obtain ⟨bytes, rfl, seen⟩ := fetched blob rfl
      rw [Routine.always_andThen_ok, Routine.always_bind, always_orFail]
      cases opened : passwordUnwrap c password ⟨.password, bytes⟩ with
      | error e => exact still
      | ok vk =>
        rw [Except.mapError, Routine.always_andThen_ok, Routine.always_bind, always_listEnvelopes]
        refine ⟨still, ?_⟩
        rw [Routine.always_andThen_ok]
        by_cases empty : w₁.vault.listEnvelopes = []
        · rw [if_pos empty]
          have tail : ∀ before w₂, Adopting c vk w₁ before w₂ → ((do
              let restored ← pullVault c vk
              let _ ← syncDeviceSettings c
              pure (false, restored)) : Command (Bool × Nat)).Always exec
              (fun t => Filling c vk w₁ w₂ (before ++ t))
              (fun t _ => Filling c vk w₁ w₂ (before ++ t)) w₂ :=
            fun before w₂ adopting => pullThenSettings_filling (Prod.mk false) adopting
          have entitled : ∀ before t, Unwrapped c password (before ++ (t₁ ++ (t₂ ++ t))) vk :=
            fun before t => ⟨bytes, by simp [seen], opened⟩
          refine (protectKey_always ([⟨.signIn, .ok false⟩] ++ (t₁ ++ (t₂ ++
            [⟨.listEnvelopes, w₁.vault.listEnvelopes⟩]))) (by simp [seen]) tail).mono ?_ ?_
          · intro t w' stage
            simp only [List.append_assoc] at stage
            exact .inl (.inr ⟨empty, vk, entitled _ _, stage, trivial⟩)
          · rintro t r w' stage
            simp only [List.append_assoc] at stage
            exact .inl (.inr ⟨empty, vk, entitled _ _, stage.1, stage.2⟩)
        · rw [if_neg empty]
          have filed : ∀ {Stage t w'}, (w' = w₁ ∨ ∃ item, Filed c w₁.desktop.join item w₁ w') →
              Signin c password Stage w₁ t w' := by
            rintro Stage t w' (rfl | filed)
            · exact .inl (.inl rfl)
            · exact .inr filed
          rw [Routine.always_bind, Routine.always_pure, Routine.always_andThen_ok,
            Routine.always_bind]
          refine syncDeviceSettings_always.mono (fun t w' stage => filed stage) ?_
          rintro t (e | seeded) w' stage
          · exact filed stage
          · exact filed stage

end Sentinel.Desktop
