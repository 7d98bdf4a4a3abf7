import Sentinel.Desktop.Effects
import Sentinel.Desktop.Recorded

/-!
# The vault key is kept

The commands that move the key between the keychain and the wrapper, cut off after any call
and with any call failing. As long as no password is changed on Windows without a copy of
the key in the keychain, and no wrapper of another key is adopted, the key can be had after
every call: from the keychain, or from the wrapper under the password it had before the
command or the one the command sets.

On Windows `write_atomic` removes the wrapper before it renames the new one into its place,
and when the rename fails it removes the new one as well.
-/

namespace Sentinel.Desktop

open Vault Atomic

/-- The commands that move the key. `protect` is `make_password_protected`, called with the
key of the session. -/
inductive KeyOp where
  | setPassword (password : String)
  | changePassword (oldPassword newPassword : String) (code : Option String)
  | removePassword (password : String) (code : Option String)
  | protect (escrow : Bytes)
  deriving DecidableEq, Repr

namespace KeyOp

def program (c : Suite) (vk : Key) : KeyOp → Command Unit
  | setPassword password => authSetPassword c password
  | changePassword oldPassword newPassword code =>
      authChangePassword c oldPassword newPassword code
  | removePassword password code => authRemovePassword c password code
  | protect escrow => makePasswordProtected escrow vk

/-- The world in which the command is cut off, or finished, by these outcomes. -/
def interrupted (c : Suite) (vk : Key) (op : KeyOp) (os : List Outcome) (w : World) : World :=
  ((op.program c vk).feed exec os w).2

/-- The password that the command sets. An adopted wrapper has the one it was made with. -/
def NewPassword (c : Suite) (vk : Key) : KeyOp → String → Prop
  | setPassword new, password => password = new
  | changePassword _ new _, password => password = new
  | removePassword _ _, _ => False
  | protect escrow, password => Opens c escrow password vk

/-- The key can be had: from the keychain, or from the wrapper under a password that opened
it before the command or that the command sets. -/
def Kept (c : Suite) (vk : Key) (op : KeyOp) (before w : World) : Prop :=
  Holds c w vk ∨ ∃ password, (WrapOpens c before password vk ∨ op.NewPassword c vk password) ∧
    WrapOpens c w password vk

/-- No code submitted with the command can be right. -/
def CodeRefused (c : Suite) (w : World) (code : Option String) : Prop :=
  w.settings.totpEnabled = true ∧ ∀ time, ¬ CodeFits c w code time

/-- The command does not come to remove the only copy of the key: a password is changed
elsewhere than on Windows, or with a copy in the keychain, or the change is refused; an
adopted wrapper is one of this key. -/
def Sound (c : Suite) (vk : Key) (w : World) : KeyOp → Prop
  | changePassword oldPassword newPassword code =>
      w.windows = false ∨ Holds c w vk ∨ tooShort newPassword = true ∨
        (∀ k, ¬ WrapOpens c w oldPassword k) ∨ CodeRefused c w code
  | protect escrow => w.wrap = none → isPasswordWrap escrow = true →
      ∃ password, MadeFor c vk password escrow
  | _ => True

end KeyOp

/-- The key can be had, and a wrapper is one that was made for it. -/
structure Safe (c : Suite) (vk : Key) (w : World) : Prop where
  stored : Holds c w vk ∨ ∃ password, WrapOpens c w password vk
  made : ∀ bytes, w.wrap = some bytes → ∃ password, MadeFor c vk password bytes

section Step

variable {c : Suite} {vk : Key} {w w' : World}

/-- A wrapper of the key opens to no other. -/
theorem Safe.eq_of_opens (correct : c.toCrypto.Correct) (committing : Committing c.toCrypto)
    (safe : Safe c vk w) {password : String} {k : Key} (opens : WrapOpens c w password k) :
    k = vk := by
  obtain ⟨bytes, found, opened⟩ := opens
  obtain ⟨_, salt, nonce, sixteen, rfl⟩ := safe.made bytes found
  exact eq_of_opens_passwordBlob correct committing sixteen opened

theorem opens_of_madeFor (correct : c.toCrypto.Correct) {password : String} {bytes : Bytes}
    (made : MadeFor c vk password bytes) : Opens c bytes password vk := by
  obtain ⟨salt, nonce, sixteen, rfl⟩ := made
  exact opens_passwordBlob correct password sixteen nonce vk

theorem Safe.holds (safe : Safe c vk w) (free : w.wrap = none) : Holds c w vk := by
  obtain held | ⟨password, bytes, found, -⟩ := safe.stored
  · exact held
  · rw [free] at found
    cases found

/-- With the key in the keychain nothing is minted. -/
theorem Source.of_holds {vk' : Key} (source : Source c vk' w w') (held : Holds c w vk) :
    vk' = vk ∧ w' = w := by
  obtain ⟨text, found, -⟩ := id held
  obtain ⟨rfl, held'⟩ | ⟨absent, -⟩ := source
  · exact ⟨eq_of_holds held' held, rfl⟩
  · rw [absent] at found
    cases found

theorem Minting.of_holds (minting : Minting w w') (held : Holds c w vk) : w' = w := by
  obtain ⟨text, found, -⟩ := held
  obtain rfl | ⟨absent, -⟩ := minting
  · rfl
  · rw [absent] at found
    cases found

/-- What every stage of a command keeps: the key can be had, and the world is safe. -/
def KeptSafe (c : Suite) (vk : Key) (op : KeyOp) (w w' : World) : Prop :=
  op.Kept c vk w w' ∧ Safe c vk w'

theorem Safe.untouched (safe : Safe c vk w) (op : KeyOp) : KeptSafe c vk op w w := by
  refine ⟨?_, safe⟩
  obtain held | ⟨password, opens⟩ := safe.stored
  · exact .inl held
  · exact .inr ⟨password, .inl opens, opens⟩

/-- The key is in the keychain, and the wrapper is fine. -/
theorem KeptSafe.of_holds {op : KeyOp} (held : Holds c w' vk)
    (made : ∀ bytes, w'.wrap = some bytes → ∃ password, MadeFor c vk password bytes) :
    KeptSafe c vk op w w' :=
  ⟨.inl held, .inl held, made⟩

/-- The wrapper was made for the key with the new password. -/
theorem KeptSafe.of_madeFor (correct : c.toCrypto.Correct) {op : KeyOp} {password : String}
    {bytes : Bytes} (found : w'.wrap = some bytes) (made : MadeFor c vk password bytes)
    (new : op.NewPassword c vk password) : KeptSafe c vk op w w' := by
  have opens : WrapOpens c w' password vk := ⟨bytes, found, opens_of_madeFor correct made⟩
  refine ⟨.inr ⟨password, .inr new, opens⟩, .inr ⟨password, opens⟩, ?_⟩
  intro bytes' found'
  obtain rfl := Option.some.inj (found.symm.trans found')
  exact ⟨password, made⟩

theorem setPassword_keptSafe (correct : c.toCrypto.Correct) (safe : Safe c vk w)
    {password : String} (stage : SetPassword c password w w') :
    KeptSafe c vk (.setPassword password) w w' := by
  cases stage with
  | untouched => exact safe.untouched _
  | minting _ free minting =>
      rw [minting.of_holds (safe.holds free)]
      exact safe.untouched _
  | sealing _ free source made writing =>
      have held := safe.holds free
      obtain ⟨rfl, rfl⟩ := source.of_holds held
      obtain ⟨wrap, tmp, rfl, rfl | ⟨-, rfl⟩ | rfl⟩ := writing
      · exact .of_holds held safe.made
      · exact .of_holds held nofun
      · exact .of_madeFor correct rfl made rfl
  | dropped _ _ free source made =>
      obtain ⟨rfl, rfl⟩ := source.of_holds (safe.holds free)
      exact .of_madeFor correct rfl made rfl
  | unlocked _ _ free source made =>
      obtain ⟨rfl, rfl⟩ := source.of_holds (safe.holds free)
      exact .of_madeFor correct rfl made rfl

theorem changePassword_keptSafe (correct : c.toCrypto.Correct) (committing : Committing c.toCrypto)
    (safe : Safe c vk w) {oldPassword newPassword : String} {code : Option String} {t : Trace}
    (sound : (KeyOp.changePassword oldPassword newPassword code).Sound c vk w)
    (stage : ChangePassword c oldPassword newPassword code w t w') :
    KeptSafe c vk (.changePassword oldPassword newPassword code) w w' := by
  cases stage with
  | untouched => exact safe.untouched _
  | sealing long opens passed made writing =>
      obtain rfl := safe.eq_of_opens correct committing opens
      obtain ⟨wrap, tmp, rfl, rfl | ⟨windows, rfl⟩ | rfl⟩ := writing
      · exact ⟨.inr ⟨oldPassword, .inl opens, opens⟩, .inr ⟨oldPassword, opens⟩, safe.made⟩
      · -- the wrapper is gone: only a copy in the keychain is left
        obtain other | held | short | wrong | ⟨enabled, refused⟩ := sound
        · rw [windows] at other
          cases other
        · exact .of_holds held nofun
        · rw [long] at short
          cases short
        · exact absurd opens (wrong _)
        · obtain ⟨time, -, fits⟩ := passed enabled
          exact absurd fits (refused time)
      · exact .of_madeFor correct rfl made rfl
  | unlocked _ opens _ made =>
      obtain rfl := safe.eq_of_opens correct committing opens
      exact .of_madeFor correct rfl made rfl

theorem removePassword_keptSafe (correct : c.toCrypto.Correct) (committing : Committing c.toCrypto)
    (safe : Safe c vk w) {password : String} {code : Option String} {t : Trace}
    (stage : RemovePassword c password code w t w') :
    KeptSafe c vk (.removePassword password code) w w' := by
  cases stage with
  | untouched => exact safe.untouched _
  | stored opens _ =>
      obtain rfl := safe.eq_of_opens correct committing opens
      exact .of_holds (holds_withKey c w _) safe.made
  | removed opens _ =>
      obtain rfl := safe.eq_of_opens correct committing opens
      exact .of_holds (holds_withKey c w _) nofun
  | unlocked opens _ =>
      obtain rfl := safe.eq_of_opens correct committing opens
      exact .of_holds (holds_withKey c w _) nofun

theorem protect_keptSafe (correct : c.toCrypto.Correct) (safe : Safe c vk w) {escrow : Bytes}
    (sound : (KeyOp.protect escrow).Sound c vk w) (stage : Protect escrow vk w w') :
    KeptSafe c vk (.protect escrow) w w' := by
  have gaveUp_made : w.wrap = none → ∀ {w' : World}, GaveUp w w' → w'.wrap = none := by
    rintro free w' ⟨wrap, tmp, rfl, rfl | ⟨-, rfl⟩⟩
    · exact free
    · rfl
  cases stage with
  | untouched => exact safe.untouched _
  | writing free headed writing =>
      obtain ⟨password, made⟩ := sound free headed
      obtain ⟨wrap, tmp, rfl, rfl | ⟨-, rfl⟩ | rfl⟩ := writing
      · exact .of_holds (safe.holds free) safe.made
      · exact .of_holds (safe.holds free) nofun
      · exact .of_madeFor correct rfl made (opens_of_madeFor correct made)
  | dropped free headed =>
      obtain ⟨password, made⟩ := sound free headed
      exact .of_madeFor correct rfl made (opens_of_madeFor correct made)
  | kept free gaveUp =>
      refine .of_holds (holds_withKey c _ vk) ?_
      intro bytes found
      rw [World.withKey, gaveUp_made free gaveUp] at found
      cases found
  | failed free gaveUp =>
      have held := safe.holds free
      have none_ := gaveUp_made free gaveUp
      obtain ⟨wrap, tmp, rfl, -⟩ := gaveUp
      refine .of_holds held ?_
      intro bytes found
      rw [none_] at found
      cases found

/-- One command, cut off anywhere. -/
theorem KeyOp.keptSafe (correct : c.toCrypto.Correct) (committing : Committing c.toCrypto)
    (safe : Safe c vk w) {op : KeyOp} (sound : op.Sound c vk w) (os : List Outcome) :
    KeptSafe c vk op w (op.interrupted c vk os w) := by
  cases op with
  | setPassword password =>
      exact setPassword_keptSafe correct safe (authSetPassword_always.feed .untouched os).1
  | changePassword oldPassword newPassword code =>
      exact changePassword_keptSafe correct committing safe sound
        (authChangePassword_always.feed .untouched os).1
  | removePassword password code =>
      exact removePassword_keptSafe correct committing safe
        (authRemovePassword_always.feed .untouched os).1
  | protect escrow =>
      exact protect_keptSafe correct safe sound (makePasswordProtected_always.feed .untouched os).1

end Step

/-- A run: commands, each with the outcomes it meets. -/
abbrev KeyRun := List (KeyOp × List Outcome)

namespace KeyRun

/-- Every command of the run is sound where it starts. -/
def Sound (c : Suite) (vk : Key) : World → KeyRun → Prop
  | _, [] => True
  | w, (op, os) :: rest => op.Sound c vk w ∧ Sound c vk (op.interrupted c vk os w) rest

/-- After every call of every command the key can be had. -/
def Kept (c : Suite) (vk : Key) : World → KeyRun → Prop
  | _, [] => True
  | w, (op, os) :: rest =>
      (∀ n, op.Kept c vk w (op.interrupted c vk (os.take n) w)) ∧
        Kept c vk (op.interrupted c vk os w) rest

end KeyRun

/-- A key that can be had at the start of a sound run can be had after each of its calls. -/
theorem key_never_lost {c : Suite} (correct : c.toCrypto.Correct)
    (committing : Committing c.toCrypto) {vk : Key} {start : World} (safe : Safe c vk start)
    (run : KeyRun) (sound : KeyRun.Sound c vk start run) : KeyRun.Kept c vk start run := by
  induction run generalizing start with
  | nil => trivial
  | cons step rest ih =>
      obtain ⟨op, os⟩ := step
      obtain ⟨first, later⟩ := sound
      refine ⟨fun n => (op.keptSafe correct committing safe first (os.take n)).1, ?_⟩
      exact ih (op.keptSafe correct committing safe first os).2 later

/-- The sample key under the password `correct horse`. -/
def horseWrap : Bytes :=
  passwordBlob sampleSuite "correct horse" (List.replicate 16 1) (nonceOf 2) sampleKey

theorem horseWrap_madeFor : MadeFor sampleSuite sampleKey "correct horse" horseWrap :=
  ⟨List.replicate 16 1, nonceOf 2, rfl, rfl⟩

/-- A vault with the note, behind a master password. -/
def sampleWorld (windows : Bool) : World where
  windows := windows
  keychain := none
  totpSecret := none
  wrap := some horseWrap
  tmp := none
  settings := .object none none
  vault := LocalVault.empty.put sampleNoteEnvelope sampleId 100 (by decide +kernel)
  desktop := some none
  host := none

theorem sampleWorld_safe (windows : Bool) : Safe sampleSuite sampleKey (sampleWorld windows) where
  stored := .inr ⟨"correct horse", horseWrap, rfl, by decide +kernel⟩
  made bytes found := by
    cases found
    exact ⟨"correct horse", horseWrap_madeFor⟩

/-- Outcomes of a password change without a failure: the salt and the nonce are drawn second
and third. -/
def changeOutcomes : List Outcome :=
  [{}, {}, { draw := fun _ => 3 }, { draw := fun _ => 4 }, {}, {}, {}, {}, {}, {}, {}]

/-- On Windows a change that is cut off after the old wrapper was removed leaves neither. -/
theorem change_interrupted :
    (sampleWorld true).vault.listEnvelopes.map (openItem sampleSuite.toCrypto sampleKey.bytes) =
        [.ok sampleNote] ∧
      Safe sampleSuite sampleKey (sampleWorld true) ∧
      ¬ KeyRun.Kept sampleSuite sampleKey (sampleWorld true)
        [(.changePassword "correct horse" "battery staple" none, changeOutcomes)] := by
  refine ⟨by decide +kernel, sampleWorld_safe true, ?_⟩
  intro kept
  have after := kept.1 9
  have lost : ((KeyOp.changePassword "correct horse" "battery staple" none).interrupted sampleSuite
      sampleKey (changeOutcomes.take 9) (sampleWorld true)).keychain = none ∧
      ((KeyOp.changePassword "correct horse" "battery staple" none).interrupted sampleSuite
      sampleKey (changeOutcomes.take 9) (sampleWorld true)).wrap = none := by decide +kernel
  obtain ⟨text, found, -⟩ | ⟨password, -, bytes, found, -⟩ := after
  · rw [lost.1] at found
    cases found
  · rw [lost.2] at found
    cases found

/-- Elsewhere the same change keeps the key, wherever it is cut off. -/
theorem change_kept_elsewhere :
    KeyRun.Kept sampleSuite sampleKey (sampleWorld false)
      [(.changePassword "correct horse" "battery staple" none, changeOutcomes)] :=
  key_never_lost sampleRecords_injective.correct.1 sampleRecords_injective.correct.2
    (sampleWorld_safe false) _ ⟨.inl rfl, trivial⟩

end Sentinel.Desktop
