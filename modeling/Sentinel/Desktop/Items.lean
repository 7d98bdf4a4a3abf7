import Sentinel.Desktop.Effects

/-!
# The items of the desktop

The vault commands of `commands.rs` and the hidden settings item of `sync.rs`: the commands
that seal an item with the key of the session and store it. The item that a save builds is
a function of the editor's input, the stored item and the clock (`ItemInput.built`,
`settingsItem`).
-/

namespace Sentinel.Desktop

open Vault Atomic

/-- `impl From<CoreError> for ApiError`. -/
def coreFailure (e : CoreError) : Failure := .api "core" (display e)

/-- `estr` on a `CoreError`. -/
def coreText (e : CoreError) : Failure := .text (display e)

/-- `VaultSession::open`. -/
def sessionOpen (c : Suite) (session : Option Key) (env : ItemEnvelope) : Except CoreError Item :=
  match session with
  | none => .error (.state "vault is locked")
  | some vk => openItem c.toCrypto vk.bytes env

/-- `VaultSession::seal`. -/
def sessionSeal (c : Suite) (session : Option Key) (item : Item) :
    Command (Except CoreError ItemEnvelope) := do
  match session with
  | none => pure (.error (.state "vault is locked"))
  | some vk => do
      let nonce ← sys (.random 24)
      pure (sealItem c.toCrypto vk.bytes (nonce24 nonce) item)

/-- `session.seal` followed by `vault.upsert`. -/
def sealAndStore (c : Suite) (session : Option Key) (item : Item) (f : CoreError → Failure) :
    Command Unit := do
  let env ← orFail (← sessionSeal c session item) f
  orFail (← sys (.upsert env)) f

/-- `Item::password`. -/
def itemPassword (it : Item) : Option String := it.login.bind Login.password

/-- `Item::username`. -/
def itemUsername (it : Item) : Option String := it.login.bind Login.username

/-- A hexadecimal digit. -/
def hexDigit (n : Nat) : Char := "0123456789abcdef".toList.getD n '0'

/-- `Uuid::to_string`: hyphenated, in lower case. -/
def uuidText (id : ItemId) : String :=
  let hex := id.bytes.flatMap fun b => [hexDigit (b.toNat / 16), hexDigit (b.toNat % 16)]
  String.ofList (hex.take 8 ++ '-' :: (hex.drop 8).take 4 ++ '-' :: (hex.drop 12).take 4 ++
    '-' :: (hex.drop 16).take 4 ++ '-' :: hex.drop 20)

/-- Sixteen random bytes with the version and the variant of a random id. -/
def uuidV4 (b : { bytes : Bytes // bytes.length = 16 }) : ItemId where
  bytes := (b.1.modify 6 fun x => (x &&& 0x0f) ||| 0x40).modify 8 fun x => (x &&& 0x3f) ||| 0x80
  length := by simp [b.2]

/-- `Uuid::new_v4`. -/
def newUuid : Command ItemId := do
  let b ← sys (.random 16)
  pure (uuidV4 b)

/-- `parse_uid`. -/
def parseUid (c : Suite) (id : String) : Command ItemId :=
  orFail ((c.parseUuid id).elim (.error ()) .ok) fun _ => .api "bad_id" "bad item id"

/-- `type_from_str`. -/
def typeFromStr (s : String) : ItemType :=
  match s with
  | "note" => .note
  | "card" => .card
  | "identity" => .identity
  | "passkey" => .passkey
  | _ => .login

/-- `ItemInput`: the item as the editor sends it. -/
structure ItemInput where
  id : Option String
  kind : String
  title : String
  username : Option String
  password : Option String
  urls : List (String × String)
  notes : Option String
  tags : List String
  totpUri : Option String
  customFields : List CustomField
  card : Option Card
  identity : Option Identity

/-- An empty text counts as none. -/
def nonempty (s : Option String) : Option String := s.filter fun t => decide (t ≠ "")

/-- The item that `vault_save` stores: the prior item keeps its creation time, and the age of
its password if that is the same. -/
def ItemInput.built (input : ItemInput) (prior : Option Item) (uid : ItemId) (ts : Int) : Item where
  id := uid
  itemType := typeFromStr input.kind
  title := input.title
  tags := input.tags
  urls := (input.urls.filter fun u => decide (Api.trim u.1 ≠ "")).map fun u =>
    { url := u.1, mode := if u.2 = "host" then .host else .domain }
  notes := nonempty input.notes
  customFields := input.customFields
  login := match typeFromStr input.kind with
    | .login => some
        { username := nonempty input.username
          password := nonempty input.password
          totp := nonempty input.totpUri }
    | _ => none
  card := match typeFromStr input.kind with
    | .card => some (input.card.getD {})
    | _ => none
  identity := match typeFromStr input.kind with
    | .identity => some (input.identity.getD {})
    | _ => none
  -- never fabricate key material on save
  passkey := match typeFromStr input.kind with
    | .passkey => prior.bind Item.passkey
    | _ => none
  createdAt := (prior.map Item.createdAt).getD ts
  updatedAt := ts
  passwordChangedAt := match typeFromStr input.kind with
    | .login =>
        match prior, input.password with
        | some p, some np => if itemPassword p = some np then p.passwordChangedAt else some ts
        | none, some _ => some ts
        | _, none => prior.bind Item.passwordChangedAt
    | _ => none

section Commands

variable (c : Suite)

/-- The stored item of an id, opened. -/
def priorItem (session : Option Key) (uid : ItemId) : Command (Option Item) := do
  match ← sys (.vaultGet uid) with
  | none => pure none
  | some env => do
      let it ← orFail (sessionOpen c session env) coreFailure
      pure (some it)

/-- The id of a saved item and, on an edit, the item it replaces. -/
def saveTarget (session : Option Key) (input : ItemInput) : Command (ItemId × Option Item) :=
  match input.id with
  | some id => do
      let uid ← parseUid c id
      let prior ← priorItem c session uid
      pure (uid, prior)
  | none => do
      let uid ← newUuid
      pure (uid, none)

/-- `vault_save`. -/
def vaultSave (input : ItemInput) : Command String := do
  let ts ← sys .clock
  let session ← sys .session
  let target ← saveTarget c session input
  sealAndStore c session (input.built target.2 target.1 ts) coreFailure
  pure (uuidText target.1)

/-- `vault_delete`. -/
def vaultDelete (id : String) : Command Unit := do
  let uid ← parseUid c id
  let ts ← sys .clock
  sys (.vaultDelete uid ts)

end Commands

/-- `SYSTEM_TAG`. -/
def systemTag : String := "northkey:system"

/-- `commands::host_of`: a best-effort host of an address. -/
def hostOfUrl (url : String) : String :=
  let after := match afterScheme url.toList with
    | some rest => rest
    | none => url.toList
  String.ofList (after.takeWhile fun ch => decide (ch ≠ '/'))
where
  /-- `split_once("://")`, second half. -/
  afterScheme : List Char → Option (List Char)
    | ':' :: '/' :: '/' :: rest => some rest
    | _ :: rest => afterScheme rest
    | [] => none

/-- `ItemSummary`, with its times as numbers. -/
structure ItemSummary where
  id : String
  kind : ItemType
  title : String
  username : Option String
  tags : List String
  faviconDomain : Option String
  hasTotp : Bool
  updatedAt : Int
  passwordChangedAt : Option Int
  deriving DecidableEq, Repr

/-- `summary_of`. -/
def summaryOf (it : Item) : ItemSummary where
  id := uuidText it.id
  kind := it.itemType
  title := it.title
  username := itemUsername it
  tags := it.tags
  faviconDomain := it.urls.head?.map fun u => hostOfUrl u.url
  hasTotp := (it.login.bind Login.totp).isSome
  updatedAt := it.updatedAt
  passwordChangedAt := it.passwordChangedAt

/-- The loop of `vault_list`: it fails at the first envelope that does not open. -/
def listedItems (c : Suite) (session : Option Key) : List ItemEnvelope →
    Except CoreError (List ItemSummary)
  | [] => .ok []
  | env :: rest => do
      let it ← sessionOpen c session env
      let out ← listedItems c session rest
      -- system items never show next to real logins
      if systemTag ∈ it.tags then pure out else pure (summaryOf it :: out)

/-- `vault_list`. -/
def vaultList (c : Suite) : Command (List ItemSummary) := do
  let envs ← sys .listEnvelopes
  let session ← sys .session
  orFail (listedItems c session envs) coreFailure

/-- `SETTINGS_ITEM_ID`. -/
def settingsItemId : ItemId where
  bytes := [0xa1, 0x1d, 0x0e, 0x5e, 0x77, 0x1e, 0x4b, 0x8a, 0x9f, 0x30, 0x0c, 0x0f, 0xfe, 0xe5,
    0xe7, 0x71]
  length := rfl

/-- The value of a custom field. -/
def fieldValue (it : Item) (name : String) : Option String :=
  (it.customFields.find? fun f => decide (f.name = name)).map CustomField.value

/-- The item that `write_settings_item` stores. An empty value keeps the one already there;
the time is that of the clock, but later than the stored item's. -/
def settingsItem (existing : Option Item) (values : List (String × String)) (now : Int) : Item where
  id := settingsItemId
  itemType := .note
  title := "NorthKey device settings"
  tags := [systemTag]
  urls := []
  notes := some "Synced app configuration — managed automatically, hidden from lists."
  customFields := values.map fun (name, v) =>
    { name := name
      value := if Api.trim v = "" then (existing.bind fun it => fieldValue it name).getD "" else v
      isSecret := true }
  login := none
  card := none
  identity := none
  passkey := none
  createdAt := (existing.map Item.createdAt).getD now
  -- `prev_updated + 1` in 64 bits
  updatedAt := max now (asI64 ((existing.map Item.updatedAt).getD 0 + 1))
  passwordChangedAt := none

/-- `write_settings_item`. -/
def writeSettingsItem (c : Suite) (values : List (String × String)) : Command Unit := do
  let t ← sys .clock
  -- `chrono_now`: a clock before the epoch is zero
  let now := max 0 t
  let session ← sys .session
  let stored ← sys (.vaultGet settingsItemId)
  let existing := stored.bind fun env => (sessionOpen c session env).toOption
  sealAndStore c session (settingsItem existing values now) coreText

/-- Whether the device has settings that the settings item lacks. -/
def settingsDue (existing : Option Item) (locals : List (String × String)) : Bool :=
  match existing with
  | some item => locals.any fun (name, v) =>
      decide (Api.trim v ≠ "" ∧ Api.trim v ≠ Api.trim ((fieldValue item name).getD ""))
  | none => !(locals.all fun (_, v) => decide (v = ""))

/-- `sync_device_settings`, as far as it writes the vault: seed the settings item, or fill what
it lacks. -/
def syncDeviceSettings (c : Suite) : Command Bool := do
  let stored ← sys (.vaultGet settingsItemId)
  let session ← sys .session
  let locals ← sys .localSettings
  if settingsDue (stored.bind fun env => (sessionOpen c session env).toOption) locals then
    match ← Routine.attempt (writeSettingsItem c locals) with
    | .ok () => pure true
    | .error _ => pure false
  else pure false

section Effects

variable {c : Suite} {w : World}

/-- The item was sealed with the key of the session and stored. -/
def Filed (c : Suite) (session : Option Key) (item : Item) (w w' : World) : Prop :=
  ∃ vk nonce env vault, session = some vk ∧ sealItem c.toCrypto vk.bytes nonce item = .ok env ∧
    w.vault.upsert env = .ok vault ∧ w' = { w with vault := vault }

theorem sessionSeal_always {session : Option Key} {item : Item} :
    (sessionSeal c session item).Always exec (Still w) (fun _ r w' => w' = w ∧
      ∃ answer, r = .ok answer ∧ ∀ env, answer = .ok env → ∃ vk nonce, session = some vk ∧
        sealItem c.toCrypto vk.bytes nonce item = .ok env) w := by
  unfold sessionSeal
  cases session with
  | none => exact ⟨rfl, _, rfl, nofun⟩
  | some vk =>
      rw [Routine.always_bind]
      refine always_random fun drawn => ⟨rfl, rfl, _, rfl, ?_⟩
      intro env same
      exact ⟨vk, _, rfl, same⟩

/-- Nothing is stored unless the item is. -/
theorem sealAndStore_always {session : Option Key} {item : Item} {f : CoreError → Failure} :
    (sealAndStore c session item f).Always exec (fun _ w' => w' = w ∨ Filed c session item w w')
      (fun _ r w' => match r with
        | .ok () => Filed c session item w w'
        | .error _ => w' = w) w := by
  rw [sealAndStore, Routine.always_bind]
  refine sessionSeal_always.mono (fun t w' still => .inl still) ?_
  rintro t r w' ⟨rfl, answer, rfl, made⟩
  simp only [Routine.always_andThen_ok, Routine.always_bind, always_orFail]
  cases answer with
  | error e => rfl
  | ok env =>
      obtain ⟨vk, nonce, rfl, sealed_⟩ := made env rfl
      simp only [Except.mapError, Routine.always_andThen_ok, Routine.always_bind]
      refine always_upsert (fun e _ => ⟨.inl rfl, rfl⟩) ?_
      intro vault stored
      have filed : Filed c (some vk) item w' { w' with vault := vault } :=
        ⟨vk, nonce, env, vault, rfl, sealed_, stored, rfl⟩
      exact ⟨.inr filed, filed⟩

/-- The id that `vault_save` writes to and the item it found there. -/
def Target (c : Suite) (input : ItemInput) (w : World) (uid : ItemId) (prior : Option Item) : Prop :=
  match input.id with
  | none => prior = none
  | some id => c.parseUuid id = some uid ∧
      match w.vault.get uid with
      | none => prior = none
      | some env => ∃ it, sessionOpen c w.desktop.join env = .ok it ∧ prior = some it

theorem saveTarget_always {input : ItemInput} :
    (saveTarget c w.desktop.join input).Always exec (Still w) (fun _ r w' => w' = w ∧
      ∀ target, r = .ok target → Target c input w target.1 target.2) w := by
  unfold saveTarget Target
  cases input.id with
  | none =>
      rw [Routine.always_bind, newUuid, Routine.always_bind]
      refine always_random fun drawn => ⟨rfl, rfl, ?_⟩
      intro target same
      obtain rfl := Except.ok.inj same
      rfl
  | some id =>
      rw [Routine.always_bind, parseUid, always_orFail]
      cases parsed : c.parseUuid id with
      | none => exact ⟨rfl, by rintro _ ⟨⟩⟩
      | some uid =>
          simp only [Option.elim, Except.mapError, Routine.always_andThen_ok, priorItem,
            Routine.always_bind, always_vaultGet]
          refine ⟨rfl, ?_⟩
          cases stored : w.vault.get uid with
          | none =>
              refine ⟨rfl, ?_⟩
              rintro target same
              cases same
              refine ⟨parsed, ?_⟩
              simp only [stored]
          | some env =>
              simp only [Routine.always_bind, always_orFail]
              cases opened : sessionOpen c w.desktop.join env with
              | error e => exact ⟨rfl, by rintro _ ⟨⟩⟩
              | ok it =>
                  refine ⟨rfl, ?_⟩
                  rintro target same
                  cases same
                  refine ⟨parsed, ?_⟩
                  simp only [stored]
                  exact ⟨it, opened, rfl⟩

/-- `vault_list` changes nothing; it answers what `listedItems` gives. -/
theorem vaultList_always :
    (vaultList c).Always exec (Still w) (fun _ r w' => w' = w ∧
      r = (listedItems c w.desktop.join w.vault.listEnvelopes).mapError coreFailure) w := by
  rw [vaultList, Routine.always_bind, always_listEnvelopes]
  refine ⟨rfl, ?_⟩
  rw [Routine.always_andThen_ok, Routine.always_bind, always_session]
  exact ⟨rfl, rfl, rfl⟩

/-- `vault_save` stored the item it built, with the time of the clock. -/
def VaultSaved (c : Suite) (input : ItemInput) (w : World) (t : Trace) (w' : World) : Prop :=
  ∃ ts uid prior, ⟨.clock, ts⟩ ∈ t ∧ -(2 ^ 63) ≤ ts ∧ ts < 2 ^ 63 ∧ Target c input w uid prior ∧
    Filed c w.desktop.join (input.built prior uid ts) w w'

theorem vaultSave_always {input : ItemInput} :
    (vaultSave c input).Always exec (fun t w' => w' = w ∨ VaultSaved c input w t w')
      (fun t r w' => match r with
        | .ok _ => VaultSaved c input w t w'
        | .error _ => w' = w) w := by
  rw [vaultSave, Routine.always_bind]
  refine always_clock fun ts low high => ⟨.inl rfl, ?_⟩
  rw [Routine.always_andThen_ok, Routine.always_bind, always_session]
  refine ⟨.inl rfl, ?_⟩
  rw [Routine.always_andThen_ok, Routine.always_bind]
  refine saveTarget_always.mono (fun t w' still => .inl still) ?_
  rintro t (e | ⟨uid, prior⟩) w' ⟨rfl, target⟩
  · rfl
  · have saved : ∀ {before : Trace} {w'' : World},
        Filed c w'.desktop.join (input.built prior uid ts) w' w'' →
        VaultSaved c input w' (⟨.clock, ts⟩ :: before) w'' := by
      intro before w'' filed
      exact ⟨ts, uid, prior, List.mem_cons_self, low, high, target _ rfl, filed⟩
    rw [Routine.always_andThen_ok, Routine.always_bind]
    refine sealAndStore_always.mono ?_ ?_
    · rintro t w'' (rfl | filed)
      · exact .inl rfl
      · exact .inr (saved filed)
    · rintro t (e | ⟨⟩) w'' stored
      · exact stored
      · exact saved stored

/-- `vault_delete` deleted the item at the time of the clock. -/
def VaultDeleted (c : Suite) (id : String) (w : World) (t : Trace) (w' : World) : Prop :=
  ∃ ts uid, ⟨.clock, ts⟩ ∈ t ∧ c.parseUuid id = some uid ∧
    w' = { w with vault := w.vault.delete uid ts }

theorem vaultDelete_always {id : String} :
    (vaultDelete c id).Always exec (fun t w' => w' = w ∨ VaultDeleted c id w t w')
      (fun t r w' => match r with
        | .ok () => VaultDeleted c id w t w'
        | .error _ => w' = w) w := by
  rw [vaultDelete, Routine.always_bind, parseUid, always_orFail]
  cases parsed : c.parseUuid id with
  | none => rfl
  | some uid =>
      rw [Option.elim, Except.mapError, Routine.always_andThen_ok, Routine.always_bind]
      refine always_clock fun ts _ _ => ⟨.inl rfl, ?_⟩
      have deleted : ∀ after : Trace, VaultDeleted c id w (⟨.clock, ts⟩ :: after)
          { w with vault := w.vault.delete uid ts } :=
        fun after => ⟨ts, uid, List.mem_cons_self, parsed, rfl⟩
      rw [Routine.always_andThen_ok, always_vaultDelete]
      exact ⟨.inr (deleted _), deleted _⟩

/-- The settings item, if the session can open it. -/
def existingSettings (c : Suite) (w : World) : Option Item :=
  (w.vault.get settingsItemId).bind fun env => (sessionOpen c w.desktop.join env).toOption

/-- `write_settings_item` stored the item it built. -/
def SettingsWritten (c : Suite) (values : List (String × String)) (w : World) (t : Trace)
    (w' : World) : Prop :=
  ∃ ts, ⟨.clock, ts⟩ ∈ t ∧ -(2 ^ 63) ≤ ts ∧ ts < 2 ^ 63 ∧
    Filed c w.desktop.join (settingsItem (existingSettings c w) values (max 0 ts)) w w'

theorem writeSettingsItem_always {values : List (String × String)} :
    (writeSettingsItem c values).Always exec
      (fun t w' => w' = w ∨ SettingsWritten c values w t w')
      (fun t r w' => match r with
        | .ok () => SettingsWritten c values w t w'
        | .error _ => w' = w) w := by
  rw [writeSettingsItem, Routine.always_bind]
  refine always_clock fun ts low high => ⟨.inl rfl, ?_⟩
  rw [Routine.always_andThen_ok, Routine.always_bind, always_session]
  refine ⟨.inl rfl, ?_⟩
  rw [Routine.always_andThen_ok, Routine.always_bind, always_vaultGet]
  refine ⟨.inl rfl, ?_⟩
  have written : ∀ {after : Trace} {w' : World},
      Filed c w.desktop.join (settingsItem (existingSettings c w) values (max 0 ts)) w w' →
      SettingsWritten c values w (⟨.clock, ts⟩ :: after) w' := by
    intro after w' filed
    exact ⟨ts, List.mem_cons_self, low, high, filed⟩
  rw [Routine.always_andThen_ok]
  refine sealAndStore_always.mono ?_ ?_
  · rintro t w' (rfl | filed)
    · exact .inl rfl
    · exact .inr (written filed)
  · rintro t (e | ⟨⟩) w' stored
    · exact stored
    · exact written stored

/-- `sync_device_settings` writes the vault at most once, under the key of the session. -/
theorem syncDeviceSettings_always :
    (syncDeviceSettings c).Always exec
      (fun _ w' => w' = w ∨ ∃ item, Filed c w.desktop.join item w w')
      (fun _ _ w' => w' = w ∨ ∃ item, Filed c w.desktop.join item w w') w := by
  have weaken : ∀ {values : List (String × String)} {t : Trace} {w' : World},
      SettingsWritten c values w t w' → ∃ item, Filed c w.desktop.join item w w' := by
    rintro values t w' ⟨ts, -, -, -, filed⟩
    exact ⟨_, filed⟩
  rw [syncDeviceSettings, Routine.always_bind, always_vaultGet]
  refine ⟨.inl rfl, ?_⟩
  rw [Routine.always_andThen_ok, Routine.always_bind, always_session]
  refine ⟨.inl rfl, ?_⟩
  rw [Routine.always_andThen_ok, Routine.always_bind, always_sys]
  intro o
  refine ⟨.inl rfl, ?_⟩
  rw [Routine.always_andThen_ok]
  generalize settingsDue _ _ = due
  cases due with
  | false => exact .inl rfl
  | true =>
    rw [if_pos rfl, Routine.always_bind, Routine.always_attempt]
    refine writeSettingsItem_always.mono ?_ ?_
    · rintro t w' (rfl | written)
      · exact .inl rfl
      · exact .inr (weaken written)
    · rintro t (e | ⟨⟩) w' ended
      · exact .inl ended
      · exact .inr (weaken ended)

end Effects

end Sentinel.Desktop
