import Sentinel.Lib.Conf
import Sentinel.Servers.Config
import Sentinel.Vpn.AlwaysOn
import Sentinel.Desktop.Items

/-!
# The settings that devices share

`local_settings` and the apply loop of `sync_device_settings` in
`apps/desktop/src-tauri/src/sync.rs`, with the exporters and appliers of `servers.rs`,
`vpn.rs`, `ssh.rs` and `commands.rs` behind them. A hidden item of the vault carries eleven
settings as the values of custom fields; `Device` is what a device holds of them, in its
keychain and its files.

A write to the keychain or to a file may fail. The `Fault` of a field says how its writes
end.
-/

namespace Sentinel.Settings

open Servers Vpn.AlwaysOn Vault Desktop

/-- The custom fields of the settings item, in the order of `local_settings`. -/
inductive Setting where
  | linode | gclient | gsecret | hetzner | netdata | prefs | watchdog | ndauth | aovpn | sshKey
  | sshPins
  deriving DecidableEq, Repr

namespace Setting

def all : List Setting :=
  [linode, gclient, gsecret, hetzner, netdata, prefs, watchdog, ndauth, aovpn, sshKey, sshPins]

def name : Setting → String
  | linode => "linode_token"
  | gclient => "google_client_id"
  | gsecret => "google_client_secret"
  | hetzner => "hetzner_token"
  | netdata => "netdata_config"
  | prefs => "app_prefs"
  | watchdog => "watchdog_cfg"
  | ndauth => "netdata_auth"
  | aovpn => "always_on_vpn"
  | sshKey => "ssh_terminal_key"
  | sshPins => "ssh_hostkey_pins"

/-- The arm of the apply loop for a field of this name. -/
def ofName (text : String) : Option Setting := all.find? fun s => decide (s.name = text)

theorem mem_all (s : Setting) : s ∈ all := by
  cases s <;> decide

theorem name_inj {s s' : Setting} : s.name = s'.name ↔ s = s' := by
  cases s <;> cases s' <;> decide

@[simp] theorem ofName_name (s : Setting) : ofName s.name = some s := by
  cases s <;> decide

end Setting

/-- `PersistentSyncBundle`. -/
structure PersistentSyncBundle where
  record : PersistentVpnRecord
  clientKey : String
  deriving DecidableEq

/-- The third-party code behind the settings: `serde_json` at the types that travel, and the
reader of OpenSSH keys. A preference is the text of its JSON value. -/
structure Formats where
  netdata : Codec (BTreeMap NetdataFileCfg)
  prefs : Codec (BTreeMap String)
  watchdog : Codec WatchdogFileCfg
  ndauth : Codec (BTreeMap String)
  aovpn : Codec PersistentSyncBundle
  sshPins : Codec (BTreeMap SshServerCfg)
  decodeSecretKey : String → Except String Unit

/-- What a device holds. The entries of the keychain are as they are stored. -/
structure Device where
  linode : Option String
  gsecret : Option String
  hetzner : Option String
  sshKey : Option String
  /-- the key of the always-on node -/
  wgKey : Option String
  /-- the accounts of the Netdata logins -/
  auth : String → Option String
  /-- `google_client_id` of `sync-config.json` -/
  googleClientId : Option String
  /-- `servers-config.json` -/
  cfg : Option ServersFileCfg
  /-- `settings.json`, if it holds an object -/
  prefs : Option (BTreeMap String)
  /-- `vpn-persistent.json` -/
  record : RecordFile

/-- Reading an entry of the keychain. -/
def kcGet (entry : Option String) : Option String :=
  (entry.map Api.trim).filter fun s => decide (s ≠ "")

/-- How a write to the keychain ends. -/
inductive KeyWrite where
  | stored
  | failed (text : String)
  /-- no error, and nothing stored -/
  | dropped
  deriving DecidableEq, Repr

def KeyWrite.put (o : KeyWrite) (value : String) (entry : Option String) : Option String :=
  match o with
  | stored => some value
  | _ => entry

/-- The file after a write. -/
def put {α : Type} (o : Written) (value : α) (file : Option α) : Option α :=
  match o with
  | .done => some value
  | .refused _ => file
  | .broken _ => none

def putRecord (o : Written) (record : PersistentVpnRecord) (file : RecordFile) : RecordFile :=
  match o with
  | .done => .holds record
  | .refused _ => file
  | .broken _ => .truncated

/-- How the writes for one field end. -/
structure Fault where
  key : KeyWrite
  file : Written
  /-- by account -/
  auth : String → KeyWrite

/-! ## Netdata logins -/

/-- `netdata_auth_account`, for the key of a server. -/
def authAccount (key : String) : Option String :=
  (Conf.splitOnce ':' key.toList).map fun (provider, id) =>
    "netdata-auth-" ++ String.ofList provider ++ "-" ++ String.ofList id

/-- The logins that `netdata_auth_json` collects. -/
def authMap (netdata : BTreeMap NetdataFileCfg) (auth : String → Option String) : BTreeMap String :=
  netdata.filterMap fun key nd =>
    if nd.hasAuth then (authAccount key).bind fun account => kcGet (auth account) else none

/-- One round of `apply_netdata_auth_json`. -/
def storeAuth (o : String → KeyWrite) (auth : String → Option String) (x : String × String) :
    String → Option String :=
  if Api.trim x.2 = "" then auth
  else match authAccount x.1 with
    | none => auth
    | some account => Function.update auth account ((o account).put (Api.trim x.2) (auth account))

/-! ## Preferences -/

/-- `DEVICE_LOCAL_PREF_KEYS`. -/
def deviceLocalPrefKeys : List String := ["requireHello", "applockTotpEnabled", "telemetry"]

/-- The part of the preferences that travels. -/
def syncable (prefs : BTreeMap String) : BTreeMap String :=
  prefs.filter fun key _ => decide (key ∉ deviceLocalPrefKeys)

/-- The object that `apply_prefs_sync` writes. -/
def mergedPrefs (prefs : Option (BTreeMap String)) (incoming : BTreeMap String) :
    BTreeMap String :=
  (prefs.getD ∅ ∪ syncable incoming).insert "telemetry" "false"

/-! ## Exporters and appliers -/

/-- The text of a value, unless there is nothing to say. -/
def textUnless {α : Type} (c : Codec α) (nothing : Prop) [Decidable nothing] (value : α) : String :=
  if nothing then "" else c.encode value

section Formats

variable (json : Formats)

def netdataConfigJson (cfg : Option ServersFileCfg) : String :=
  textUnless json.netdata ((loadCfg cfg).netdata = ∅) (loadCfg cfg).netdata

def applyNetdataConfigJson (f : Fault) (text : String) (cfg : Option ServersFileCfg) :
    Option ServersFileCfg :=
  match json.netdata.decode text with
  | none => cfg
  | some incoming =>
      put f.file { loadCfg cfg with netdata := (loadCfg cfg).netdata ∪ incoming } cfg

/-- `watchdog_config_json`: the default configuration is not worth a field. -/
def watchdogConfigJson (cfg : Option ServersFileCfg) : String :=
  textUnless json.watchdog (json.watchdog.encode (loadCfg cfg).watchdog = json.watchdog.encode {})
    (loadCfg cfg).watchdog

def applyWatchdogConfigJson (f : Fault) (text : String) (cfg : Option ServersFileCfg) :
    Option ServersFileCfg :=
  match json.watchdog.decode text with
  | none => cfg
  | some watchdog => put f.file { loadCfg cfg with watchdog } cfg

def netdataAuthJson (cfg : Option ServersFileCfg) (auth : String → Option String) : String :=
  textUnless json.ndauth (authMap (loadCfg cfg).netdata auth = ∅)
    (authMap (loadCfg cfg).netdata auth)

def applyNetdataAuthJson (f : Fault) (text : String) (auth : String → Option String) :
    String → Option String :=
  match json.ndauth.decode text with
  | none => auth
  | some incoming => incoming.toList.foldl (storeAuth f.auth) auth

def sshPinsExport (cfg : Option ServersFileCfg) : String :=
  textUnless json.sshPins ((loadCfg cfg).ssh = ∅) (loadCfg cfg).ssh

def sshPinsApply (f : Fault) (text : String) (cfg : Option ServersFileCfg) :
    Option ServersFileCfg :=
  match (json.sshPins.decode text).bind (loadCfg cfg).pinsApply with
  | none => cfg
  | some changed => put f.file changed cfg

def prefsSyncExport (prefs : Option (BTreeMap String)) : String :=
  textUnless json.prefs (syncable (prefs.getD ∅) = ∅) (syncable (prefs.getD ∅))

def applyPrefsSync (f : Fault) (text : String) (prefs : Option (BTreeMap String)) :
    Option (BTreeMap String) :=
  match json.prefs.decode text with
  | none => prefs
  | some incoming => put f.file (mergedPrefs prefs incoming) prefs

def persistentSyncExport (record : RecordFile) (wgKey : Option String) : String :=
  match record.load with
  | some record =>
      if Api.trim record.instanceId = "" then ""
      else json.aovpn.encode ⟨record, (kcGet wgKey).getD ""⟩
  | none => ""

/-- The node that `persistent_sync_import` seeds, if it seeds one. -/
def seedOf (text : String) (record : RecordFile) : Option PersistentSyncBundle :=
  if record.load.isSome then none
  else (json.aovpn.decode text).filter fun bundle =>
    decide (Api.trim bundle.record.instanceId ≠ "")

theorem seedOf_eq_some {text : String} {record : RecordFile} {bundle : PersistentSyncBundle} :
    seedOf json text record = some bundle ↔ record.load = none ∧
      json.aovpn.decode text = some bundle ∧ Api.trim bundle.record.instanceId ≠ "" := by
  unfold seedOf
  cases record.load with
  | none => simp [Option.filter_eq_some_iff]
  | some r => simp

/-- `persistent_sync_import`: the record and the key afterwards. -/
def persistentSyncImport (f : Fault) (text : String) (record : RecordFile)
    (wgKey : Option String) : RecordFile × Option String :=
  match seedOf json text record with
  | none => (record, wgKey)
  | some bundle =>
      (putRecord f.file bundle.record record,
        if f.file = .done ∧ Api.trim bundle.clientKey ≠ "" then
          f.key.put (Api.trim bundle.clientKey) wgKey
        else wgKey)

/-- A token is written when it differs. -/
def setToken (f : Fault) (text : String) (entry : Option String) : Option String :=
  if kcGet entry = some text then entry else f.key.put text entry

def keyPemAdopt (f : Fault) (text : String) (entry : Option String) : Option String :=
  match json.decodeSecretKey text with
  | .error _ => entry
  | .ok _ => setToken f text entry

/-- The client id in the configuration file of the sync. -/
def setClientId (f : Fault) (text : String) (clientId : Option String) : Option String :=
  if clientId = some text then clientId else put f.file text clientId

/-- The value of a setting on the device; empty if it is not set. -/
def exportOf (d : Device) : Setting → String
  | .linode => (kcGet d.linode).getD ""
  | .gclient => d.googleClientId.getD ""
  | .gsecret => (kcGet d.gsecret).getD ""
  | .hetzner => (kcGet d.hetzner).getD ""
  | .netdata => netdataConfigJson json d.cfg
  | .prefs => prefsSyncExport json d.prefs
  | .watchdog => watchdogConfigJson json d.cfg
  | .ndauth => netdataAuthJson json d.cfg d.auth
  | .aovpn => persistentSyncExport json d.record d.wgKey
  | .sshKey => (kcGet d.sshKey).getD ""
  | .sshPins => sshPinsExport json d.cfg

/-- `local_settings`. -/
def localSettings (d : Device) : List (String × String) :=
  Setting.all.map fun s => (s.name, exportOf json d s)

/-- One arm of the apply loop; `text` is the trimmed value and not empty. -/
def applySetting (f : Fault) (text : String) (d : Device) : Setting → Device
  | .linode => { d with linode := setToken f text d.linode }
  | .gclient => { d with googleClientId := setClientId f text d.googleClientId }
  | .gsecret => { d with gsecret := setToken f text d.gsecret }
  | .hetzner => { d with hetzner := setToken f text d.hetzner }
  | .netdata => { d with cfg := applyNetdataConfigJson json f text d.cfg }
  | .prefs => { d with prefs := applyPrefsSync json f text d.prefs }
  | .watchdog => { d with cfg := applyWatchdogConfigJson json f text d.cfg }
  | .ndauth => { d with auth := applyNetdataAuthJson json f text d.auth }
  | .aovpn => { d with record := (persistentSyncImport json f text d.record d.wgKey).1
                       wgKey := (persistentSyncImport json f text d.record d.wgKey).2 }
  | .sshKey => { d with sshKey := keyPemAdopt json f text d.sshKey }
  | .sshPins => { d with cfg := sshPinsApply json f text d.cfg }

/-- The message that an arm of the loop records. -/
def applyError (f : Fault) (text : String) (d : Device) : Setting → Option String
  | .linode => noteToken "Linode token" d.linode
  | .gsecret => noteToken "Google client secret" d.gsecret
  | .hetzner =>
      (noteToken "Hetzner token" d.hetzner).or
        (if kcGet d.hetzner ≠ some text ∧ kcGet (setToken f text d.hetzner) ≠ some text then
          some "Hetzner token: saved to this device's keychain but couldn't be read back"
        else none)
  | .sshKey =>
      match json.decodeSecretKey text with
      | .error e => some ("SSH terminal key: synced SSH key is unreadable: " ++ e)
      | .ok _ => noteToken "SSH terminal key" d.sshKey
  | _ => none
where
  noteToken (label : String) (entry : Option String) : Option String :=
    match f.key with
    | .failed e => if kcGet entry = some text then none else some (label ++ ": " ++ e)
    | _ => none

/-- A field of the item in the apply loop. -/
def applyField (d : Device) (x : CustomField × Fault) : Device :=
  if Api.trim x.1.value = "" then d
  else match Setting.ofName x.1.name with
    | some s => applySetting json x.2 (Api.trim x.1.value) d s
    | none => d

/-- The apply loop. -/
def applyFields (d : Device) (fields : List (CustomField × Fault)) : Device :=
  fields.foldl (applyField json) d

/-- What the loop leaves in `APPLY_ERRORS`. -/
def applyErrors (d : Device) : List (CustomField × Fault) → List String
  | [] => []
  | x :: rest =>
      let here := if Api.trim x.1.value = "" then none
        else (Setting.ofName x.1.name).bind (applyError json x.2 (Api.trim x.1.value) d)
      here.toList ++ applyErrors (applyField json d x) rest

/-- `sync_device_settings` on the settings item that the vault has, if it has one: the item
and the device afterwards. `fault` says how the writes for a field end, `now` is the clock,
and `vaultFails` that the item cannot be sealed or stored. -/
def syncDeviceSettings (fault : Nat → Fault) (now : Int) (vaultFails : Bool)
    (item : Option Item) (d : Device) : Option Item × Device :=
  let d' := match item with
    | none => d
    | some it => applyFields json d (it.customFields.mapIdx fun i f => (f, fault i))
  if settingsDue item (localSettings json d') && !vaultFails then
    (some (settingsItem item (localSettings json d') now), d')
  else (item, d')

end Formats

end Sentinel.Settings
