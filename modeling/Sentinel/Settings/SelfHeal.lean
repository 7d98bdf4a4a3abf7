import Sentinel.Settings.Local

/-!
# Self-healing of the settings item

After the apply loop `sync_device_settings` compares what the device holds with the item and
rewrites the item when the device has something that the item lacks. The rewrite should only
fill blanks: no field is dropped, and what a field carried it still carries, as the same text
or, for the maps of Netdata and of the host keys, as a map that extends it.

It does so under `Faithful`, which asks of each field that the device takes its value over as
it is: the item has only fields this version knows, each once; a token that differs from the
device's own could be stored; a JSON value is the text this version writes; and the settings
that a device keeps in a conflict (the always-on node, the host keys) do not conflict.
-/

namespace Sentinel.Settings

open Servers Vpn.AlwaysOn Vault Desktop

/-- What `serde_json` promises. -/
structure Formats.Lawful (json : Formats) : Prop where
  netdata : json.netdata.Lawful
  prefs : json.prefs.Lawful
  watchdog : json.watchdog.Lawful
  ndauth : json.ndauth.Lawful
  aovpn : json.aovpn.Lawful
  sshPins : json.sshPins.Lawful

/-! ## The property -/

def Extends {V : Type} (m m' : BTreeMap V) : Prop :=
  ∀ (key : String) (v : V), m[key]? = some v → m'[key]? = some v

/-- The pins of `m` stand in `m'`, and its installation flags too. -/
def PinsExtend (m m' : BTreeMap SshServerCfg) : Prop :=
  ∀ (key : String) (v : SshServerCfg), m[key]? = some v → ∃ v', m'[key]? = some v' ∧
    (v.pinned → v'.hostKeyFingerprint = v.hostKeyFingerprint) ∧ (v.installed → v'.installed)

/-- One text is a map and the other a wider one. -/
def WiderText {V : Type} (c : Codec (BTreeMap V)) (wider : BTreeMap V → BTreeMap V → Prop)
    (text text' : String) : Prop :=
  ∃ m m', c.decode text = some m ∧ c.decode text' = some m' ∧ wider m m'

/-- The text is a map, and the other text is a map that extends it. -/
def Widens (json : Formats) : Setting → String → String → Prop
  | .netdata => WiderText json.netdata Extends
  | .ndauth => WiderText json.ndauth Extends
  | .sshPins => WiderText json.sshPins PinsExtend
  | _ => fun _ _ => False

/-- The value of a field still carries what it carried. -/
def Carries (json : Formats) (name text text' : String) : Prop :=
  text' = text ∨ ∃ s, Setting.ofName name = some s ∧ Widens json s text text'

/-- The item after the sync has lost nothing of the item before it, and differs from it only
if a blank was filled or a map became wider. -/
structure OnlyFillsBlanks (json : Formats) (before after : Item) : Prop where
  kept : ∀ f ∈ before.customFields, ∃ f' ∈ after.customFields, f'.name = f.name ∧
    (Api.trim f.value ≠ "" → Carries json f.name f.value f'.value)
  purposeful : after ≠ before → ∃ f' ∈ after.customFields, Api.trim f'.value ≠ "" ∧
    let old := (fieldValue before f'.name).getD ""
    (Api.trim old = "" ∨
      ∃ s, Setting.ofName f'.name = some s ∧ Widens json s old f'.value ∧ f'.value ≠ old)

/-! ## The condition -/

section Condition

variable (json : Formats)

/-- The text is the one this version writes for `a`. -/
def Canonical {α : Type} (c : Codec α) (text : String) (a : α) : Prop :=
  c.decode text = some a ∧ c.encode a = text

/-- The device keeps no other token. -/
def TokenFaithful (written : Prop) (text : String) (entry : Option String) : Prop :=
  kcGet entry = none ∨ kcGet entry = some text ∨ written

/-- The node on record, if there is one, is that of the text; if there is none, the device
ends with the record and the key of the text. -/
structure NodeFaithful (f : Fault) (text : String) (d : Device) : Prop where
  recorded : d.record.load.isSome →
    exportOf json d .aovpn = "" ∨ exportOf json d .aovpn = text
  seeded : ∀ bundle, seedOf json text d.record = some bundle → f.file = .done →
    Canonical json.aovpn text bundle ∧
      (kcGet (persistentSyncImport json f text d.record d.wgKey).2).getD "" = bundle.clientKey

/-- The pins of the text and of the device do not conflict, and those of the text reach the
device. -/
structure PinsFaithful (f : Fault) (m pins : BTreeMap SshServerCfg) : Prop where
  agree : ∀ (key : String) (v v' : SshServerCfg), m[key]? = some v → pins[key]? = some v' →
    v.pinned → v'.pinned → v'.hostKeyFingerprint = v.hostKeyFingerprint
  -- an entry that says nothing is not saved, and then missing
  telling : pins = ∅ ∨ ∀ (key : String) (v : SshServerCfg), m[key]? = some v →
    v.pinned ∨ v.installed ∨ key ∈ pins
  saved : (∀ text, f.file ≠ .refused text) ∨ pins = ∅ ∨ PinsExtend m pins

/-- The device takes the value of a field over as it is. -/
def FieldFaithful (f : Fault) (text : String) (d : Device) : Setting → Prop
  | .linode => TokenFaithful (f.key = .stored) text d.linode
  | .gsecret => TokenFaithful (f.key = .stored) text d.gsecret
  | .hetzner => TokenFaithful (f.key = .stored) text d.hetzner
  | .sshKey => TokenFaithful (f.key = .stored ∧ json.decodeSecretKey text = .ok ()) text d.sshKey
  | .gclient => Api.trim (d.googleClientId.getD "") = "" ∨ d.googleClientId = some text ∨
      ∀ e, f.file ≠ .refused e
  | .netdata => ∃ m, Canonical json.netdata text m ∧
      ((∀ e, f.file ≠ .refused e) ∨ (loadCfg d.cfg).netdata = ∅ ∨
        Extends m (loadCfg d.cfg).netdata)
  | .watchdog => (∃ w, Canonical json.watchdog text w) ∧ ((∀ e, f.file ≠ .refused e) ∨
      exportOf json d .watchdog = "" ∨ exportOf json d .watchdog = text)
  | .prefs => ∃ m, Canonical json.prefs text m ∧ syncable m = m ∧
      (f.file = .done → ∀ key ∈ syncable (d.prefs.getD ∅), key ∈ m) ∧
      ((∃ e, f.file = .refused e) →
        exportOf json d .prefs = "" ∨ exportOf json d .prefs = text)
  | .aovpn => NodeFaithful json f text d
  | .sshPins => ∃ m, Canonical json.sshPins text m ∧ PinsFaithful f m (loadCfg d.cfg).ssh
  | .ndauth => ∃ m, Canonical json.ndauth text m

/-- No server of the map has a login. -/
def NoLogins (m : BTreeMap NetdataFileCfg) : Prop :=
  ∀ (key : String) (nd : NetdataFileCfg), m[key]? = some nd → nd.hasAuth = false

/-- Every login of `m` is stored, each in its own account, and belongs to a server that the
map `servers` marks as having one. -/
def LoginsReach (f : Fault) (m : BTreeMap String) (servers : BTreeMap NetdataFileCfg) : Prop :=
  ∀ (key login : String), m[key]? = some login → kcGet (some login) = some login ∧
    (∃ nd, servers[key]? = some nd ∧ nd.hasAuth = true) ∧
    ∃ account, authAccount key = some account ∧ f.auth account = .stored ∧
      ∀ (key' login' : String), m[key']? = some login' → authAccount key' = some account →
        login' = login

/-- The field of the item for a setting, with its fault and its value. -/
def HasField (fields : List (CustomField × Fault)) (s : Setting) (f : Fault) (text : String) :
    Prop :=
  ∃ x ∈ fields, x.1.name = s.name ∧ x.1.value = text ∧ x.2 = f ∧ Api.trim text ≠ ""

/-- The condition under which the sync of the settings only fills blanks. -/
structure Faithful (fields : List (CustomField × Fault)) (d : Device) : Prop where
  known : ∀ x ∈ fields, ∃ s : Setting, x.1.name = s.name
  once : (fields.map fun x => x.1.name).Nodup
  trimmed : ∀ {s f text}, HasField fields s f text → Api.trim text = text
  each : ∀ {s f text}, HasField fields s f text → FieldFaithful json f text d s
  /-- either no device and no item knows of a server with a login, or the item names the
  servers of all the logins it has -/
  logins : ∀ {f text m}, HasField fields .ndauth f text → json.ndauth.decode text = some m →
    (NoLogins (loadCfg d.cfg).netdata ∧ ∀ {g config servers}, HasField fields .netdata g config →
      json.netdata.decode config = some servers → NoLogins servers) ∨
    ∃ g config servers, HasField fields .netdata g config ∧
      json.netdata.decode config = some servers ∧ (∀ e, g.file ≠ .refused e) ∧
      LoginsReach f m servers

end Condition

/-! ## What an applier leaves alone -/

section Others

variable (json : Formats) (f : Fault) (text : String) (d : Device)

/-- A write of the configuration changes the part it is for, or loses the whole file. -/
theorem put_part {α β : Type} (part : α → β) (default : α) (o : Written) (value : α)
    (file : Option α) (same : part value = part (file.getD default)) :
    part ((put o value file).getD default) = part (file.getD default) ∨
      part ((put o value file).getD default) = part default := by
  cases o with
  | done => exact .inl same
  | refused => exact .inl rfl
  | broken => exact .inr rfl

/-- What becomes of the configuration file. -/
theorem cfg_cases (s : Setting) : (applySetting json f text d s).cfg = d.cfg ∨
    ∃ cfg, (applySetting json f text d s).cfg = put f.file cfg d.cfg ∧
      (s ≠ .netdata → cfg.netdata = (loadCfg d.cfg).netdata) ∧
      (s ≠ .watchdog → cfg.watchdog = (loadCfg d.cfg).watchdog) ∧
      (s ≠ .sshPins → cfg.ssh = (loadCfg d.cfg).ssh) := by
  cases s with
  | netdata =>
      simp only [applySetting, applyNetdataConfigJson]
      split
      · exact .inl rfl
      · exact .inr ⟨_, rfl, fun h => absurd rfl h, fun _ => rfl, fun _ => rfl⟩
  | watchdog =>
      simp only [applySetting, applyWatchdogConfigJson]
      split
      · exact .inl rfl
      · exact .inr ⟨_, rfl, fun _ => rfl, fun h => absurd rfl h, fun _ => rfl⟩
  | sshPins =>
      simp only [applySetting, sshPinsApply]
      split
      · exact .inl rfl
      · rename_i changed eq
        obtain ⟨m, -, applied⟩ := Option.bind_eq_some_iff.mp eq
        unfold ServersFileCfg.pinsApply at applied
        split at applied
        · cases applied
          exact .inr ⟨_, rfl, fun _ => rfl, fun _ => rfl, fun h => absurd rfl h⟩
        · cases applied
  | _ => exact .inl rfl

theorem netdata_other {s : Setting} (h : s ≠ .netdata) :
    (loadCfg (applySetting json f text d s).cfg).netdata = (loadCfg d.cfg).netdata ∨
      (loadCfg (applySetting json f text d s).cfg).netdata = ∅ := by
  rcases cfg_cases json f text d s with same | ⟨cfg, eq, netdata, -⟩
  · exact .inl (by rw [same])
  · rw [eq]
    exact put_part ServersFileCfg.netdata {} f.file cfg d.cfg (netdata h)

theorem watchdog_other {s : Setting} (h : s ≠ .watchdog) :
    (loadCfg (applySetting json f text d s).cfg).watchdog = (loadCfg d.cfg).watchdog ∨
      (loadCfg (applySetting json f text d s).cfg).watchdog = {} := by
  rcases cfg_cases json f text d s with
    same | ⟨cfg, eq, -, watchdog, -⟩
  · exact .inl (by rw [same])
  · rw [eq]
    exact put_part ServersFileCfg.watchdog {} f.file cfg d.cfg (watchdog h)

theorem ssh_other {s : Setting} (h : s ≠ .sshPins) :
    (loadCfg (applySetting json f text d s).cfg).ssh = (loadCfg d.cfg).ssh ∨
      (loadCfg (applySetting json f text d s).cfg).ssh = ∅ := by
  rcases cfg_cases json f text d s with
    same | ⟨cfg, eq, -, -, ssh⟩
  · exact .inl (by rw [same])
  · rw [eq]
    exact put_part ServersFileCfg.ssh {} f.file cfg d.cfg (ssh h)

/-- The parts of the device that only one setting touches. -/
theorem rest_other (s : Setting) : (s ≠ .linode → (applySetting json f text d s).linode = d.linode) ∧
    (s ≠ .gclient → (applySetting json f text d s).googleClientId = d.googleClientId) ∧
    (s ≠ .gsecret → (applySetting json f text d s).gsecret = d.gsecret) ∧
    (s ≠ .hetzner → (applySetting json f text d s).hetzner = d.hetzner) ∧
    (s ≠ .prefs → (applySetting json f text d s).prefs = d.prefs) ∧
    (s ≠ .ndauth → (applySetting json f text d s).auth = d.auth) ∧
    (s ≠ .aovpn → (applySetting json f text d s).record = d.record ∧
      (applySetting json f text d s).wgKey = d.wgKey) ∧
    (s ≠ .sshKey → (applySetting json f text d s).sshKey = d.sshKey) := by
  cases s <;> simp [applySetting]

end Others

/-! ## A faithful field -/

/-- What the device shares of a setting carries the text, or is blank. -/
def Safe (json : Formats) (s : Setting) (text : String) (d : Device) : Prop :=
  Api.trim (exportOf json d s) = "" ∨ exportOf json d s = text ∨
    Widens json s text (exportOf json d s)

theorem Safe.intro {json : Formats} {s : Setting} {text : String} {d : Device}
    (h : exportOf json d s = "" ∨ exportOf json d s = text ∨
      Widens json s text (exportOf json d s)) : Safe json s text d := by
  refine h.imp_left fun empty => ?_
  rw [empty]
  decide

section Fields

/-- The other appliers keep what the device shares of a setting, or lose it. -/
theorem exportOf_other (json : Formats) (f : Fault) (text : String) (d : Device) {s s' : Setting}
    (h : s' ≠ s) (single : s ≠ .ndauth) :
    exportOf json (applySetting json f text d s') s = exportOf json d s ∨
      exportOf json (applySetting json f text d s') s = "" := by
  obtain ⟨linode, gclient, gsecret, hetzner, prefs, -, node, sshKey⟩ :=
    rest_other json f text d s'
  cases s with
  | linode => exact .inl (by simp only [exportOf, linode h])
  | gclient => exact .inl (by simp only [exportOf, gclient h])
  | gsecret => exact .inl (by simp only [exportOf, gsecret h])
  | hetzner => exact .inl (by simp only [exportOf, hetzner h])
  | prefs => exact .inl (by simp only [exportOf, prefs h])
  | sshKey => exact .inl (by simp only [exportOf, sshKey h])
  | aovpn => exact .inl (by simp only [exportOf, (node h).1, (node h).2])
  | ndauth => exact absurd rfl single
  | netdata =>
      rcases netdata_other json f text d h with same | lost
      · exact .inl (by simp only [exportOf, netdataConfigJson, same])
      · exact .inr (by simp only [exportOf, netdataConfigJson, lost, textUnless, if_true])
  | watchdog =>
      rcases watchdog_other json f text d h with same | lost
      · exact .inl (by simp only [exportOf, watchdogConfigJson, same])
      · exact .inr (by simp only [exportOf, watchdogConfigJson, lost, textUnless, if_true])
  | sshPins =>
      rcases ssh_other json f text d h with same | lost
      · exact .inl (by simp only [exportOf, sshPinsExport, same])
      · exact .inr (by simp only [exportOf, sshPinsExport, lost, textUnless, if_true])

variable {json : Formats} {f f' : Fault} {text text' : String} {d : Device} {s s' : Setting}

theorem Safe.other (safe : Safe json s text d) (h : s' ≠ s) (single : s ≠ .ndauth) :
    Safe json s text (applySetting json f' text' d s') := by
  rcases exportOf_other json f' text' d h single with same | lost
  · rw [Safe, same]
    exact safe
  · exact .intro (.inl lost)

theorem PinsFaithful.empty (f : Fault) (m : BTreeMap SshServerCfg) : PinsFaithful f m ∅ where
  agree key v v' _ there := by simp at there
  telling := .inl rfl
  saved := .inr (.inl rfl)

/-- The other appliers do not make a field unfaithful. -/
theorem FieldFaithful.other (h : FieldFaithful json f text d s) (apart : s' ≠ s) :
    FieldFaithful json f text (applySetting json f' text' d s') s := by
  obtain ⟨linode, gclient, gsecret, hetzner, prefs, -, node, sshKey⟩ :=
    rest_other json f' text' d s'
  cases s with
  | linode => simpa only [FieldFaithful, linode apart] using h
  | gclient => simpa only [FieldFaithful, gclient apart] using h
  | gsecret => simpa only [FieldFaithful, gsecret apart] using h
  | hetzner => simpa only [FieldFaithful, hetzner apart] using h
  | sshKey => simpa only [FieldFaithful, sshKey apart] using h
  | prefs => simpa only [FieldFaithful, exportOf, prefs apart] using h
  | ndauth => exact h
  | aovpn =>
      obtain ⟨recorded, seeded⟩ := h
      refine ⟨?_, ?_⟩
      · simpa only [exportOf, (node apart).1, (node apart).2] using recorded
      · simpa only [(node apart).1, (node apart).2] using seeded
  | netdata =>
      obtain ⟨m, canonical, reach⟩ := h
      refine ⟨m, canonical, ?_⟩
      rcases netdata_other json f' text' d apart with same | lost
      · rwa [same]
      · exact .inr (.inl lost)
  | watchdog =>
      obtain ⟨canonical, reach⟩ := h
      refine ⟨canonical, reach.imp_right fun held => ?_⟩
      rcases exportOf_other json f' text' d apart (by decide) with same | lost
      · rwa [same]
      · exact .inl lost
  | sshPins =>
      obtain ⟨m, canonical, reach⟩ := h
      refine ⟨m, canonical, ?_⟩
      rcases ssh_other json f' text' d apart with same | lost
      · rwa [same]
      · rw [lost]
        exact .empty f m

section Own

theorem kcGet_some (trimmed : Api.trim text = text) (full : text ≠ "") :
    kcGet (some text) = some text := by
  simp [kcGet, trimmed, full]

/-- A token arrives, or the device has none. -/
theorem token_own {written : Prop} {entry entry' : Option String} (trimmed : Api.trim text = text)
    (full : text ≠ "") (h : TokenFaithful written text entry)
    (either : entry' = entry ∨ entry' = some text) (stored : written → entry' = some text) :
    (kcGet entry').getD "" = "" ∨ (kcGet entry').getD "" = text := by
  have arrived : entry' = some text → (kcGet entry').getD "" = text := by
    rintro rfl
    rw [kcGet_some trimmed full]
    rfl
  rcases either with rfl | there
  · rcases h with unset | same | wrote
    · exact .inl (by rw [unset]; rfl)
    · exact .inr (by rw [same]; rfl)
    · exact .inr (arrived (stored wrote))
  · exact .inr (arrived there)

theorem setToken_cases (f : Fault) (text : String) (entry : Option String) :
    setToken f text entry = entry ∨ setToken f text entry = some text := by
  unfold setToken
  split
  · exact .inl rfl
  · cases f.key with
    | stored => exact .inr rfl
    | failed => exact .inl rfl
    | dropped => exact .inl rfl

theorem safe_of_token {entry : Option String} (trimmed : Api.trim text = text) (full : text ≠ "")
    (h : TokenFaithful (f.key = .stored) text entry) :
    (kcGet (setToken f text entry)).getD "" = "" ∨ (kcGet (setToken f text entry)).getD "" = text := by
  by_cases same : kcGet entry = some text
  · refine .inr ?_
    rw [setToken, if_pos same, same]
    rfl
  · refine token_own trimmed full h (setToken_cases f text entry) fun stored => ?_
    rw [setToken, if_neg same, stored]
    rfl

theorem sshKey_own (trimmed : Api.trim text = text) (full : text ≠ "")
    (h : FieldFaithful json f text d .sshKey) :
    (kcGet (keyPemAdopt json f text d.sshKey)).getD "" = "" ∨
      (kcGet (keyPemAdopt json f text d.sshKey)).getD "" = text := by
  unfold keyPemAdopt
  cases valid : json.decodeSecretKey text with
  | error e =>
      refine token_own trimmed full h (.inl rfl) fun written => ?_
      rw [valid] at written
      cases written.2
  | ok =>
      refine safe_of_token trimmed full ?_
      exact h.imp_right fun rest => rest.imp_right And.left

theorem clientId_own (h : FieldFaithful json f text d .gclient) :
    Api.trim ((setClientId f text d.googleClientId).getD "") = "" ∨
      (setClientId f text d.googleClientId).getD "" = text := by
  unfold setClientId
  split
  · rename_i same
    exact .inr (by rw [same]; rfl)
  · rename_i differs
    cases wrote : f.file with
    | done => exact .inr rfl
    | broken e =>
        have blank : Api.trim "" = "" := by decide
        exact .inl blank
    | refused e =>
        rcases h with blank | same | fails
        · exact .inl blank
        · exact absurd same differs
        · exact absurd wrote (fails e)

theorem textUnless_cases {α : Type} (c : Codec α) (nothing : Prop) [Decidable nothing] (a : α) :
    textUnless c nothing a = "" ∨ textUnless c nothing a = c.encode a := by
  unfold textUnless
  split
  · exact .inl rfl
  · exact .inr rfl

/-- A map that extends the one of the text is safe to share. -/
theorem safe_of_map {V : Type} {c : Codec (BTreeMap V)} (lawful : c.Lawful)
    {wider : BTreeMap V → BTreeMap V → Prop} {m m' : BTreeMap V} [Decidable (m' = ∅)]
    (decoded : c.decode text = some m) (reach : m' = ∅ ∨ wider m m') :
    textUnless c (m' = ∅) m' = "" ∨ WiderText c wider text (textUnless c (m' = ∅) m') := by
  unfold textUnless
  split
  · exact .inl rfl
  · rename_i some_
    exact .inr ⟨m, m', decoded, lawful.round m', reach.resolve_left some_⟩

theorem netdata_own (lawful : json.Lawful) (h : FieldFaithful json f text d .netdata) :
    Safe json .netdata text (applySetting json f text d .netdata) := by
  obtain ⟨m, ⟨decoded, -⟩, reach⟩ := h
  refine .intro ((safe_of_map lawful.netdata decoded ?_).imp_right .inr)
  simp only [applySetting, applyNetdataConfigJson, decoded]
  cases wrote : f.file with
  | done =>
      refine .inr fun key v there => ?_
      simp [loadCfg, put, Std.ExtTreeMap.getElem?_union, there]
  | refused e => exact reach.resolve_left fun h => h e wrote
  | broken e => exact .inl rfl

theorem watchdog_own (h : FieldFaithful json f text d .watchdog) :
    Safe json .watchdog text (applySetting json f text d .watchdog) := by
  obtain ⟨⟨w, decoded, written⟩, reach⟩ := h
  refine .intro ?_
  simp only [exportOf, applySetting, applyWatchdogConfigJson, decoded]
  cases wrote : f.file with
  | done =>
      refine (textUnless_cases json.watchdog _ w).imp_right fun eq => .inl ?_
      exact eq.trans written
  | refused e => exact (reach.resolve_left fun h => h e wrote).imp_right .inl
  | broken e => exact .inl (if_pos rfl)

@[simp] theorem getElem?_syncable (prefs : BTreeMap String) (key : String) :
    (syncable prefs)[key]? = if key ∈ deviceLocalPrefKeys then none else prefs[key]? := by
  rw [syncable, Std.ExtTreeMap.getElem?_filter']
  by_cases own : key ∈ deviceLocalPrefKeys
  · simp [own]
  · cases prefs[key]? <;> simp [own]

/-- What a device shares of its preferences once it has taken over those of the item. -/
theorem getElem?_syncable_mergedPrefs (prefs : Option (BTreeMap String)) (m : BTreeMap String)
    (key : String) : (syncable (mergedPrefs prefs m))[key]? =
      (syncable m)[key]?.or (syncable (prefs.getD ∅))[key]? := by
  by_cases own : key ∈ deviceLocalPrefKeys
  · simp [own]
  · have other : "telemetry" ≠ key := by
      rintro rfl
      exact own (by decide)
    simp [own, other, mergedPrefs, Std.ExtTreeMap.getElem?_insert, Std.ExtTreeMap.getElem?_union]

theorem prefs_own (h : FieldFaithful json f text d .prefs) :
    Safe json .prefs text (applySetting json f text d .prefs) := by
  obtain ⟨m, ⟨decoded, written⟩, travels, inside, held⟩ := h
  refine .intro ?_
  simp only [exportOf, applySetting, applyPrefsSync, decoded]
  cases wrote : f.file with
  | done =>
      have same : syncable (mergedPrefs d.prefs m) = m := by
        refine Std.ExtTreeMap.ext_getElem? fun key => ?_
        rw [getElem?_syncable_mergedPrefs, travels]
        cases there : m[key]? with
        | some v => rfl
        | none =>
            have absent : key ∉ syncable (d.prefs.getD ∅) := fun mem => by
              have := inside wrote key mem
              rw [← Std.ExtTreeMap.isSome_getElem?_iff_mem, there] at this
              cases this
            exact Std.ExtTreeMap.getElem?_eq_none absent
      simp only [put, prefsSyncExport, Option.getD_some, same]
      refine (textUnless_cases json.prefs _ m).imp_right fun eq => .inl ?_
      exact eq.trans written
  | refused e => exact (held ⟨e, wrote⟩).imp_right .inl
  | broken e =>
      have nothing : syncable ∅ = ∅ := Std.ExtTreeMap.ext_getElem? fun key => by simp
      exact .inl (by simp only [put, prefsSyncExport, Option.getD_none, nothing, textUnless, if_true])

theorem node_own (h : NodeFaithful json f text d) :
    Safe json .aovpn text (applySetting json f text d .aovpn) := by
  obtain ⟨recorded, seeded⟩ := h
  refine .intro ?_
  cases seed : seedOf json text d.record with
  | none =>
      simp only [exportOf, applySetting, persistentSyncImport, seed]
      cases loaded : d.record.load with
      | none => exact .inl (by rw [persistentSyncExport, loaded])
      | some record =>
          have known := recorded (by rw [loaded]; rfl)
          exact known.imp_right .inl
  | some bundle =>
      obtain ⟨unread, -, named⟩ := (seedOf_eq_some json).mp seed
      have record : (persistentSyncImport json f text d.record d.wgKey).1 =
          putRecord f.file bundle.record d.record := by
        simp only [persistentSyncImport, seed]
      simp only [exportOf, applySetting, record]
      cases wrote : f.file with
      | done =>
          obtain ⟨⟨-, written⟩, key⟩ := seeded bundle seed wrote
          refine .inr (.inl ?_)
          simp only [putRecord, persistentSyncExport, RecordFile.load, if_neg named, key]
          exact written
      | refused e => exact .inl (by simp only [putRecord, persistentSyncExport, unread])
      | broken e => exact .inl (by simp only [putRecord, persistentSyncExport, RecordFile.load])

theorem not_pinned_default : ¬ SshServerCfg.pinned {} := by decide

/-- What the device has after it has adopted the pins of the item. -/
theorem pinsExtend_mergePins {m pins : BTreeMap SshServerCfg} (h : PinsFaithful f m pins) :
    PinsExtend m (mergePins pins m) := by
  intro key v there
  refine ⟨adoptPin v (pins[key]?.getD {}), by simp [there], fun pinned => ?_, fun on => ?_⟩
  · simp only [adoptPin]
    split
    · rfl
    · rename_i own
      cases mine : pins[key]? with
      | none =>
          rw [mine] at own
          exact absurd ⟨not_pinned_default, pinned⟩ own
      | some v' =>
          rw [mine] at own
          exact h.agree key v v' there mine pinned (not_not.mp fun bare => own ⟨bare, pinned⟩)
  · simp [adoptPin, on]

/-- When nothing is saved, the device had everything, or nothing at all. -/
theorem pinsExtend_of_unchanged {m pins : BTreeMap SshServerCfg} (h : PinsFaithful f m pins)
    (unchanged : pinsChanged pins m = false) : pins = ∅ ∨ PinsExtend m pins := by
  refine h.telling.imp_right fun telling key v there => ?_
  obtain ⟨keeps, on⟩ := adoptPin_eq_iff.mp (pinsChanged_eq_false_iff.mp unchanged key v there)
  have present : key ∈ pins := by
    by_contra absent
    have blank : pins[key]?.getD {} = {} := by rw [Std.ExtTreeMap.getElem?_eq_none absent]; rfl
    rw [blank] at keeps on
    rcases telling key v there with pinned | installed | mem
    · exact keeps ⟨not_pinned_default, pinned⟩
    · exact absurd (on installed) (by decide)
    · exact absent mem
  obtain ⟨v', mine⟩ := Option.isSome_iff_exists.mp
    (Std.ExtTreeMap.isSome_getElem?_iff_mem.mpr present)
  rw [mine] at keeps on
  refine ⟨v', mine, fun pinned => ?_, on⟩
  exact h.agree key v v' there mine pinned (not_not.mp fun bare => keeps ⟨bare, pinned⟩)

theorem pins_own (lawful : json.Lawful) (h : FieldFaithful json f text d .sshPins) :
    Safe json .sshPins text (applySetting json f text d .sshPins) := by
  obtain ⟨m, ⟨decoded, -⟩, faithful⟩ := h
  refine .intro ((safe_of_map lawful.sshPins decoded ?_).imp_right .inr)
  simp only [applySetting, sshPinsApply, decoded, Option.bind_some, ServersFileCfg.pinsApply]
  cases changed : pinsChanged (loadCfg d.cfg).ssh m with
  | false => exact pinsExtend_of_unchanged faithful changed
  | true =>
      simp only [if_true]
      cases wrote : f.file with
      | done => exact .inr (pinsExtend_mergePins faithful)
      | refused e => exact faithful.saved.resolve_left fun h => h e wrote
      | broken e => exact .inl rfl

/-- A faithful field arrives, or the device has nothing to share there. -/
theorem FieldFaithful.own (lawful : json.Lawful) (trimmed : Api.trim text = text)
    (full : text ≠ "") (single : s ≠ .ndauth) (h : FieldFaithful json f text d s) :
    Safe json s text (applySetting json f text d s) := by
  cases s with
  | linode => exact .intro ((safe_of_token trimmed full h).imp_right .inl)
  | gsecret => exact .intro ((safe_of_token trimmed full h).imp_right .inl)
  | hetzner => exact .intro ((safe_of_token trimmed full h).imp_right .inl)
  | sshKey => exact .intro ((sshKey_own trimmed full h).imp_right .inl)
  | gclient => exact (clientId_own h).imp_right .inl
  | netdata => exact netdata_own lawful h
  | prefs => exact prefs_own h
  | watchdog => exact watchdog_own h
  | ndauth => exact absurd rfl single
  | aovpn => exact node_own h
  | sshPins => exact pins_own lawful h

end Own

end Fields

/-! ## The loop -/

section Loop

variable {json : Formats} {fields : List (CustomField × Fault)} {s : Setting} {f : Fault}
variable {text : String} {d : Device}

theorem Setting.name_of_ofName {name : String} (h : Setting.ofName name = some s) :
    s.name = name := by
  simpa using List.find?_some h

/-- Fields of other names keep what the other settings keep. -/
theorem applyFields_other {P : Device → Prop} (others : ∀ x ∈ fields, x.1.name ≠ s.name)
    (kept : ∀ (f' : Fault) (text' : String) (d : Device) {s' : Setting}, s' ≠ s → P d →
      P (applySetting json f' text' d s'))
    (start : P d) : P (applyFields json d fields) := by
  induction fields generalizing d with
  | nil => exact start
  | cons x rest ih =>
      rw [applyFields, List.foldl_cons]
      refine ih (fun y mem => others y (List.mem_cons_of_mem _ mem)) ?_
      unfold applyField
      split
      · exact start
      · split
        · rename_i s' named
          refine kept _ _ _ ?_ start
          rintro rfl
          exact others x List.mem_cons_self (Setting.name_of_ofName named).symm
        · exact start

/-- The one field of a setting makes `Post` of `Pre`, and the others keep both. -/
theorem applyFields_own (Pre Post : Device → Prop) (once : (fields.map fun x => x.1.name).Nodup)
    (has : HasField fields s f text)
    (before : ∀ (f' : Fault) (text' : String) (d : Device) {s' : Setting}, s' ≠ s → Pre d →
      Pre (applySetting json f' text' d s'))
    (own : ∀ d, Pre d → Post (applySetting json f (Api.trim text) d s))
    (after : ∀ (f' : Fault) (text' : String) (d : Device) {s' : Setting}, s' ≠ s → Post d →
      Post (applySetting json f' text' d s'))
    (start : Pre d) : Post (applyFields json d fields) := by
  obtain ⟨x, mem, name, rfl, rfl, full⟩ := has
  obtain ⟨front, back, rfl⟩ := List.append_of_mem mem
  rw [List.map_append, List.map_cons, List.nodup_append] at once
  obtain ⟨-, behind, apart⟩ := once
  have front_other : ∀ y ∈ front, y.1.name ≠ s.name := by
    intro y mem'
    rw [← name]
    exact apart _ (List.mem_map_of_mem mem') _ List.mem_cons_self
  have back_other : ∀ y ∈ back, y.1.name ≠ s.name := by
    intro y mem' same
    refine (List.nodup_cons.mp behind).1 ?_
    rw [name, ← same]
    exact List.mem_map_of_mem mem'
  have here : Pre (applyFields json d front) := applyFields_other front_other before start
  rw [applyFields, List.foldl_append, List.foldl_cons]
  refine applyFields_other back_other after ?_
  have arm : applyField json (applyFields json d front) x =
      applySetting json x.2 (Api.trim x.1.value) (applyFields json d front) s := by
    simp only [applyField, if_neg full, name, Setting.ofName_name]
  exact arm ▸ own _ here

/-- After the loop, what the device shares of a faithful field is safe. -/
theorem safe_applyFields (lawful : json.Lawful) (faithful : Faithful json fields d)
    (has : HasField fields s f text) (single : s ≠ .ndauth) :
    Safe json s text (applyFields json d fields) := by
  have trimmed := faithful.trimmed has
  have full : text ≠ "" := by
    obtain ⟨-, -, -, -, -, full⟩ := has
    rintro rfl
    exact full (by decide)
  refine applyFields_own (fun d => FieldFaithful json f text d s) (Safe json s text) faithful.once
    has (fun _ _ _ _ apart h => h.other apart) ?_ (fun _ _ _ _ apart h => h.other apart single)
    (faithful.each has)
  intro d h
  rw [trimmed]
  exact h.own lawful trimmed full single

/-- The logins of the item are in the keychain after the loop over them. -/
theorem storeAuth_foldl {o : String → KeyWrite} {l : List (String × String)}
    {auth : String → Option String} {account login : String}
    (agree : ∀ x ∈ l, authAccount x.1 = some account → x.2 = login)
    (stored : o account = .stored) (solid : kcGet (some login) = some login)
    (there : (∃ x ∈ l, authAccount x.1 = some account) ∨ auth account = some login) :
    l.foldl (storeAuth o) auth account = some login := by
  induction l generalizing auth with
  | nil => exact there.resolve_left (by rintro ⟨x, mem, -⟩; cases mem)
  | cons x rest ih =>
      rw [List.foldl_cons]
      refine ih (fun y mem => agree y (List.mem_cons_of_mem _ mem)) ?_
      by_cases here : authAccount x.1 = some account
      · refine .inr ?_
        have same := agree x List.mem_cons_self here
        have trimmed : Api.trim login = login ∧ login ≠ "" := by
          simp only [kcGet, Option.map_some, Option.filter_eq_some_iff, Option.some.injEq,
            decide_eq_true_eq] at solid
          exact solid
        simp only [storeAuth, same, trimmed.1, if_neg trimmed.2, here, stored, KeyWrite.put,
          Function.update_self]
      · have same : storeAuth o auth x account = auth account := by
          unfold storeAuth
          split
          · rfl
          · cases eq : authAccount x.1 with
            | none => rfl
            | some other =>
                refine Function.update_of_ne ?_ _ _
                rintro rfl
                exact here eq
        rw [same]
        refine there.imp_left ?_
        rintro ⟨y, mem, hit⟩
        rcases List.mem_cons.mp mem with rfl | mem
        · exact absurd hit here
        · exact ⟨y, mem, hit⟩

theorem getElem?_authMap (servers : BTreeMap NetdataFileCfg) (auth : String → Option String)
    (key : String) : (authMap servers auth)[key]? = servers[key]?.bind fun nd =>
      if nd.hasAuth then (authAccount key).bind fun account => kcGet (auth account) else none := by
  rw [authMap, Std.ExtTreeMap.getElem?_filterMap']

theorem authMap_eq_empty {servers : BTreeMap NetdataFileCfg} (auth : String → Option String)
    (none_ : NoLogins servers) : authMap servers auth = ∅ := by
  refine Std.ExtTreeMap.ext_getElem? fun key => ?_
  rw [getElem?_authMap, Std.ExtTreeMap.getElem?_empty]
  cases there : servers[key]? with
  | none => rfl
  | some nd => simp [none_ key nd there]

/-- Without a login anywhere the device has none after the loop. -/
theorem noLogins_applyFields (faithful : Faithful json fields d)
    (mine : NoLogins (loadCfg d.cfg).netdata)
    (theirs : ∀ {g config servers}, HasField fields .netdata g config →
      json.netdata.decode config = some servers → NoLogins servers) :
    NoLogins (loadCfg (applyFields json d fields).cfg).netdata := by
  have step : ∀ x ∈ fields, ∀ d : Device, NoLogins (loadCfg d.cfg).netdata →
      NoLogins (loadCfg (applyField json d x).cfg).netdata := by
    intro x mem d before
    unfold applyField
    split
    · exact before
    · rename_i full
      split
      · rename_i s named
        by_cases netdata : s = .netdata
        · obtain rfl := netdata
          have has : HasField fields .netdata x.2 x.1.value :=
            ⟨x, mem, (Setting.name_of_ofName named).symm, rfl, rfl, full⟩
          rw [faithful.trimmed has]
          simp only [applySetting, applyNetdataConfigJson]
          cases decoded : json.netdata.decode x.1.value with
          | none => exact before
          | some servers =>
              cases x.2.file with
              | refused => exact before
              | broken =>
                  intro key nd there
                  simp [put, loadCfg] at there
              | done =>
                  intro key nd there
                  simp only [put, loadCfg, Option.getD_some, Std.ExtTreeMap.getElem?_union,
                    Option.or_eq_some_iff] at there
                  rcases there with there | ⟨-, there⟩
                  · exact theirs has decoded key nd there
                  · exact before key nd there
        · rcases netdata_other json x.2 (Api.trim x.1.value) d netdata with same | lost
          · rwa [same]
          · rw [lost]
            intro key nd there
            simp at there
      · exact before
  unfold applyFields
  clear theirs faithful
  induction fields generalizing d with
  | nil => exact mine
  | cons x rest ih =>
      rw [List.foldl_cons]
      exact ih (step x List.mem_cons_self d mine) fun y mem => step y (List.mem_cons_of_mem _ mem)

/-- The servers that the item names are known after the loop, or none is. -/
theorem servers_applyFields (once : (fields.map fun x => x.1.name).Nodup)
    {servers : BTreeMap NetdataFileCfg} (has : HasField fields .netdata f text)
    (decoded : json.netdata.decode (Api.trim text) = some servers)
    (written : ∀ e, f.file ≠ .refused e) :
    (loadCfg (applyFields json d fields).cfg).netdata = ∅ ∨
      Extends servers (loadCfg (applyFields json d fields).cfg).netdata := by
  refine applyFields_own (fun _ => True) (fun d => (loadCfg d.cfg).netdata = ∅ ∨
    Extends servers (loadCfg d.cfg).netdata) once has (fun _ _ _ _ _ _ => trivial) ?_ ?_ trivial
  · intro d _
    simp only [applySetting, applyNetdataConfigJson, decoded]
    cases wrote : f.file with
    | refused e => exact absurd wrote (written e)
    | broken e => exact .inl rfl
    | done =>
        refine .inr fun key nd there => ?_
        simp [put, loadCfg, Std.ExtTreeMap.getElem?_union, there]
  · intro f' text' d s' apart known
    rcases netdata_other json f' text' d apart with same | lost
    · rwa [same]
    · exact .inl lost

theorem logins_applyFields (once : (fields.map fun x => x.1.name).Nodup)
    {m : BTreeMap String} {servers : BTreeMap NetdataFileCfg} (has : HasField fields .ndauth f text)
    (decoded : json.ndauth.decode (Api.trim text) = some m) (reach : LoginsReach f m servers) :
    ∀ (key login : String), m[key]? = some login → ∃ account, authAccount key = some account ∧
      (applyFields json d fields).auth account = some login := by
  refine applyFields_own (fun _ => True) (fun d => ∀ (key login : String), m[key]? = some login →
    ∃ account, authAccount key = some account ∧ d.auth account = some login) once has
    (fun _ _ _ _ _ _ => trivial) ?_ ?_ trivial
  · intro d _ key login there
    obtain ⟨solid, -, account, named, stored, alone⟩ := reach key login there
    refine ⟨account, named, ?_⟩
    simp only [applySetting, applyNetdataAuthJson, decoded]
    refine storeAuth_foldl (fun x mem hit => ?_) stored solid (.inl ⟨(key, login), ?_, named⟩)
    · exact alone x.1 x.2 (Std.ExtTreeMap.mem_toList_iff_getElem?_eq_some.mp mem) hit
    · exact Std.ExtTreeMap.mem_toList_iff_getElem?_eq_some.mpr there
  · intro f' text' d s' apart known
    obtain ⟨-, -, -, -, -, auth, -⟩ := rest_other json f' text' d s'
    rwa [auth apart]

/-- What the device shares of the Netdata logins is safe. -/
theorem safe_logins (lawful : json.Lawful) (faithful : Faithful json fields d)
    (has : HasField fields .ndauth f text) :
    Safe json .ndauth text (applyFields json d fields) := by
  obtain ⟨m, decoded, -⟩ := faithful.each has
  rcases faithful.logins has decoded with ⟨mine, theirs⟩ | ⟨g, config, servers, names, known, written, reach⟩
  · refine .intro (.inl ?_)
    have nothing := authMap_eq_empty (applyFields json d fields).auth
      (noLogins_applyFields faithful mine theirs)
    simp only [exportOf, netdataAuthJson, nothing, textUnless, if_true]
  · refine .intro ((safe_of_map lawful.ndauth decoded ?_).imp_right .inr)
    have stored := logins_applyFields (d := d) faithful.once has
      ((faithful.trimmed has).symm ▸ decoded) reach
    rcases servers_applyFields (d := d) faithful.once names
      ((faithful.trimmed names).symm ▸ known) written with none_ | extends_
    · refine .inl (authMap_eq_empty _ fun key nd there => ?_)
      rw [none_] at there
      simp at there
    · refine .inr fun key login there => ?_
      obtain ⟨solid, ⟨nd, marked, has_⟩, -⟩ := reach key login there
      obtain ⟨account, named, kept⟩ := stored key login there
      simp [getElem?_authMap, extends_ key nd marked, has_, named, kept, solid]

end Loop

/-! ## The sync -/

section Sync

variable {json : Formats} {fault : Nat → Fault} {it : Item} {d : Device} {s : Setting}

/-- The fields of an item, each with its fault. -/
abbrev faulted (fault : Nat → Fault) (it : Item) : List (CustomField × Fault) :=
  it.customFields.mapIdx fun i f => (f, fault i)

theorem safe_of_faithful (lawful : json.Lawful) {fields : List (CustomField × Fault)}
    (faithful : Faithful json fields d) {f : Fault} {text : String}
    (has : HasField fields s f text) : Safe json s text (applyFields json d fields) := by
  by_cases logins : s = .ndauth
  · obtain rfl := logins
    exact safe_logins lawful faithful has
  · exact safe_applyFields lawful faithful has logins

theorem mem_faulted (fault : Nat → Fault) {f : CustomField} (mem : f ∈ it.customFields) :
    ∃ g, (f, g) ∈ faulted fault it := by
  obtain ⟨i, bound, rfl⟩ := List.mem_iff_getElem.mp mem
  exact ⟨fault i, List.mem_mapIdx.mpr ⟨i, bound, rfl⟩⟩

theorem hasField_of_fieldValue (fault : Nat → Fault) {text : String}
    (found : fieldValue it s.name = some text) (full : Api.trim text ≠ "") :
    ∃ g, HasField (faulted fault it) s g text := by
  obtain ⟨f, hit, rfl⟩ := Option.map_eq_some_iff.mp found
  obtain ⟨g, mem⟩ := mem_faulted fault (List.mem_of_find?_eq_some hit)
  have named : f.name = s.name := by simpa using List.find?_some hit
  exact ⟨g, (f, g), mem, named, rfl, rfl, full⟩

/-- A field whose name no other field has is the one that is found. -/
theorem fieldValue_eq (once : ((faulted fault it).map fun x => x.1.name).Nodup) {f : CustomField}
    (mem : f ∈ it.customFields) : fieldValue it f.name = some f.value := by
  have names : (faulted fault it).map (fun x => x.1.name) = it.customFields.map CustomField.name := by
    refine List.ext_getElem (by simp) fun i _ _ => by simp
  rw [names] at once
  cases hit : it.customFields.find? fun g => decide (g.name = f.name) with
  | none => simpa using List.find?_eq_none.mp hit f mem
  | some g =>
      have named : g.name = f.name := by simpa using List.find?_some hit
      obtain rfl : g = f := List.inj_on_of_nodup_map once (List.mem_of_find?_eq_some hit) mem named
      rw [fieldValue, hit]
      rfl

/-- The field of the rewritten item for a setting. -/
def healed (json : Formats) (it : Item) (d : Device) (s : Setting) : CustomField where
  name := s.name
  value := if Api.trim (exportOf json d s) = "" then (fieldValue it s.name).getD ""
    else exportOf json d s
  isSecret := true

theorem customFields_settingsItem (now : Int) :
    (settingsItem (some it) (localSettings json d) now).customFields =
      Setting.all.map (healed json it d) := by
  simp [settingsItem, localSettings, healed, Function.comp_def]

theorem OnlyFillsBlanks.refl (json : Formats) (it : Item) : OnlyFillsBlanks json it it where
  kept f mem := ⟨f, mem, rfl, fun _ => .inl rfl⟩
  purposeful differs := absurd rfl differs

theorem mem_healed {f : CustomField} (now : Int)
    (mem : f ∈ (settingsItem (some it) (localSettings json d) now).customFields) :
    ∃ s, f = healed json it d s := by
  rw [customFields_settingsItem] at mem
  obtain ⟨s, -, rfl⟩ := List.mem_map.mp mem
  exact ⟨s, rfl⟩

theorem healed_mem (now : Int) (s : Setting) :
    healed json it d s ∈ (settingsItem (some it) (localSettings json d) now).customFields := by
  rw [customFields_settingsItem]
  exact List.mem_map_of_mem s.mem_all

/-- Something that the device shares differs from the item. -/
theorem exists_due (due : settingsDue (some it) (localSettings json d) = true) :
    ∃ s, Api.trim (exportOf json d s) ≠ "" ∧
      Api.trim (exportOf json d s) ≠ Api.trim ((fieldValue it s.name).getD "") := by
  obtain ⟨x, mem, differs⟩ := List.any_eq_true.mp due
  obtain ⟨s, -, rfl⟩ := List.mem_map.mp mem
  exact ⟨s, of_decide_eq_true differs⟩

/-- The rewritten item, when every field is faithful. -/
theorem onlyFillsBlanks_settingsItem (lawful : json.Lawful)
    (faithful : Faithful json (faulted fault it) d) (now : Int) {d' : Device}
    (applied : d' = applyFields json d (faulted fault it))
    (due : settingsDue (some it) (localSettings json d') = true) :
    OnlyFillsBlanks json it (settingsItem (some it) (localSettings json d') now) where
  kept f mem := by
    obtain ⟨g, paired⟩ := mem_faulted fault mem
    obtain ⟨s, named⟩ := faithful.known _ paired
    refine ⟨healed json it d' s, healed_mem now s, named.symm, fun full => ?_⟩
    have has : HasField (faulted fault it) s g f.value := ⟨_, paired, named, rfl, rfl, full⟩
    have safe := safe_of_faithful lawful faithful has
    rw [← applied] at safe
    simp only [healed]
    split
    · refine .inl ?_
      rw [← named, fieldValue_eq faithful.once mem]
      rfl
    · rename_i shared
      refine (safe.resolve_left shared).imp_right fun wider => ⟨s, ?_, wider⟩
      rw [named, Setting.ofName_name]
  purposeful _ := by
    obtain ⟨s, shared, differs⟩ := exists_due due
    have value : (healed json it d' s).value = exportOf json d' s := by
      simp only [healed]
      rw [if_neg shared]
    refine ⟨healed json it d' s, healed_mem now s, by rw [value]; exact shared, ?_⟩
    rw [value]
    by_cases blank : Api.trim ((fieldValue it s.name).getD "") = ""
    · exact .inl blank
    · cases found : fieldValue it s.name with
      | none =>
          rw [found] at blank
          exact absurd (by decide) blank
      | some text =>
          rw [found] at blank differs
          obtain ⟨g, has⟩ := hasField_of_fieldValue fault found blank
          have safe := safe_of_faithful lawful faithful has
          rw [← applied] at safe
          have other : exportOf json d' s ≠ text := by
            rintro same
            exact differs (by rw [same]; rfl)
          refine .inr ⟨s, Setting.ofName_name s, ?_, ?_⟩
          · simpa [healed, found] using (safe.resolve_left shared).resolve_left other
          · simpa [healed, found] using other

/-- `needs_heal`: after the apply loop the device has something that the item lacks. -/
def needsHeal (json : Formats) (fault : Nat → Fault) (it : Item) (d : Device) : Bool :=
  settingsDue (some it) (localSettings json (applyFields json d (faulted fault it)))

/-- Unless there is nothing to heal, or when the device takes every field over as it is, the
sync of the settings only fills blanks of the item. -/
theorem syncDeviceSettings_onlyFillsBlanks (json : Formats) (lawful : json.Lawful)
    (fault : Nat → Fault) (now : Int) (vaultFails : Bool) (it : Item) (d : Device)
    (faithful : needsHeal json fault it d = true → Faithful json (faulted fault it) d) :
    ∃ it', (syncDeviceSettings json fault now vaultFails (some it) d).1 = some it' ∧
      OnlyFillsBlanks json it it' := by
  unfold syncDeviceSettings
  dsimp only
  split
  · rename_i due
    obtain ⟨due, -⟩ := Bool.and_eq_true_iff.mp due
    exact ⟨_, rfl, onlyFillsBlanks_settingsItem lawful (faithful due) now rfl due⟩
  · exact ⟨it, rfl, .refl json it⟩

end Sync

/-! ## Two syncs -/

instance countable_string : Countable String := by
  have inj : Function.Injective fun s : String => s.toList.map Char.toNat := by
    intro a b same
    have lists := List.map_injective_iff.mpr (fun x y h => Char.toNat_inj.mp h) same
    exact String.toList_inj.mp lists
  exact inj.countable

instance countable_map {V : Type} [Countable V] : Countable (BTreeMap V) := by
  have inj : Function.Injective fun m : BTreeMap V => m.toList := by
    intro a b same
    exact Std.ExtTreeMap.ext_toList (List.Perm.of_eq same)
  exact inj.countable

deriving instance Countable for WatchdogFileCfg

deriving instance Countable for NetdataFileCfg

deriving instance Countable for SshServerCfg

deriving instance Countable for PersistentVpnRecord

deriving instance Countable for PersistentSyncBundle

section SomeCodec

variable (α : Type) [Countable α]

/-- A text for every value, by its number. -/
noncomputable def someText (a : α) : String :=
  String.ofList (List.replicate ((exists_injective_nat α).choose a + 1) '#')

open Classical in
/-- A codec that keeps the promises. -/
noncomputable def someCodec : Codec α where
  encode := someText α
  decode text := if h : ∃ a, someText α a = text then some h.choose else none

theorem someText_inj {a b : α} (h : someText α a = someText α b) : a = b := by
  have lengths := congrArg (fun s => s.toList.length) h
  simp only [someText, String.toList_ofList, List.length_replicate] at lengths
  exact (exists_injective_nat α).choose_spec (by omega)

theorem someCodec_lawful : (someCodec α).Lawful where
  round a := by
    have there : ∃ b, someText α b = someText α a := ⟨a, rfl⟩
    simp only [someCodec, dif_pos there]
    exact congrArg some (someText_inj α there.choose_spec)
  bare a := by
    refine trim_eq_self fun c mem => ?_
    simp only [someCodec, someText, String.toList_ofList] at mem
    rw [List.eq_of_mem_replicate mem]
    decide
  solid a := by
    intro empty
    have lengths := congrArg (fun s => s.toList.length) empty
    simp [someCodec, someText] at lengths

end SomeCodec

noncomputable def someFormats : Formats where
  netdata := someCodec _
  prefs := someCodec _
  watchdog := someCodec _
  ndauth := someCodec _
  aovpn := someCodec _
  sshPins := someCodec _
  decodeSecretKey _ := .ok ()

theorem someFormats_lawful : someFormats.Lawful :=
  ⟨someCodec_lawful _, someCodec_lawful _, someCodec_lawful _, someCodec_lawful _,
    someCodec_lawful _, someCodec_lawful _⟩

/-- A settings item that has only a Linode token. -/
def tokenItem (value : String) : Item :=
  { settingsItem none [] 100 with customFields := [⟨"linode_token", value, true⟩] }

/-- A device with these tokens and nothing else. -/
def tokenDevice (linode hetzner : Option String) : Device where
  linode := linode
  gsecret := none
  hetzner := hetzner
  sshKey := none
  wgKey := none
  auth _ := none
  googleClientId := none
  cfg := none
  prefs := none
  record := .absent

def writesWork (_ : Nat) : Fault := ⟨.stored, .done, fun _ => .stored⟩

def keychainLocked (_ : Nat) : Fault :=
  ⟨.failed "The user name or passphrase you entered is not correct.", .done, fun _ => .stored⟩

/-- The Hetzner token of the device joins the Linode token of the item. -/
theorem syncDeviceSettings_onlyFillsBlanks_hetzner :
    ∃ it', (syncDeviceSettings someFormats writesWork 200 false (some (tokenItem "abc"))
      (tokenDevice none (some "xyz"))).1 = some it' ∧
      OnlyFillsBlanks someFormats (tokenItem "abc") it' := by
  refine syncDeviceSettings_onlyFillsBlanks someFormats someFormats_lawful writesWork 200 false
    (tokenItem "abc") (tokenDevice none (some "xyz")) fun _ => ?_
  have only : ∀ {s f text}, HasField (faulted writesWork (tokenItem "abc")) s f text →
      s = .linode ∧ text = "abc" := by
    rintro s f text ⟨x, mem, name, value, -, -⟩
    obtain rfl : x = (⟨"linode_token", "abc", true⟩, writesWork 0) := by
      simpa [faulted, tokenItem] using mem
    have named : s.name = Setting.linode.name := name.symm
    exact ⟨Setting.name_inj.mp named, value.symm⟩
  refine ⟨?_, by decide, ?_, ?_, ?_⟩
  · intro x mem
    obtain rfl : x = (⟨"linode_token", "abc", true⟩, writesWork 0) := by
      simpa [faulted, tokenItem] using mem
    exact ⟨.linode, rfl⟩
  · intro s f text has
    obtain ⟨-, rfl⟩ := only has
    decide
  · intro s f text has
    obtain ⟨rfl, rfl⟩ := only has
    exact .inl rfl
  · intro f text m has
    cases (only has).1

/-- A keychain that does not take the new token makes the device put its old one back into
the item. -/
theorem keychainLocked_clobbers :
    ¬ ∃ it', (syncDeviceSettings someFormats keychainLocked 200 false (some (tokenItem "new"))
      (tokenDevice (some "old") none)).1 = some it' ∧
      OnlyFillsBlanks someFormats (tokenItem "new") it' := by
  have applied : applyFields someFormats (tokenDevice (some "old") none)
      (faulted keychainLocked (tokenItem "new")) = tokenDevice (some "old") none := rfl
  have shared : exportOf someFormats (tokenDevice (some "old") none) .linode = "old" := by
    have solid : kcGet (some "old") = some "old" := by decide
    simp only [exportOf, tokenDevice, solid, Option.getD_some]
  have due : settingsDue (some (tokenItem "new"))
      (localSettings someFormats (tokenDevice (some "old") none)) = true := by
    refine List.any_eq_true.mpr ⟨_, List.mem_map_of_mem Setting.linode.mem_all, ?_⟩
    rw [shared]
    decide
  rintro ⟨it', rewritten, kept, -⟩
  simp only [syncDeviceSettings, applied, due, Bool.not_false, Bool.and_self, if_true] at rewritten
  obtain rfl := Option.some.inj rewritten
  obtain ⟨f', mem, named, carries⟩ := kept ⟨"linode_token", "new", true⟩ (List.mem_singleton_self _)
  obtain ⟨s, rfl⟩ := mem_healed _ mem
  obtain rfl : s = .linode := Setting.name_inj.mp named
  have value : (healed someFormats (tokenItem "new") (tokenDevice (some "old") none) .linode).value =
      "old" := by
    simp only [healed, shared]
    decide
  rcases carries (by decide) with same | ⟨s, named, wider⟩
  · rw [value] at same
    revert same
    decide
  · obtain rfl : Setting.linode = s := Option.some.inj ((Setting.ofName_name .linode).symm.trans named)
    exact wider

end Sentinel.Settings
