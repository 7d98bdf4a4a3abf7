import Sentinel.Lib.OrderedMap
import Sentinel.Api.Handler

/-!
# The configuration of the server manager

`servers-config.json` of `apps/desktop/src-tauri/src/servers.rs`: the watchdog, the Netdata
bridge, the pinned SSH host keys and the servers that CrowdSec protects. Every writer loads
the whole file, changes its part and saves the whole file; a file that is absent or cannot be
read as a configuration counts as the default one.

Texts are left to a `Codec`, which stands for `serde_json` at one type.
-/

namespace Sentinel.Servers

/-- `BTreeMap<String, V>`. -/
abbrev BTreeMap (V : Type) := Std.ExtTreeMap String V compare

/-- `serde_json::to_string` and `serde_json::from_str` at one type. -/
structure Codec (α : Type) where
  encode : α → String
  decode : String → Option α

/-- What is written can be read, and a JSON text is not blank and has no blanks around it. -/
structure Codec.Lawful {α : Type} (c : Codec α) : Prop where
  round : ∀ a, c.decode (c.encode a) = some a
  bare : ∀ a, Api.trim (c.encode a) = c.encode a
  solid : ∀ a, c.encode a ≠ ""

/-- `WatchdogFileCfg`; a percentage is the value of its `f64`. -/
structure WatchdogFileCfg where
  enabled : Bool := false
  intervalSecs : Nat := 120
  cpuPct : ℚ := 90
  cpuSustainTicks : Nat := 3
  diskPct : ℚ := 90
  securityAlerts : Bool := false
  banSync : Bool := false
  deriving DecidableEq

structure NetdataFileCfg where
  enabled : Bool := false
  port : Nat := 19999
  https : Bool := false
  hasAuth : Bool := false
  deriving DecidableEq

structure SshServerCfg where
  hostKeyFingerprint : String := ""
  installed : Bool := false
  deriving DecidableEq

structure CrowdsecServerCfg where
  isProtected : Bool := false
  deriving DecidableEq

/-- `ServersFileCfg`. The maps are keyed by `provider:id`. -/
structure ServersFileCfg where
  watchdog : WatchdogFileCfg := {}
  netdata : BTreeMap NetdataFileCfg := ∅
  ssh : BTreeMap SshServerCfg := ∅
  crowdsec : BTreeMap CrowdsecServerCfg := ∅
  deriving DecidableEq

/-- `load_cfg`, of the file as it is: `none` if there is none or it is no configuration. -/
def loadCfg (file : Option ServersFileCfg) : ServersFileCfg := file.getD {}

def netdataKey (provider id : String) : String := provider ++ ":" ++ id

/-! ## Pinned host keys -/

/-- The pin of an entry: a text of blanks is no pin. -/
def SshServerCfg.pinned (c : SshServerCfg) : Prop := Api.trim c.hostKeyFingerprint ≠ ""

instance (c : SshServerCfg) : Decidable c.pinned := inferInstanceAs (Decidable (_ ≠ _))

/-- What the loop of `ssh_pins_apply` makes of an entry: a pin is adopted where there is none,
and the flag is set where the other device has it set. -/
def adoptPin (incoming entry : SshServerCfg) : SshServerCfg where
  hostKeyFingerprint :=
    if ¬ entry.pinned ∧ incoming.pinned then incoming.hostKeyFingerprint
    else entry.hostKeyFingerprint
  installed := incoming.installed || entry.installed

/-- The loop of `ssh_pins_apply`. -/
def mergePins (pins incoming : BTreeMap SshServerCfg) : BTreeMap SshServerCfg :=
  OrderedMap.updateAll (fun v entry => adoptPin v (entry.getD {})) pins incoming

/-- The flag `changed` of the loop. -/
def pinsChanged (pins incoming : BTreeMap SshServerCfg) : Bool :=
  incoming.toList.any fun x =>
    let entry := pins[x.1]?.getD {}
    decide (¬ entry.pinned ∧ x.2.pinned) || (x.2.installed && !entry.installed)

/-- The configuration that `ssh_pins_apply` saves, if it saves one. -/
def ServersFileCfg.pinsApply (cfg : ServersFileCfg) (incoming : BTreeMap SshServerCfg) :
    Option ServersFileCfg :=
  if pinsChanged cfg.ssh incoming then some { cfg with ssh := mergePins cfg.ssh incoming }
  else none

@[simp] theorem getElem?_mergePins (pins incoming : BTreeMap SshServerCfg) (key : String) :
    (mergePins pins incoming)[key]? =
      (incoming[key]?.map fun v => adoptPin v (pins[key]?.getD {})).or pins[key]? :=
  OrderedMap.getElem?_updateAll _ _ _ _

theorem adoptPin_eq_iff {incoming entry : SshServerCfg} : adoptPin incoming entry = entry ↔
    ¬ (¬ entry.pinned ∧ incoming.pinned) ∧ (incoming.installed → entry.installed) := by
  obtain ⟨fp, installed⟩ := entry
  by_cases adopts : ¬ SshServerCfg.pinned ⟨fp, installed⟩ ∧ incoming.pinned
  · have differs : incoming.hostKeyFingerprint ≠ fp := by
      rintro rfl
      exact adopts.1 adopts.2
    simp [adoptPin, adopts, differs]
  · cases installed with
    | false => simp [adoptPin, adopts]
    | true => simp [adoptPin, adopts]

/-- Nothing is saved when the loop would change no entry. -/
theorem pinsChanged_eq_false_iff {pins incoming : BTreeMap SshServerCfg} :
    pinsChanged pins incoming = false ↔ ∀ (key : String) (v : SshServerCfg),
      incoming[key]? = some v → adoptPin v (pins[key]?.getD {}) = pins[key]?.getD {} := by
  rw [pinsChanged, List.any_eq_false]
  constructor
  · intro unchanged key v there
    have entry := unchanged (key, v) (Std.ExtTreeMap.mem_toList_iff_getElem?_eq_some.mpr there)
    refine adoptPin_eq_iff.mpr ?_
    simpa using entry
  · rintro unchanged ⟨key, v⟩ mem
    have entry := adoptPin_eq_iff.mp
      (unchanged key v (Std.ExtTreeMap.mem_toList_iff_getElem?_eq_some.mp mem))
    simpa using entry

end Sentinel.Servers
