import Sentinel.Lib.Trace
import Sentinel.Api.Handler
import Sentinel.Vpn.CloudInit

/-!
# Nodes, tunnels and the calls of the VPN code

The data of `crates/core/src/cloud/provider.rs` and `crates/core/src/wg`, and every call the
connect paths make: to the cloud provider, to the tunnel controller, to the readiness
fetcher, and to the desktop application around them. A call's `Reply` is any value of its
type: the provider may answer anything at any time.
-/

namespace Sentinel.Vpn

open Atomic

/-- `cloud::InstanceState`. -/
inductive InstanceState where
  | provisioning | booting | running | stopped | deleting | gone
  deriving DecidableEq, Repr

structure Instance where
  id : String
  region : String
  instanceType : String
  state : InstanceState
  ipv4 : Option String
  tags : List String
  deriving DecidableEq, Repr

structure InstanceSpec where
  region : String
  instanceType : String
  userData : String
  label : String
  tags : List String
  deriving DecidableEq, Repr

/-- `wg::WgKeypair`. -/
structure WgKeypair where
  secret : List UInt8
  pub : List UInt8
  deriving DecidableEq, Repr

def WgKeypair.privateBase64 (kp : WgKeypair) : String := Base64.encode kp.secret
def WgKeypair.publicBase64 (kp : WgKeypair) : String := Base64.encode kp.pub

/-- `wg::ClientConf`. -/
structure ClientConf where
  clientPrivateKey : String
  clientAddress : String
  dns : String
  serverPublicKey : String
  serverEndpoint : String
  allowedIps : List String
  keepalive : Nat
  deriving DecidableEq, Repr

/-- `wg::render_client_conf`. -/
def renderClientConf (c : ClientConf) : String :=
  let dnsLine := if (Api.trim c.dns).isEmpty then "" else "DNS = " ++ c.dns ++ "\n"
  "[Interface]\nPrivateKey = " ++ c.clientPrivateKey ++ "\nAddress = " ++ c.clientAddress ++ "\n" ++
    dnsLine ++ "MTU = 1280\n\n[Peer]\nPublicKey = " ++ c.serverPublicKey ++ "\nEndpoint = " ++
    c.serverEndpoint ++ "\nAllowedIPs = " ++ ", ".intercalate c.allowedIps ++
    "\nPersistentKeepalive = " ++ toString c.keepalive ++ "\n"

/-- `vpn::ConnectState`. -/
inductive ConnectState where
  | idle
  | creatingInstance
  | booting
  | exchangingKeys
  | startingTunnel
  | connected (instanceId : String) (egressIp : Option String)
  | disconnecting
  | destroying
  | failed (stage reason : String)
  deriving DecidableEq, Repr

/-- The part of `ConnectDeps` that is data. -/
structure ConnectDeps where
  maxBootPolls : Nat
  pollIntervalMs : Nat
  deriving DecidableEq, Repr

/-- `wg::WgCounters`, as far as the desktop reads it. -/
structure WgCounters where
  rxBytes : Nat
  txBytes : Nat
  deriving DecidableEq, Repr

/-- `VpnActive`: the live session of the desktop. -/
structure VpnActive where
  instanceId : String
  /-- Every node of the path, entry first. -/
  chain : List String
  region : String
  instanceType : String
  egressIp : Option String
  startedAt : Int
  persistent : Bool
  deriving DecidableEq, Repr

/-- `vpn::SessionRecord`, less the prices and the fields that are always zero. -/
structure SessionRecord where
  id : String
  region : String
  instanceType : String
  startedAt : Int
  endedAt : Int
  bytesRx : Int
  bytesTx : Int
  deriving DecidableEq, Repr

/-- The text of a fresh UUID without hyphens. -/
abbrev UuidText := { s : String // s.length = 32 }

inductive Call where
  | generate
  | fillBytes (n : Nat)
  | newUuid
  | create (spec : InstanceSpec)
  | get (id : String)
  | delete (id : String)
  | listEphemeral
  | fetch (ip token hmacKeyHex : String)
  | up (conf : ClientConf)
  | down
  | counters
  | emit (s : ConnectState)
  | sleep (ms : Nat)
  | now
  -- `CONNECTING` and the slot `state.vpn`
  | swapConnecting
  | clearConnecting
  | vpnIsSome
  | setVpn (active : VpnActive)
  | takeVpn
  -- what the desktop reads of its machine and its files
  | preflight
  | getToken
  | keptIds
  | resolveAllowedIps
  | killswitchEnabled
  | killswitchEngage (ip : String)
  | killswitchClearAll
  | stopMetrics
  | spawnMetrics
  | recordDisconnect (time : Int)
  | insertHistory (record : SessionRecord)

@[reducible] def Call.Reply : Call → Type
  | generate => WgKeypair
  | fillBytes n => Vector UInt8 n
  | newUuid => UuidText
  | create _ => Except CoreError Instance
  | get _ => Except CoreError Instance
  | delete _ => Except CoreError Unit
  | listEphemeral => Except CoreError (List Instance)
  | fetch .. => Except CoreError String
  | up _ => Except CoreError Unit
  | down => Except CoreError Unit
  | counters => Except CoreError WgCounters
  | now => Int
  | swapConnecting => Bool
  | vpnIsSome => Bool
  | takeVpn => Option VpnActive
  | preflight => Except String Unit
  | getToken => Option String
  | keptIds => List String
  | resolveAllowedIps => List String
  | killswitchEnabled => Bool
  | killswitchEngage _ => Except String Unit
  | _ => Unit

instance : ∀ q : Call, Nonempty q.Reply
  | .generate => ⟨⟨[], []⟩⟩
  | .fillBytes n => ⟨Vector.replicate n 0⟩
  | .newUuid => ⟨⟨"00000000000000000000000000000000", by decide⟩⟩
  | .create _ | .get _ | .listEphemeral | .fetch .. | .counters => ⟨.error .decrypt⟩
  | .delete _ | .up _ | .down => ⟨.ok ()⟩
  | .now => ⟨0⟩
  | .swapConnecting | .vpnIsSome | .killswitchEnabled => ⟨false⟩
  | .takeVpn | .getToken => ⟨none⟩
  | .preflight | .killswitchEngage _ => ⟨.ok ()⟩
  | .keptIds | .resolveAllowedIps => ⟨[]⟩
  | .emit _ | .sleep _ | .clearConnecting | .setVpn _ | .killswitchClearAll | .stopMetrics
  | .spawnMetrics | .recordDisconnect _ | .insertHistory _ => ⟨()⟩

abbrev Trace := List (Exchange Call Call.Reply)

/-- A program over the calls, with errors of the core library. -/
abbrev Core (α : Type) := Routine Call Call.Reply CoreError α

abbrev ask {ε : Type} (q : Call) : Routine Call Call.Reply ε q.Reply := Routine.call q

/-! ## Reading a trace -/

def emitted (t : Trace) : List ConnectState :=
  t.filterMap fun
    | ⟨.emit s, _⟩ => some s
    | _ => none

/-- The calls of `create`, with what came back. -/
def creates (t : Trace) : List (InstanceSpec × Except CoreError Instance) :=
  t.filterMap fun
    | ⟨.create spec, res⟩ => some (spec, res)
    | _ => none

def deletes (t : Trace) : List String :=
  t.filterMap fun
    | ⟨.delete id, _⟩ => some id
    | _ => none

/-- The configurations handed to the tunnel controller. -/
def tunnels (t : Trace) : List ClientConf :=
  t.filterMap fun
    | ⟨.up conf, _⟩ => some conf
    | _ => none

/-- What the desktop took out of its session slot. -/
def takes (t : Trace) : List (Option VpnActive) :=
  t.filterMap fun
    | ⟨.takeVpn, res⟩ => some res
    | _ => none

/-- What the slot `state.vpn` holds after an exchange. -/
def slotStep : Option VpnActive → Exchange Call Call.Reply → Option VpnActive
  | _, ⟨.setVpn active, _⟩ => some active
  | _, ⟨.takeVpn, _⟩ => none
  | held, _ => held

/-- What it holds after a trace. -/
def slot (held : Option VpnActive) (t : Trace) : Option VpnActive := t.foldl slotStep held

/-- What is read of the slot is what it holds. -/
def SlotAnswer : Option VpnActive → Exchange Call Call.Reply → Prop
  | held, ⟨.takeVpn, got⟩ => got = held
  | held, ⟨.vpnIsSome, filled⟩ => filled = held.isSome
  | _, _ => True

/-- The slot is a cell of the desktop's state: it answers with what it holds all along. -/
def SlotAnswers : Option VpnActive → Trace → Prop
  | _, [] => True
  | held, x :: t => SlotAnswer held x ∧ SlotAnswers (slotStep held x) t

/-- Nothing here fills or empties the slot. -/
def LeavesSlot (t : Trace) : Prop := ∀ held, slot held t = held

theorem slot_append (held : Option VpnActive) (t t' : Trace) :
    slot held (t ++ t') = slot (slot held t) t' :=
  List.foldl_append

theorem slotAnswers_append {held : Option VpnActive} {t t' : Trace} :
    SlotAnswers held (t ++ t') ↔ SlotAnswers held t ∧ SlotAnswers (slot held t) t' := by
  induction t generalizing held with
  | nil => simp [SlotAnswers, slot]
  | cons x t ih => simp [SlotAnswers, slot, ih, and_assoc]

/-- The provider reported this instance, in answer to `create` or to `get` of its id. -/
def Reported (t : Trace) (id : String) (inst : Instance) : Prop :=
  (∃ spec, ⟨.create spec, .ok inst⟩ ∈ t ∧ inst.id = id) ∨ ⟨.get id, .ok inst⟩ ∈ t

/-- Calls of the provider, the tunnel controller or the fetcher. -/
def Call.External : Call → Prop
  | .create _ | .get _ | .delete _ | .listEphemeral | .fetch .. | .up _ | .down | .counters => True
  | _ => False

theorem mem_creates {t : Trace} {spec : InstanceSpec} {res : Except CoreError Instance} :
    (spec, res) ∈ creates t ↔ (⟨.create spec, res⟩ : Exchange Call Call.Reply) ∈ t := by
  refine List.mem_filterMap.trans ⟨?_, fun h => ⟨_, h, rfl⟩⟩
  rintro ⟨⟨q, res'⟩, mem, eq⟩
  cases q with
  | create spec' =>
      cases eq
      exact mem
  | _ => cases eq

section Append

variable (t t' : Trace)

@[simp] theorem emitted_append : emitted (t ++ t') = emitted t ++ emitted t' :=
  List.filterMap_append

@[simp] theorem creates_append : creates (t ++ t') = creates t ++ creates t' :=
  List.filterMap_append

@[simp] theorem deletes_append : deletes (t ++ t') = deletes t ++ deletes t' :=
  List.filterMap_append

@[simp] theorem takes_append : takes (t ++ t') = takes t ++ takes t' :=
  List.filterMap_append

@[simp] theorem tunnels_append : tunnels (t ++ t') = tunnels t ++ tunnels t' :=
  List.filterMap_append

end Append

/-- Exchanges of the boot loop: it sleeps and asks for one instance. -/
def Polling (id : String) (t : Trace) : Prop :=
  ∀ x ∈ t, (∃ ms, x.1 = .sleep ms) ∨ x.1 = .get id

namespace Polling

variable {id : String} {t : Trace}

theorem nil : Polling id [] := List.forall_mem_nil _

theorem sleep (ms : Nat) (res : Unit) : Polling id [⟨.sleep ms, res⟩] :=
  List.forall_mem_singleton.mpr (.inl ⟨ms, rfl⟩)

theorem get (res : Except CoreError Instance) : Polling id [⟨.get id, res⟩] :=
  List.forall_mem_singleton.mpr (.inr rfl)

theorem append {t' : Trace} (h : Polling id t) (h' : Polling id t') : Polling id (t ++ t') :=
  List.forall_mem_append.mpr ⟨h, h'⟩

theorem filterMap_eq_nil {α : Type} (h : Polling id t) {f : Exchange Call Call.Reply → Option α}
    (sleeps : ∀ ms res, f ⟨.sleep ms, res⟩ = none) (gets : ∀ res, f ⟨.get id, res⟩ = none) :
    t.filterMap f = [] := by
  refine List.filterMap_eq_nil_iff.mpr ?_
  rintro ⟨q, res⟩ mem
  rcases h _ mem with ⟨ms, rfl⟩ | rfl
  · exact sleeps ms res
  · exact gets res

theorem emitted (h : Polling id t) : emitted t = [] :=
  h.filterMap_eq_nil (fun _ _ => rfl) fun _ => rfl

theorem creates (h : Polling id t) : creates t = [] :=
  h.filterMap_eq_nil (fun _ _ => rfl) fun _ => rfl

theorem deletes (h : Polling id t) : deletes t = [] :=
  h.filterMap_eq_nil (fun _ _ => rfl) fun _ => rfl

theorem tunnels (h : Polling id t) : tunnels t = [] :=
  h.filterMap_eq_nil (fun _ _ => rfl) fun _ => rfl

end Polling

end Sentinel.Vpn
