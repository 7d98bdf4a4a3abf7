import Sentinel.Lib.Outline
import Sentinel.Api.Handler
import Sentinel.Vpn.Multihop

/-!
# The always-on node

`persistent_deploy_impl`, `persistent_connect_impl` and `persistent_destroy_impl` of
`apps/desktop/src-tauri/src/vpn.rs`, over the requests of
`crates/core/src/cloud/linode.rs`. The node is billed until it is deleted, and
`vpn-persistent.json` is all that the app knows of it.

`World` is what outlives a command: the nodes of the provider that `persistent_deploy` made,
the record file and the keychain entry. Everything else that the commands read, the session
slot and the `CONNECTING` flag included, is answered by the environment as it likes. Its
`Fate` for a statement also says what the provider did, which a lost answer need not tell.
-/

namespace Sentinel.Vpn.AlwaysOn

open Atomic Routine

/-- `PersistentVpnRecord`. -/
structure PersistentVpnRecord where
  instanceId : String
  ipv4 : String
  instanceType : String
  region : String
  createdAt : Int
  serverPubkey : String
  clientIp : String
  listenPort : Nat
  deriving DecidableEq, Repr

/-- `vpn-persistent.json`. -/
inductive RecordFile where
  | absent
  /-- what a write that failed half-way leaves -/
  | truncated
  | holds (record : PersistentVpnRecord)
  deriving DecidableEq, Repr

/-- `load_persistent_record`. -/
def RecordFile.load : RecordFile → Option PersistentVpnRecord
  | holds record => some record
  | _ => none

/-! ## Requests to the provider -/

/-- What `reqwest` makes of a request: it was not answered, or it was, with a status and a
body that may be unreadable. -/
inductive Wire where
  | failed (text : String)
  | answered (status : Nat) (body : Except String String)
  deriving DecidableEq, Repr

/-- The first entry of an error document. -/
structure LinodeError where
  reason : Option String
  field : Option String

structure LinodeInstance where
  id : Nat
  region : String
  kind : String
  status : String
  ipv4 : List String
  tags : List String

/-- The parts of `serde_json` that the client uses. -/
structure Serde where
  firstError : String → Option LinodeError
  linodeInstance : String → Except String LinodeInstance
  page : String → Except String (List LinodeInstance)

def mapState (status : String) : InstanceState :=
  if status = "provisioning" ∨ status = "migrating" ∨ status = "rebuilding" then .provisioning
  else if status = "booting" ∨ status = "rebooting" then .booting
  else if status = "running" then .running
  else if status = "offline" ∨ status = "stopped" then .stopped
  else if status = "shutting_down" ∨ status = "deleting" then .deleting
  else .provisioning

/-- `From<LinodeInstance> for Instance`. -/
def LinodeInstance.toInstance (l : LinodeInstance) : Instance :=
  { id := toString l.id, region := l.region, instanceType := l.kind, state := mapState l.status,
    ipv4 := l.ipv4.head?, tags := l.tags }

/-- `StatusCode::is_success`. -/
def isSuccess (status : Nat) : Bool := decide (200 ≤ status ∧ status < 300)

section Client

variable (serde : Serde)

def linodeReason (status : Nat) (body : String) : CoreError :=
  let reason := (serde.firstError body).bind fun e0 =>
    let r := e0.reason.getD ""
    let text := match e0.field with
      | some f => if f = "" then r else r ++ " (" ++ f ++ ")"
      | none => r
    if text = "" then none else some text
  .network ("Linode API " ++ toString status ++ ": " ++
    reason.getD (String.ofList ((Api.trim body).toList.take 300)))

def jsonOk {α : Type} (decode : String → Except String α) : Wire → Except CoreError α
  | .failed text => .error (.network text)
  | .answered _ (.error text) => .error (.network text)
  | .answered status (.ok body) =>
      if isSuccess status then
        (decode body).mapError fun e => .network ("Linode API: bad response (" ++ e ++ ")")
      else .error (linodeReason serde status body)

def emptyOk : Wire → Except CoreError Unit
  | .failed text => .error (.network text)
  | .answered status body =>
      if isSuccess status then .ok ()
      else .error (linodeReason serde status (body.toOption.getD ""))

/-- What `LinodeClient::create` and `LinodeClient::get` make of an answer. -/
def instanceOf (wire : Wire) : Except CoreError Instance :=
  (jsonOk serde serde.linodeInstance wire).map LinodeInstance.toInstance

def instancesOf (wire : Wire) : Except CoreError (List Instance) :=
  (jsonOk serde serde.page wire).map (List.map LinodeInstance.toInstance)

end Client

/-- The provider says that the node is gone: the delete succeeded or its status is 404. -/
def Wire.confirms : Wire → Bool
  | failed _ => false
  | answered status _ => isSuccess status || status = 404

/-! ## Statements -/

inductive Act where
  /-- a call that does not concern the node or its record -/
  | call (q : Call)
  | create (spec : InstanceSpec)
  | get (id : String)
  | delete (id : String)
  | boot (id : String)
  | listEphemeral
  | loadRecord
  | saveRecord (record : PersistentVpnRecord)
  | deleteRecord
  | keyStore (privkey : String)
  | keyLoad
  | keyDel
  | takePersistent
  | emit (stage detail : String)

@[reducible] def Act.Reply : Act → Type
  | call q => q.Reply
  | create _ | get _ | delete _ | boot _ | listEphemeral => Wire
  | loadRecord => Option PersistentVpnRecord
  | saveRecord _ | keyStore _ => Except String Unit
  | keyLoad => Option String
  | takePersistent => Option VpnActive
  | deleteRecord | keyDel | emit .. => Unit

structure World where
  /-- ids of the nodes that `persistent_deploy` made and that the provider still has -/
  cloud : List String
  record : RecordFile
  key : Option String
  deriving DecidableEq, Repr

/-- How a write of a file ends. -/
inductive Written where
  | done
  /-- the directory could not be made or the file not be opened -/
  | refused (text : String)
  /-- the file was emptied, and not written to its end -/
  | broken (text : String)
  deriving DecidableEq, Repr

/-- What the environment has for a statement. -/
structure Fate where
  reply : (q : Call) → q.Reply
  wire : Wire
  /-- a create that was not answered with an instance made this one -/
  made : Option String
  /-- a delete that was not confirmed was carried out -/
  gone : Bool
  written : Written
  /-- the keychain or the file system refuses -/
  fault : Option String
  session : Option VpnActive

def afterCreate (made : Option String) (cloud : List String) :
    Except CoreError Instance → List String
  | .ok inst => inst.id :: cloud
  | .error _ => made.toList ++ cloud

def exec (serde : Serde) : (q : Act) → Fate → World → q.Reply × World
  | .call q, f, w => (f.reply q, w)
  | .create _, f, w =>
      (f.wire, { w with cloud := afterCreate f.made w.cloud (instanceOf serde f.wire) })
  | .delete id, f, w =>
      (f.wire, if f.wire.confirms || f.gone then { w with cloud := w.cloud.filter (· ≠ id) } else w)
  | .get _, f, w | .boot _, f, w | .listEphemeral, f, w => (f.wire, w)
  | .loadRecord, _, w => (w.record.load, w)
  | .saveRecord record, f, w =>
      match f.written with
      | .done => (.ok (), { w with record := .holds record })
      | .refused text => (.error text, w)
      | .broken text => (.error text, { w with record := .truncated })
  | .deleteRecord, f, w => ((), if f.fault.isSome then w else { w with record := .absent })
  | .keyStore privkey, f, w =>
      match f.fault with
      | none => (.ok (), { w with key := some privkey })
      | some text => (.error text, w)
  | .keyLoad, _, w => ((w.key.map Api.trim).filter fun s => decide (s ≠ ""), w)
  | .keyDel, f, w => ((), if f.fault.isSome then w else { w with key := none })
  | .takePersistent, f, w => (f.session.filter fun v => v.persistent, w)
  | .emit .., _, w => ((), w)

/-! ## The commands -/

abbrev Desk (α : Type) := Routine Act Act.Reply Failure α

abbrev perform {ε : Type} (q : Act) : Routine Act Act.Reply ε q.Reply := Routine.call q

/-- A call that the code shares with the other VPN commands. -/
abbrev ask {ε : Type} (q : Call) : Routine Act Act.Reply ε q.Reply := Routine.call (Act.call q)

section Client

variable (serde : Serde)

/-- `LinodeClient`, and every other call as it is. -/
def linode : (q : Call) → Prog Act Act.Reply q.Reply
  | .create spec => .stmt (.create spec) fun wire => .done (instanceOf serde wire)
  | .get id => .stmt (.get id) fun wire => .done (instanceOf serde wire)
  | .delete id => .stmt (.delete id) fun wire => .done (emptyOk serde wire)
  | .listEphemeral => .stmt .listEphemeral fun wire => .done (instancesOf serde wire)
  | q => .stmt (.call q) .done

/-- A routine of the other VPN commands. -/
def lift {ε α : Type} (m : Routine Call Call.Reply ε α) : Routine Act Act.Reply ε α :=
  Prog.translate (linode serde) m

def delete (id : String) : Desk (Except CoreError Unit) := do
  let wire ← perform (.delete id)
  pure (emptyOk serde wire)

def get (id : String) : Desk (Except CoreError Instance) := do
  let wire ← perform (.get id)
  pure (instanceOf serde wire)

def create (spec : InstanceSpec) : Desk (Except CoreError Instance) := do
  let wire ← perform (.create spec)
  pure (instanceOf serde wire)

end Client

/-- Runs `body` with `CONNECTING` taken; dropping the guard clears it on every exit. -/
def whileConnecting (busy : String) (body : Desk Unit) : Desk Unit := do
  if ← ask .swapConnecting then throw (.err busy)
  else do
    let r ← attempt body
    ask .clearConnecting
    ofExcept r

/-- `e.to_string().contains("404")`. -/
def says404 (e : CoreError) : Bool := decide ("404".toList <:+: e.display.toList)

/-- The record and the key of a node that is gone. -/
def forget : Desk Unit := do
  perform .deleteRecord
  perform .keyDel

def cleanupFailedPersistent (serde : Serde) (id : String) : Desk Unit := do
  match ← delete serde id with
  | .ok _ => forget
  | .error e => if says404 e then forget else pure ()

/-- `provision_persistent_ready`: the boot loop is that of a hop. -/
def provisionPersistentReady (serde : Serde) (deps : ConnectDeps) (inst : Instance)
    (callbackToken callbackHmacKey : String) : Desk String := do
  perform (.emit "booting" "waiting for the node to boot…")
  let running ← lift serde (bootHop deps inst deps.maxBootPolls)
  if running.state ≠ .running then throw (.err "the node did not boot in time")
  else match running.ipv4 with
    | none => throw (.err "the node never reported an IP")
    | some ip => do
        perform (.emit "provisioning" "waiting for the server to finish installing…")
        let _ ← ofExcept ((← ask (.fetch ip callbackToken callbackHmacKey)).mapError
          fun e => .err e.display)
        pure ip

def bringUpPersistentTunnel (record : PersistentVpnRecord) (clientPrivkey : String)
    (allowedIps : List String) : Desk Unit := do
  let conf : ClientConf :=
    { clientPrivateKey := clientPrivkey, clientAddress := record.clientIp ++ "/32",
      dns := "1.1.1.1", serverPublicKey := record.serverPubkey,
      serverEndpoint := record.ipv4 ++ ":" ++ toString record.listenPort, allowedIps,
      keepalive := 25 }
  ofExcept ((← ask (.up conf)).mapError fun e => .err e.display)

def setPersistentActive (serde : Serde) (record : PersistentVpnRecord) : Desk Unit := do
  lift serde (engageKillswitch record.ipv4)
  let startedAt ← ask .now
  ask .spawnMetrics
  ask (.setVpn { instanceId := record.instanceId, chain := [record.instanceId],
                 region := record.region, instanceType := record.instanceType,
                 egressIp := some record.ipv4, startedAt, persistent := true })
  ask (.emit (.connected record.instanceId (some record.ipv4)))

/-- The keys and the secrets of a new node. -/
structure Material where
  clientKp : WgKeypair
  serverKp : WgKeypair
  callbackToken : String
  callbackHmacKey : String

/-- The parameters of the node: it has no dead-man switch. -/
def Material.params (m : Material) : CloudInitParams :=
  .single m.serverKp.privateBase64 m.clientKp.publicBase64 "10.66.0.2" 51820 m.callbackToken
    m.callbackHmacKey 0

/-- `PERSISTENT_VPN_TAG`. -/
def persistentVpnTag : String := "sentinel-vpn-persistent"

def persistentSpec (region instanceType userData : String) : InstanceSpec :=
  { region, instanceType, userData, label := "sentinel-vpn", tags := [persistentVpnTag] }

/-- Whatever can fail before the node is paid for. -/
def prepare (engine : Minijinja) (serde : Serde) : Desk (Material × String) := do
  match ← perform .loadRecord with
  | some _ => throw (.err "an always-on VPN node is already set up — destroy it first.")
  | none => do
      if ← ask .vpnIsSome then
        throw (.err "disconnect the current VPN before deploying an always-on node.")
      else do
        ofExcept ((← ask .preflight).mapError .err)
        match ← ask .getToken with
        | none => throw (.err "no Linode token configured")
        | some _ => do
            let keep ← ask .keptIds
            let _ ← attempt (lift serde (orphanSweepKeeping keep))
            let clientKp ← ask .generate
            let serverKp ← ask .generate
            let callbackToken ← lift serde (randHex 32)
            let callbackHmacKey ← lift serde (randHex 32)
            let m : Material := { clientKp, serverKp, callbackToken, callbackHmacKey }
            let cloudInit ← ofExcept ((renderBase64 engine m.params).mapError
              fun e => .err e.display)
            ofExcept ((← perform (.keyStore clientKp.privateBase64)).mapError .err)
            perform (.emit "creating" "creating the node…")
            pure (m, cloudInit)

/-- The node is on record: wait for it, then open the tunnel. -/
def finish (serde : Serde) (deps : ConnectDeps) (m : Material) (inst : Instance)
    (record : PersistentVpnRecord) : Desk Unit := do
  match ← attempt (provisionPersistentReady serde deps inst m.callbackToken m.callbackHmacKey) with
  | .error e => do
      cleanupFailedPersistent serde inst.id
      throw e
  | .ok ip => do
      let record := { record with ipv4 := ip }
      let _ ← perform (.saveRecord record)
      perform (.emit "connecting" "starting the tunnel…")
      let allowed ← ask .resolveAllowedIps
      bringUpPersistentTunnel record m.clientKp.privateBase64 allowed
      setPersistentActive serde record
      perform (.emit "ready" "always-on VPN ready")

/-- The node exists: record it at once. -/
def recordNode (serde : Serde) (deps : ConnectDeps) (region instanceType : String) (m : Material)
    (inst : Instance) : Desk Unit := do
  let createdAt ← ask .now
  let record : PersistentVpnRecord :=
    { instanceId := inst.id, ipv4 := inst.ipv4.getD "", instanceType, region, createdAt,
      serverPubkey := m.serverKp.publicBase64, clientIp := "10.66.0.2", listenPort := 51820 }
  match ← perform (.saveRecord record) with
  | .error e => do
      let _ ← delete serde inst.id
      perform .keyDel
      throw (.err e)
  | .ok _ => finish serde deps m inst record

def persistentDeploy (engine : Minijinja) (serde : Serde) (deps : ConnectDeps)
    (region instanceType : String) : Desk Unit :=
  whileConnecting "a connection attempt is already in progress" do
    let (m, cloudInit) ← prepare engine serde
    match ← create serde (persistentSpec region instanceType cloudInit) with
    | .error e => do
        perform .keyDel
        throw (.err e.display)
    | .ok inst => recordNode serde deps region instanceType m inst

/-- The boot loop of `persistent_connect_impl`: it only waits. -/
def waitRunning (serde : Serde) (deps : ConnectDeps) (id : String) : Nat → Desk Unit
  | 0 => pure ()
  | polls + 1 => do
      lift serde (pause deps)
      match ← get serde id with
      | .ok cur => if cur.state = .running then pure () else waitRunning serde deps id polls
      | .error _ => waitRunning serde deps id polls

/-- Boot the node if it was powered off. -/
def ensureRunning (serde : Serde) (deps : ConnectDeps) (inst : Instance) (id : String) :
    Desk Unit :=
  if inst.state ≠ .running then do
    let _ ← perform (.boot id)
    waitRunning serde deps id deps.maxBootPolls
  else pure ()

def persistentConnect (serde : Serde) (deps : ConnectDeps) : Desk Unit :=
  whileConnecting "a connection attempt is already in progress" do
    if ← ask .vpnIsSome then throw (.err "already connected")
    else do
      ofExcept ((← ask .preflight).mapError .err)
      match ← perform .loadRecord with
      | none => throw (.err "no always-on VPN node is set up — deploy one first.")
      | some record => do
          match ← perform .keyLoad with
          | none => throw (.err
              "the always-on node's tunnel key is missing — destroy and redeploy it.")
          | some privkey => do
              match ← ask .getToken with
              | none => throw (.err "no Linode token configured")
              | some _ => do
                  let inst ← ofExcept ((← get serde record.instanceId).mapError fun e => .err
                    ("could not reach the always-on node (" ++ e.display ++
                      ") — it may have been destroyed."))
                  ensureRunning serde deps inst record.instanceId
                  let allowed ← ask .resolveAllowedIps
                  bringUpPersistentTunnel record privkey allowed
                  setPersistentActive serde record

/-- Drop the local tunnel if it is that of the always-on node. -/
def dropTunnel : Desk Unit := do
  match ← perform .takePersistent with
  | some _ => do
      ask .stopMetrics
      let _ ← ask .down
      ask .killswitchClearAll
  | none => pure ()

/-- The delete of `persistent_destroy_impl`. -/
def destroyNode (serde : Serde) (record : PersistentVpnRecord) : Desk Unit := do
  match ← delete serde record.instanceId with
  | .ok _ => forget
  | .error e =>
      if says404 e then forget
      else throw (.err ("Couldn't destroy the always-on node (" ++ e.display ++
        "). Its details are kept so you can try Destroy again — or remove the 'sentinel-vpn' " ++
        "node in your Linode dashboard."))

def persistentDestroy (serde : Serde) : Desk Unit :=
  whileConnecting "a VPN connection attempt is in progress — try Destroy again in a moment." do
    dropTunnel
    match ← perform .loadRecord with
    | none => perform .keyDel
    | some record => do
        match ← ask .getToken with
        | none => throw (.err ("Add your Linode token back (Settings → Real VPN) to destroy the " ++
            "always-on node. Nothing was deleted and its details are kept, so you can retry."))
        | some _ => destroyNode serde record

end Sentinel.Vpn.AlwaysOn
