import Sentinel.Vpn.Session

/-!
# Multi-hop chains

`multihop_run`, `destroy_chain` and `vpn_disconnect` of `apps/desktop/src-tauri/src/vpn.rs`.
The chain is built from the exit to the entry, so that each hop can be told the key and the
address of the next one. `ChainState` is what the loop carries; an index out of range or an
`unwrap` of `None` is `Failure.panic`.
-/

namespace Sentinel.Vpn

open Atomic Routine

/-- How a command of the desktop can fail. -/
inductive Failure where
  | err (message : String)
  | panic
  deriving DecidableEq, Repr

abbrev Desk (α : Type) := Routine Call Call.Reply Failure α

/-- `list[i]`. -/
def index {α : Type} (list : List α) (i : Nat) : Desk α :=
  match list[i]? with
  | some a => pure a
  | none => throw .panic

/-- `unwrap`. -/
def unwrap {α : Type} : Option α → Desk α
  | some a => pure a
  | none => throw .panic

/-- `Uuid::new_v4` texts joined. -/
def uuids : Nat → Desk String
  | 0 => pure ""
  | n + 1 => do
      let u ← ask .newUuid
      let rest ← uuids n
      pure (u.val ++ rest)

/-- `rand_hex`: the loop takes as many UUIDs as the length needs. -/
def randHex (bytes : Nat) : Desk String := do
  let s ← uuids ((bytes * 2 + 31) / 32)
  pure (String.ofList (s.toList.take (bytes * 2)))

/-- `(0..n).map(|_| WgKeypair::generate())`. -/
def generateMany : Nat → Desk (List WgKeypair)
  | 0 => pure []
  | n + 1 => do
      let kp ← ask .generate
      let rest ← generateMany n
      pure (kp :: rest)

/-- The loop of `orphan_sweep_keeping`. -/
def sweep (keep : List String) : List Instance → Core (List String)
  | [] => pure []
  | inst :: rest =>
      if inst.id ∈ keep then sweep keep rest
      else do
        let deleted ← ask (.delete inst.id)
        let reaped ← sweep keep rest
        pure (if deleted.toOption.isSome then inst.id :: reaped else reaped)

def orphanSweepKeeping (keep : List String) : Core (List String) := do
  let list ← ofExcept (← ask .listEphemeral)
  sweep keep list

/-- `destroy_chain`: errors are ignored. -/
def destroyChain : List String → Desk Unit
  | [] => pure ()
  | id :: rest => do
      let _ ← ask (.delete id)
      destroyChain rest

/-- The error exits of the loop. -/
def bail {α : Type} (created : List String) (message : String) : Desk α := do
  destroyChain created
  throw (.err message)

/-- What is fixed before the loop starts. -/
structure ChainPlan where
  regions : List String
  itype : String
  clientKp : WgKeypair
  serverKps : List WgKeypair
  wg1Kps : List WgKeypair

/-- The variables of the loop. `created` is exit-first. -/
structure ChainState where
  created : List String
  downstream : Option (String × String)
  entryIp : Option String
  exitIp : Option String

/-- The boot loop of a hop: unlike in `connect`, a failed poll is not an error. -/
def bootHop (deps : ConnectDeps) (inst : Instance) : Nat → Desk Instance
  | 0 => pure inst
  | polls + 1 => do
      pause deps
      match ← ask (.get inst.id) with
      | .ok cur => if cur.state = .running then pure cur else bootHop deps inst polls
      | .error _ => bootHop deps inst polls

/-- The upstream peer of hop `i`: the user's client, or the previous hop's `wg1`. -/
def upstreamPeer (plan : ChainPlan) (i : Nat) : Desk (String × String) :=
  if i = 0 then pure (plan.clientKp.publicBase64, "10.66.0.2")
  else do
    let kp ← index plan.wg1Kps (i - 1)
    pure (kp.publicBase64, "10.67.0.2")

/-- The downstream link of hop `i`, unless it is the exit. -/
def nextHopOf (plan : ChainPlan) (i : Nat) (st : ChainState) : Desk (Option NextHop) :=
  if i = plan.regions.length - 1 then pure none
  else do
    let (npub, nip) ← unwrap st.downstream
    let kp ← index plan.wg1Kps i
    pure (some { wg1Privkey := kp.privateBase64, wg1Address := "10.67.0.2/32", peerPubkey := npub,
                 peerEndpoint := nip ++ ":51820" })

/-- `InstanceSpec` of hop `i`. -/
def hopSpec (plan : ChainPlan) (i : Nat) (region userData : String) : InstanceSpec :=
  { region, instanceType := plan.itype, userData, label := "sentinel-hop" ++ toString i, tags := [] }

/-- Wait for the instance of hop `i` and take its address. -/
def awaitHop (deps : ConnectDeps) (i : Nat) (created : List String) (inst : Instance) :
    Desk String := do
  ask (.emit .booting)
  let running ← bootHop deps inst deps.maxBootPolls
  if running.state ≠ .running then
    bail created ("hop " ++ toString i ++ " did not boot in time")
  else match running.ipv4 with
    | some ip => pure ip
    | none => bail created ("hop " ++ toString i ++ " reported no IP")

/-- One round of the loop. -/
def provisionHop (engine : Minijinja) (deps : ConnectDeps) (plan : ChainPlan) (i : Nat)
    (st : ChainState) : Desk ChainState := do
  let (peerPubkey, peerIp) ← upstreamPeer plan i
  let nextHop ← nextHopOf plan i st
  let serverKp ← index plan.serverKps i
  let callbackToken ← randHex 16
  let callbackHmacKey ← randHex 32
  let params : CloudInitParams :=
    { serverPrivkey := serverKp.privateBase64, clientPubkey := peerPubkey, clientIp := peerIp,
      listenPort := 51820, callbackToken, callbackHmacKey, deadmanSecs := 900, nextHop }
  match renderBase64 engine params with
  | .error e => bail st.created e.display
  | .ok ud => do
      let region ← index plan.regions i
      match ← ask (.create (hopSpec plan i region ud)) with
      | .error e => bail st.created e.display
      | .ok inst => do
          let created := st.created ++ [inst.id]
          let ip ← awaitHop deps i created inst
          pure { created, downstream := some (serverKp.publicBase64, ip),
                 entryIp := if i = 0 then some ip else st.entryIp,
                 exitIp := if i = plan.regions.length - 1 then some ip else st.exitIp }

/-- `for i in (0..n).rev()`. -/
def provisionHops (engine : Minijinja) (deps : ConnectDeps) (plan : ChainPlan) :
    Nat → ChainState → Desk ChainState
  | 0, st => pure st
  | i + 1, st => do
      let st ← provisionHop engine deps plan i st
      provisionHops engine deps plan i st

/-- The optional kill switch; a failure to engage it is not an error. -/
def engageKillswitch (entryIp : String) : Desk Unit := do
  if ← ask .killswitchEnabled then
    match ← ask (.killswitchEngage entryIp) with
    | .error _ => ask .killswitchClearAll
    | .ok _ => pure ()

/-- The tunnel, the kill switch and the session record. -/
def openChain (plan : ChainPlan) (entryLabel : String) (st : ChainState) : Desk Unit := do
  let entryIp ← unwrap st.entryIp
  ask (.emit .exchangingKeys)
  ask (.emit .startingTunnel)
  let entryKp ← index plan.serverKps 0
  let allowedIps ← ask .resolveAllowedIps
  let conf : ClientConf :=
    { clientPrivateKey := plan.clientKp.privateBase64, clientAddress := "10.66.0.2/32",
      dns := "1.1.1.1", serverPublicKey := entryKp.publicBase64,
      serverEndpoint := entryIp ++ ":51820", allowedIps, keepalive := 25 }
  match ← ask (.up conf) with
  | .error e => do
      ask .killswitchClearAll
      bail st.created e.display
  | .ok _ => do
      engageKillswitch entryIp
      let chain := st.created.reverse
      let entryId ← index chain 0
      let startedAt ← ask .now
      ask .spawnMetrics
      ask (.setVpn { instanceId := entryId, chain, region := entryLabel,
                     instanceType := plan.itype, egressIp := st.exitIp, startedAt,
                     persistent := false })
      ask (.emit (.connected entryId st.exitIp))

/-- Keys, the loop and the tunnel. -/
def buildChain (engine : Minijinja) (deps : ConnectDeps) (regions : List String)
    (itype : String) : Desk Unit := do
  let n := regions.length
  let entry ← index regions 0
  let exit ← index regions (n - 1)
  let clientKp ← ask .generate
  let serverKps ← generateMany n
  let wg1Kps ← generateMany (n - 1)
  ask (.emit .creatingInstance)
  let plan : ChainPlan := { regions, itype, clientKp, serverKps, wg1Kps }
  let st ← provisionHops engine deps plan n ⟨[], none, none, none⟩
  openChain plan (entry ++ " → " ++ exit) st

/-- `multihop_run` once `CONNECTING` is taken. -/
def multihopGuarded (engine : Minijinja) (deps : ConnectDeps) (regions : List String)
    (itype : String) : Desk Unit := do
  if ← ask .vpnIsSome then throw (.err "already connected")
  else match ← ask .preflight with
    | .error e => throw (.err e)
    | .ok _ => do
        match ← ask .getToken with
        | none => throw (.err "no Linode token configured")
        | some _ => do
            let keep ← ask .keptIds
            let _ ← attempt (orphanSweepKeeping keep)
            buildChain engine deps regions itype

/-- `multihop_run`. The source has `MAX_HOPS = 3`; dropping the guard clears `CONNECTING` on
every exit. -/
def multihopRun (engine : Minijinja) (deps : ConnectDeps) (maxHops : Nat) (regions : List String)
    (instanceType : Option String) : Desk Unit :=
  if regions.length < 2 then throw (.err "multi-hop needs at least 2 regions")
  else if regions.length > maxHops then
    throw (.err ("at most " ++ toString maxHops ++ " hops (cost = N× a node)"))
  else do
    if ← ask .swapConnecting then throw (.err "a connection attempt is already in progress")
    else do
      let r ← attempt (multihopGuarded engine deps regions (instanceType.getD "g6-nanode-1"))
      ask .clearConnecting
      ofExcept r

/-- The history record of a session that ends; a store that cannot be opened is ignored. -/
def recordSession (active : VpnActive) (last : WgCounters) : Desk Unit := do
  let ended ← ask .now
  ask (.insertHistory { id := active.instanceId, region := active.region,
                        instanceType := active.instanceType, startedAt := active.startedAt,
                        endedAt := ended, bytesRx := Int.bmod last.rxBytes (2 ^ 64),
                        bytesTx := Int.bmod last.txBytes (2 ^ 64) })

/-- `vpn_disconnect` once it has taken the session. -/
def endSession (active : VpnActive) : Desk Unit := do
  ask .stopMetrics
  let _ ← ask .now
  let last := (← ask .counters).toOption.getD ⟨0, 0⟩
  if active.persistent then do
    let _ ← ask .down
    ask (.emit .idle)
    recordSession active last
  else do
    let res ← attempt (disconnect active.instanceId)
    destroyChain (active.chain.filter (· ≠ active.instanceId))
    recordSession active last
    ofExcept (res.mapError fun e => .err e.display)

def vpnDisconnect : Desk Unit := do
  let time ← ask .now
  ask (.recordDisconnect time)
  ask .killswitchClearAll
  match ← ask .takeVpn with
  | none => pure ()
  | some active => endSession active

end Sentinel.Vpn
