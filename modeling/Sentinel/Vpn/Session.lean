import Mathlib
import Sentinel.Vpn.Node

/-!
# The connect state machine

`crates/core/src/vpn/session.rs`: `connect` provisions one node and brings up the tunnel to
it; whatever fails after the node exists, the node is destroyed before the error is
returned. `connectInner` is cut where the source sets `created`: `launch` ends with the
created instance, and `establish` is everything after it.

Nothing is assumed about the provider, the tunnel controller and the fetcher: the results
are about every trace of `connect`.
-/

namespace Sentinel.Vpn

open Atomic Routine

/-- `session::hex`. -/
def hex (b : List UInt8) : String :=
  String.ofList (b.flatMap fun x => [Nat.digitChar (x.toNat / 16), Nat.digitChar (x.toNat % 16)])

/-- What `connect_inner` has made once `create` has returned. -/
structure Launched where
  inst : Instance
  clientKp : WgKeypair
  serverKp : WgKeypair
  callbackToken : String
  callbackHmacKey : String

structure Connection where
  inst : Instance
  clientConf : String

/-- The parameters of a single node. -/
def singleParams (serverKp clientKp : WgKeypair) (callbackToken callbackHmacKey : String) :
    CloudInitParams :=
  .single serverKp.privateBase64 clientKp.publicBase64 "10.66.0.2" 51820 callbackToken
    callbackHmacKey 900

def singleSpec (region instanceType userData : String) : InstanceSpec :=
  { region, instanceType, userData, label := "sentinel-" ++ region, tags := [] }

/-- Key material, the cloud-init document and `create`. -/
def launch (engine : Minijinja) (region instanceType : String) : Core Launched := do
  let clientKp ← ask .generate
  let tokenB ← ask (.fillBytes 32)
  let hmacB ← ask (.fillBytes 32)
  let callbackToken := hex tokenB.toList
  let callbackHmacKey := hex hmacB.toList
  let serverKp ← ask .generate
  let cloudInit ← ofExcept
    (renderBase64 engine (singleParams serverKp clientKp callbackToken callbackHmacKey))
  ask (.emit .creatingInstance)
  let inst ← ofExcept (← ask (.create (singleSpec region instanceType cloudInit)))
  pure { inst, clientKp, serverKp, callbackToken, callbackHmacKey }

/-- The wait before a poll. -/
def pause {ε : Type} (deps : ConnectDeps) : Routine Call Call.Reply ε Unit :=
  if deps.pollIntervalMs > 0 then ask (.sleep deps.pollIntervalMs) else pure ()

/-- The boot loop: the first poll that sees the instance running ends it. -/
def waitForBoot (deps : ConnectDeps) (inst : Instance) : Nat → Core Instance
  | 0 => pure inst
  | polls + 1 => do
      pause deps
      let cur ← ofExcept (← ask (.get inst.id))
      if cur.state = .running then pure cur else waitForBoot deps inst polls

/-- The tunnel to a launched node at `ip`. -/
def Launched.conf (l : Launched) (ip : String) (allowedIps : List String) : ClientConf :=
  { clientPrivateKey := l.clientKp.privateBase64, clientAddress := "10.66.0.2/32",
    dns := "1.1.1.1", serverPublicKey := l.serverKp.publicBase64,
    serverEndpoint := ip ++ ":51820", allowedIps, keepalive := 25 }

/-- Boot, the readiness gate and the tunnel. -/
def establish (deps : ConnectDeps) (allowedIps : List String) (l : Launched) :
    Core Connection := do
  ask (.emit .booting)
  let running ← waitForBoot deps l.inst deps.maxBootPolls
  if running.state ≠ .running then
    throw (.provision "boot" "instance did not reach Running in time")
  else match running.ipv4 with
    | none => throw (.provision "boot" "no ipv4")
    | some ip => do
        ask (.emit .exchangingKeys)
        let _ready ← ofExcept (← ask (.fetch ip l.callbackToken l.callbackHmacKey))
        ask (.emit .startingTunnel)
        let conf := l.conf ip allowedIps
        let rendered := renderClientConf conf
        ofExcept (← ask (.up conf))
        ask (.emit (.connected running.id running.ipv4))
        pure { inst := running, clientConf := rendered }

/-- `connect_inner`, with the final value of `created`. -/
def connectInner (engine : Minijinja) (deps : ConnectDeps) (region instanceType : String)
    (allowedIps : List String) :
    Prog Call Call.Reply (Except CoreError Connection × Option String) :=
  Prog.bind (launch engine region instanceType) fun
    | .error e => .done (.error e, none)
    | .ok l => Prog.bind (establish deps allowedIps l) fun r => .done (r, some l.inst.id)

def stageOf : CoreError → String
  | .provision stage _ => stage
  | _ => "connect"

/-- The clean-up of `connect`. -/
def cleanUp (created : Option String) (e : CoreError) : Core Connection := do
  match created with
  | some id => do
      ask (.emit .destroying)
      let _ ← ask (.delete id)
  | none => pure ()
  ask (.emit (.failed (stageOf e) e.display))
  throw e

def connect (engine : Minijinja) (deps : ConnectDeps) (region instanceType : String)
    (allowedIps : List String) : Core Connection :=
  Prog.bind (connectInner engine deps region instanceType allowedIps) fun
    | (.ok conn, _) => .done (.ok conn)
    | (.error e, created) => cleanUp created e

/-- `disconnect`: drop the tunnel, then destroy the instance. -/
def disconnect (instanceId : String) : Core Unit := do
  ask (.emit .disconnecting)
  let _ ← ask .down
  ask (.emit .destroying)
  ofExcept (← ask (.delete instanceId))
  ask (.emit .idle)

/-! ## The states -/

/-- The states of a connect that succeeds. -/
def happyStates (id : String) (ip : Option String) : List ConnectState :=
  [.creatingInstance, .booting, .exchangingKeys, .startingTunnel, .connected id ip]

/-- Part of the way to `Connected`, or a proper part of it, `Destroying` if `destroyed`, and
`Failed`. -/
inductive Announced : List ConnectState → Prop where
  | onTheWay (id : String) (ip : Option String) {states : List ConnectState} :
      states <+: happyStates id ip → Announced states
  | broken {n : Nat} (proper : n < 5) (id : String) (ip : Option String)
      (destroyed : List ConnectState) (stage reason : String) :
      destroyed = [] ∨ destroyed = [.destroying] →
      Announced ((happyStates id ip).take n ++ destroyed ++ [.failed stage reason])

/-! ## What each part does -/

theorem pause_ensures {ε : Type} (deps : ConnectDeps) (id : String)
    {post : Trace → Except ε Unit → Prop} (h : ∀ t, Polling id t → post t (.ok ())) :
    (pause deps : Routine _ _ ε Unit).Ensures post := by
  unfold pause
  split
  · exact fun _ => h _ (.sleep _ _)
  · exact h [] .nil

theorem waitForBoot_ensures (deps : ConnectDeps) (inst : Instance) (polls : Nat) :
    (waitForBoot deps inst polls).Ensures fun t r => Polling inst.id t ∧
      ∀ running, r = .ok running → running = inst ∨
        running.state = .running ∧ (⟨.get inst.id, .ok running⟩ : Exchange _ _) ∈ t := by
  induction polls with
  | zero => exact ⟨(by rintro _ ⟨⟩), fun running h => .inl (Except.ok.inj h).symm⟩
  | succ polls ih =>
      simp only [waitForBoot, ensures_bind]
      refine pause_ensures deps inst.id fun waited waiting => ?_
      simp only [ensures_bind, ensures_call, ensures_andThen_ok, ensures_ofExcept]
      rintro (e | cur)
      · exact ⟨waiting.append (.get _), by rintro _ ⟨⟩⟩
      · simp only [ensures_andThen_ok]
        split
        · refine ⟨waiting.append (.get _), fun running h => .inr ?_⟩
          cases h
          exact ⟨‹_›, by simp⟩
        · refine ih.mono fun t r later => ?_
          obtain ⟨polling, last⟩ := later
          refine ⟨?_, fun running h => ?_⟩
          · exact waiting.append ((Polling.get _).append polling)
          · rcases last running h with same | ⟨up, seen⟩
            · exact .inl same
            · exact .inr ⟨up, by simp [seen]⟩

theorem launch_ensures (engine : Minijinja) (region instanceType : String) :
    (launch engine region instanceType).Ensures fun t r => deletes t = [] ∧
      match r with
      | .error _ => (emitted t = [] ∨ emitted t = [.creatingInstance]) ∧
          (creates t = [] ∨ ∃ spec e, creates t = [(spec, .error e)])
      | .ok l => emitted t = [.creatingInstance] ∧ tunnels t = [] ∧
          (⟨.generate, l.serverKp⟩ : Exchange _ _) ∈ t ∧
          ∃ userData, creates t = [(singleSpec region instanceType userData, .ok l.inst)] ∧
            renderBase64 engine (singleParams l.serverKp l.clientKp l.callbackToken
              l.callbackHmacKey) = .ok userData := by
  simp only [launch, ensures_bind, ensures_call, ensures_andThen_ok, ensures_ofExcept]
  intro clientKp tokenB hmacB serverKp
  rcases rendered : renderBase64 engine _ with e | userData
  · exact ⟨rfl, .inl rfl, .inl rfl⟩
  · simp only [ensures_bind, ensures_call, ensures_andThen_ok, ensures_ofExcept]
    rintro - (e | inst)
    · exact ⟨rfl, .inr rfl, .inr ⟨_, e, rfl⟩⟩
    · exact ⟨rfl, rfl, rfl, by simp, userData, rfl, rendered⟩

theorem establish_ensures (deps : ConnectDeps) (allowedIps : List String) (l : Launched) :
    (establish deps allowedIps l).Ensures fun t r => creates t = [] ∧ deletes t = [] ∧
      match r with
      | .error _ => ∃ n < 4, emitted t = [.booting, .exchangingKeys, .startingTunnel].take n
      | .ok conn => emitted t = [.booting, .exchangingKeys, .startingTunnel,
            .connected conn.inst.id conn.inst.ipv4] ∧ conn.inst.state = .running ∧
          (conn.inst = l.inst ∨ (⟨.get l.inst.id, .ok conn.inst⟩ : Exchange _ _) ∈ t) ∧
          ∃ ip, conn.inst.ipv4 = some ip ∧ tunnels t = [l.conf ip allowedIps] := by
  simp only [establish, ensures_bind, ensures_call, ensures_andThen_ok]
  intro _
  refine (waitForBoot_ensures deps l.inst deps.maxBootPolls).mono ?_
  rintro polls (e | running) ⟨polling, last⟩
  · simp only [ensures_andThen_error, creates_append, deletes_append, emitted_append,
      polling.creates, polling.deletes, polling.emitted]
    exact ⟨rfl, rfl, 1, by omega, rfl⟩
  · simp only [ensures_andThen_ok, creates_append, deletes_append, emitted_append, tunnels_append,
      polling.creates, polling.deletes, polling.emitted, polling.tunnels]
    by_cases up : running.state = .running
    · rw [if_neg (not_not_intro up)]
      have seen : running = l.inst ∨ (⟨.get l.inst.id, .ok running⟩ : Exchange _ _) ∈ polls :=
        (last running rfl).imp_right And.right
      rcases addr : running.ipv4 with _ | ip
      · exact ⟨rfl, rfl, 1, by omega, rfl⟩
      · simp only [ensures_bind, ensures_call, ensures_andThen_ok, ensures_ofExcept]
        rintro - (e | _ready)
        · exact ⟨rfl, rfl, 2, by omega, rfl⟩
        · simp only [ensures_bind, ensures_call, ensures_andThen_ok, ensures_ofExcept]
          rintro - (e | _)
          · exact ⟨rfl, rfl, 3, by omega, rfl⟩
          · intro _
            exact ⟨rfl, rfl, by rw [← addr]; rfl, up, seen.imp_right (by simp), ip, addr, rfl⟩
    · rw [if_pos up]
      exact ⟨rfl, rfl, 1, by omega, rfl⟩

/-- The exchanges of the clean-up, and nothing else. -/
theorem cleanUp_ensures (created : Option String) (e : CoreError) :
    (cleanUp created e).Ensures fun t r => r = .error e ∧ creates t = [] ∧
      (created = none → deletes t = [] ∧ emitted t = [.failed (stageOf e) e.display]) ∧
      ∀ id, created = some id → ∃ res, t = [⟨.emit .destroying, ()⟩, ⟨.delete id, res⟩,
        ⟨.emit (.failed (stageOf e) e.display), ()⟩] := by
  cases created with
  | none => exact fun _ => ⟨rfl, rfl, fun _ => ⟨rfl, rfl⟩, nofun⟩
  | some id => exact fun _ res _ => ⟨rfl, rfl, nofun, fun id' same => ⟨res, by cases same; rfl⟩⟩

/-! ## Whole connects -/

/-- The ways a connect can end. -/
inductive Outcome (engine : Minijinja) : Trace → Except CoreError Connection → Prop where
  | notCreated {t : Trace} {e : CoreError} {n : Nat} (early : n < 2)
      (created : creates t = [] ∨ ∃ spec e', creates t = [(spec, .error e')])
      (deleted : deletes t = [])
      (states : emitted t =
        [ConnectState.creatingInstance].take n ++
          [ConnectState.failed (stageOf e) e.display]) :
      Outcome engine t (.error e)
  | destroyed {t before : Trace} {e : CoreError} {spec : InstanceSpec} {inst : Instance} {n : Nat}
      {res : Except CoreError Unit} (late : n < 4) (created : creates t = [(spec, .ok inst)])
      (deleted : deletes before = [])
      (states : emitted before = .creatingInstance ::
        [ConnectState.booting, .exchangingKeys, .startingTunnel].take n)
      (cut : t = before ++ [⟨.emit .destroying, ()⟩, ⟨.delete inst.id, res⟩,
        ⟨.emit (.failed (stageOf e) e.display), ()⟩]) :
      Outcome engine t (.error e)
  | connected {t : Trace} {conn : Connection} {l : Launched} {region instanceType : String}
      {allowedIps : List String} {userData ip : String}
      (created : creates t = [(singleSpec region instanceType userData, .ok l.inst)])
      (deleted : deletes t = [])
      (states : emitted t = happyStates conn.inst.id conn.inst.ipv4)
      (generated : (⟨.generate, l.serverKp⟩ : Exchange _ _) ∈ t)
      (rendered : renderBase64 engine (singleParams l.serverKp l.clientKp l.callbackToken
        l.callbackHmacKey) = .ok userData)
      (running : conn.inst.state = .running)
      (seen : conn.inst = l.inst ∨ (⟨.get l.inst.id, .ok conn.inst⟩ : Exchange _ _) ∈ t)
      (address : conn.inst.ipv4 = some ip)
      (tunnel : tunnels t = [l.conf ip allowedIps]) :
      Outcome engine t (.ok conn)

theorem connect_ensures (engine : Minijinja) (deps : ConnectDeps) (region instanceType : String)
    (allowedIps : List String) :
    (connect engine deps region instanceType allowedIps).Ensures (Outcome engine) := by
  refine Prog.ensures_bind.mpr (Prog.ensures_bind.mpr ?_)
  refine Prog.Ensures.mono (launch_ensures engine region instanceType) ?_
  rintro t (e | l) ⟨deleted, launched⟩
  · obtain ⟨states, created⟩ := launched
    simp only [Prog.ensures_done, List.append_nil]
    refine Prog.Ensures.mono (cleanUp_ensures none e) ?_
    rintro t' _ ⟨rfl, created', cleaned, -⟩
    obtain ⟨deleted', states'⟩ := cleaned rfl
    have nowhere : creates (t ++ t') = creates t := by
      rw [creates_append, created', List.append_nil]
    have spared : deletes (t ++ t') = [] := by rw [deletes_append, deleted, deleted', List.append_nil]
    rcases states with states | states
    · exact .notCreated (n := 0) (by omega) (nowhere ▸ created) spared
        (by rw [emitted_append, states, states']; rfl)
    · exact .notCreated (n := 1) (by omega) (nowhere ▸ created) spared
        (by rw [emitted_append, states, states']; rfl)
  · obtain ⟨states, quiet, generated, userData, made, rendered⟩ := launched
    refine Prog.ensures_bind.mpr (Prog.Ensures.mono (establish_ensures deps allowedIps l) ?_)
    rintro t' (e | conn) ⟨created', deleted', established⟩
    · obtain ⟨n, small, states'⟩ := established
      simp only [Prog.ensures_done, List.append_nil]
      refine Prog.Ensures.mono (cleanUp_ensures (some l.inst.id) e) ?_
      rintro t'' _ ⟨rfl, created'', -, cleaned⟩
      obtain ⟨res, rfl⟩ := cleaned _ rfl
      have created : creates (t ++ t') = creates t := by
        rw [creates_append, created', List.append_nil]
      have deleted : deletes (t ++ t') = [] := by
        rw [deletes_append, deleted, deleted', List.append_nil]
      exact .destroyed small
        (by rw [creates_append, created'', List.append_nil, created, made])
        deleted (by rw [emitted_append, states, states', List.singleton_append]) rfl
    · obtain ⟨states', running, seen, ip, address, tunnel⟩ := established
      simp only [Prog.ensures_done, List.append_nil]
      have created : creates (t ++ t') = creates t := by
        rw [creates_append, created', List.append_nil]
      have deleted : deletes (t ++ t') = [] := by
        rw [deletes_append, deleted, deleted', List.append_nil]
      exact .connected (created.trans made) deleted (by rw [emitted_append, states, states']; rfl)
        (List.mem_append_left _ generated) rendered running
        (seen.imp_right (List.mem_append_right _)) address
        (by rw [tunnels_append, quiet, tunnel, List.nil_append])

namespace Outcome

variable {engine : Minijinja} {t : Trace} {r : Except CoreError Connection}

theorem creates_le (h : Outcome engine t r) : (creates t).length ≤ 1 := by
  cases h with
  | notCreated _ created =>
      rcases created with created | ⟨_, _, created⟩
      · simp [created]
      · simp [created]
  | destroyed _ created => simp [created]
  | connected created => simp [created]

theorem announced (h : Outcome engine t r) : Announced (emitted t) := by
  cases h with
  | @notCreated e n early _ _ states =>
      have part : [ConnectState.creatingInstance].take n = (happyStates "" none).take n := by
        interval_cases n <;> rfl
      rw [states, part, ← List.append_nil ((happyStates "" none).take n)]
      exact .broken (by omega) _ _ [] _ _ (.inl rfl)
  | @destroyed before e _ _ n _ late _ _ states cut =>
      have part : emitted before = (happyStates "" none).take (n + 1) := by
        rw [states]
        interval_cases n <;> rfl
      have broken := Announced.broken (n := n + 1) (by omega) "" none [.destroying] (stageOf e)
        e.display (.inr rfl)
      rw [List.append_assoc, ← part] at broken
      rw [cut, emitted_append]
      exact broken
  | connected _ _ states =>
      rw [states]
      exact .onTheWay _ _ (List.prefix_refl _)

/-- An error after the creation: the last call destroyed the node. -/
theorem destroys {e : CoreError} (h : Outcome engine t (.error e)) {spec : InstanceSpec}
    {inst : Instance} (made : (spec, .ok inst) ∈ creates t) :
    deletes t = [inst.id] ∧
      (∃ before res after, t = before ++ ⟨.delete inst.id, res⟩ :: after ∧
        ∀ x ∈ after, ¬ x.1.External) ∧
      ∃ before stage reason,
        emitted t = before ++ [ConnectState.destroying, ConnectState.failed stage reason] := by
  cases h with
  | notCreated _ created =>
      rcases created with created | ⟨_, _, created⟩
      · simp [created] at made
      · simp [created] at made
  | @destroyed before _ _ inst' _ res _ created deleted _ cut =>
      rw [created] at made
      obtain ⟨-, rfl⟩ : spec = _ ∧ inst = inst' := by simpa using made
      refine ⟨?_, ⟨before ++ [⟨.emit .destroying, ()⟩], res, [⟨.emit (.failed (stageOf e) e.display), ()⟩], ?_,
        ?_⟩,
        emitted before, stageOf e, e.display, ?_⟩
      · rw [cut, deletes_append, deleted]
        rfl
      · rw [cut, List.append_assoc]
        rfl
      · exact List.forall_mem_singleton.mpr id
      · rw [cut, emitted_append]
        rfl

end Outcome

/-- Connects leak no node and pin the key of the node they made, whatever the provider, the
tunnel controller and the fetcher answer. -/
theorem connect_safe (engine : Minijinja) (lawful : engine.Lawful) (deps : ConnectDeps)
    (region instanceType : String) (allowedIps : List String) :
    (∀ t r, Prog.Runs (connect engine deps region instanceType allowedIps) t r →
      (creates t).length ≤ 1 ∧ Announced (emitted t) ∧
      (∀ e, r = .error e → ∀ spec inst, (spec, .ok inst) ∈ creates t →
        deletes t = [inst.id] ∧
        (∃ before res after, t = before ++ ⟨.delete inst.id, res⟩ :: after ∧
          ∀ x ∈ after, ¬ x.1.External) ∧
        ∃ before stage reason,
          emitted t = before ++ [ConnectState.destroying, ConnectState.failed stage reason]) ∧
      (∀ conn, r = .ok conn → deletes t = [] ∧ ∃ spec inst running ip kp params conf,
        creates t = [(spec, .ok inst)] ∧
        Reported t inst.id running ∧ running.state = .running ∧ running.ipv4 = some ip ∧
        (⟨.generate, kp⟩ : Exchange _ _) ∈ t ∧ params.serverPrivkey = kp.privateBase64 ∧
        Configures spec.userData params ∧ tunnels t = [conf] ∧
        conf.serverPublicKey = kp.publicBase64 ∧ conf.serverEndpoint = ip ++ ":51820")) ∧
    ∀ t p, Prog.Steps (connect engine deps region instanceType allowedIps) t p →
      (creates t).length ≤ 1 ∧ ∃ states, Announced states ∧ emitted t <+: states := by
  have outcome := Prog.ensures_iff.mp (connect_ensures engine deps region instanceType allowedIps)
  refine ⟨fun t r run => ?_, fun t p steps => ?_⟩
  · have out := outcome t r run
    refine ⟨out.creates_le, out.announced, ?_, ?_⟩
    · rintro e rfl spec inst made
      exact out.destroys made
    · rintro conn rfl
      cases out with
      | @connected _ l _ _ allowedIps userData ip created deleted _ generated rendered running
          seen address tunnel =>
          refine ⟨deleted, _, l.inst, conn.inst, ip, l.serverKp, _, _, created, ?_, running,
            address, generated, rfl, configures_renderBase64 lawful rendered, tunnel, rfl, rfl⟩
          rcases seen with same | seen
          · exact .inl ⟨_, mem_creates.mp (by rw [created, same]; exact List.mem_singleton_self _),
              by rw [same]⟩
          · exact .inr seen
  · obtain ⟨t', r, run⟩ := Prog.Steps.extend steps
    have out := outcome (t ++ t') r run
    refine ⟨?_, _, out.announced, ?_⟩
    · have := out.creates_le
      rw [creates_append, List.length_append] at this
      omega
    · rw [emitted_append]
      exact List.prefix_append _ _

/-- A connect whose node boots at the first poll and never calls back. -/
def mockInstance : Instance :=
  { id := "inst-1000", region := "eu-central", instanceType := "g6-nanode-1", state := .booting,
    ipv4 := some "203.0.113.1", tags := ["sentinel-ephemeral"] }

def silentNode : Trace :=
  let kp : WgKeypair := ⟨[1], [2]⟩
  let zeros := Vector.replicate 32 (0 : UInt8)
  let key := hex zeros.toList
  let userData := Base64.encode (utf8 (fill (singleParams kp kp key key).context TEMPLATE))
  let e : CoreError := .provision "keys" "callback timed out"
  [⟨.generate, kp⟩, ⟨.fillBytes 32, zeros⟩, ⟨.fillBytes 32, zeros⟩, ⟨.generate, kp⟩,
    ⟨.emit .creatingInstance, ()⟩,
    ⟨.create (singleSpec "eu-central" "g6-nanode-1" userData), .ok mockInstance⟩,
    ⟨.emit .booting, ()⟩, ⟨.get "inst-1000", .ok { mockInstance with state := .running }⟩,
    ⟨.emit .exchangingKeys, ()⟩, ⟨.fetch "203.0.113.1" key key, .error e⟩,
    ⟨.emit .destroying, ()⟩, ⟨.delete "inst-1000", .ok ()⟩,
    ⟨.emit (.failed "keys" e.display), ()⟩]

theorem silentNode_destroyed : deletes silentNode = ["inst-1000"] := by
  have run : Prog.Runs (connect fillEngine ⟨10, 0⟩ "eu-central" "g6-nanode-1" [])
      silentNode (.error (.provision "keys" "callback timed out")) := by
    iterate 13 refine .cons ?_
    exact .nil _
  exact (((connect_safe fillEngine fillEngine_lawful ⟨10, 0⟩ "eu-central" "g6-nanode-1" []).1
    _ _ run).2.2.1 _ rfl _ mockInstance (mem_creates.mpr (by simp [silentNode]; exact rfl))).1

end Sentinel.Vpn
