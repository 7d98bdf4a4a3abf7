import Sentinel.Vpn.Multihop

/-!
# Chains are wired consistently and never left half-built

The main invariant of the loop of `multihop_run`, `BuiltTo`, describes the hops built so far
as a list that starts with the newest one: it is the end of the final chain. `CleanedUp` is
what the error exits owe: the nodes created so far, and every node created since.
-/

namespace Sentinel.Vpn

open Atomic Routine

/-! ## Parts that create nothing -/

/-- No node is created or destroyed and no tunnel is opened. -/
structure Quiet (t : Trace) : Prop where
  creates : creates t = []
  deletes : deletes t = []
  tunnels : tunnels t = []

theorem Quiet.nil : Quiet [] := ⟨rfl, rfl, rfl⟩

theorem Quiet.append {t t' : Trace} (h : Quiet t) (h' : Quiet t') : Quiet (t ++ t') :=
  ⟨by rw [creates_append, h.creates, h'.creates, List.append_nil],
    by rw [deletes_append, h.deletes, h'.deletes, List.append_nil],
    by rw [tunnels_append, h.tunnels, h'.tunnels, List.append_nil]⟩

theorem Polling.quiet {id : String} {t : Trace} (h : Polling id t) : Quiet t :=
  ⟨h.creates, h.deletes, h.tunnels⟩

theorem index_eq {α : Type} {list : List α} {i : Nat} {a : α} (h : list[i]? = some a) :
    index list i = pure a := by
  rw [index, h]

theorem uuids_ensures (n : Nat) :
    (uuids n).Ensures fun t r => Quiet t ∧ ∃ s, r = .ok s := by
  induction n with
  | zero => exact ⟨.nil, "", rfl⟩
  | succ n ih =>
      simp only [uuids, ensures_bind, ensures_call, ensures_andThen_ok]
      refine fun u => ih.mono ?_
      rintro t _ ⟨quiet, s, rfl⟩
      exact ⟨Quiet.append ⟨rfl, rfl, rfl⟩ (quiet.append .nil), _, rfl⟩

theorem randHex_ensures (bytes : Nat) :
    (randHex bytes).Ensures fun t r => Quiet t ∧ ∃ s, r = .ok s := by
  rw [randHex, ensures_bind]
  refine (uuids_ensures _).mono ?_
  rintro t _ ⟨quiet, s, rfl⟩
  exact ⟨quiet.append .nil, _, rfl⟩

theorem generateMany_ensures (n : Nat) :
    (generateMany n).Ensures fun t r => Quiet t ∧ ∃ kps, r = .ok kps ∧ kps.length = n ∧
      ∀ kp ∈ kps, (⟨.generate, kp⟩ : Exchange _ _) ∈ t := by
  induction n with
  | zero => exact ⟨.nil, [], rfl, rfl, List.forall_mem_nil _⟩
  | succ n ih =>
      simp only [generateMany, ensures_bind, ensures_call, ensures_andThen_ok]
      refine fun kp => ih.mono ?_
      rintro t _ ⟨quiet, kps, rfl, length, generated⟩
      refine ⟨Quiet.append ⟨rfl, rfl, rfl⟩ (quiet.append .nil), kp :: kps, rfl,
        congrArg (· + 1) length, ?_⟩
      exact List.forall_mem_cons.mpr ⟨by simp, fun kp' mem => by simp [generated kp' mem]⟩

theorem destroyChain_ensures (ids : List String) :
    (destroyChain ids).Ensures fun t r => deletes t = ids ∧ creates t = [] ∧ takes t = [] ∧
      r = .ok () := by
  induction ids with
  | nil => exact ⟨rfl, rfl, rfl, rfl⟩
  | cons id ids ih =>
      intro res
      refine Prog.Ensures.mono ih ?_
      rintro t _ ⟨deleted, created, taken, rfl⟩
      exact ⟨congrArg (id :: ·) deleted, created, taken, rfl⟩

theorem sweep_ensures (keep : List String) (list : List Instance) :
    (sweep keep list).Ensures fun t _ => creates t = [] ∧ tunnels t = [] := by
  induction list with
  | nil => exact ⟨rfl, rfl⟩
  | cons inst rest ih =>
      rw [sweep]
      split
      · exact ih
      · simp only [ensures_bind, ensures_call, ensures_andThen_ok]
        refine fun deleted => ih.mono ?_
        rintro t (e | reaped) ⟨created, tunnelled⟩
        · simp only [ensures_andThen_error, List.append_nil]
          exact ⟨created, tunnelled⟩
        · simp only [ensures_andThen_ok, ensures_pure, List.append_nil]
          exact ⟨created, tunnelled⟩

theorem orphanSweepKeeping_ensures (keep : List String) :
    (orphanSweepKeeping keep).Ensures fun t _ => creates t = [] ∧ tunnels t = [] := by
  rintro (e | list)
  · exact ⟨rfl, rfl⟩
  · exact sweep_ensures keep list

/-! ## Cleaning up -/

/-- The nodes in `created` are destroyed, and every node created here is destroyed later. -/
structure CleanedUp (created : List String) (t : Trace) : Prop where
  owed : ∀ id ∈ created, id ∈ deletes t
  made : ∀ before after spec inst, t = before ++ ⟨.create spec, .ok inst⟩ :: after →
    inst.id ∈ deletes after

namespace CleanedUp

variable {created : List String} {t t' : Trace}

theorem of_creates_eq_nil (nothing : creates t = []) (owed : ∀ id ∈ created, id ∈ deletes t) :
    CleanedUp created t := by
  refine ⟨owed, fun before after spec inst cut => ?_⟩
  have mem : (spec, .ok inst) ∈ creates t := mem_creates.mpr (by simp [cut])
  simp [nothing] at mem

/-- What was created first is destroyed by a later part that knows of it. -/
theorem append {more : List String} (h : CleanedUp more t') (known : ∀ id ∈ created, id ∈ more)
    (new : ∀ spec inst, (spec, .ok inst) ∈ creates t → inst.id ∈ more) :
    CleanedUp created (t ++ t') := by
  refine ⟨fun id mem => ?_, fun before after spec inst cut => ?_⟩
  · rw [deletes_append]
    exact List.mem_append_right _ (h.owed id (known id mem))
  · rcases List.append_eq_append_iff.mp cut with ⟨mid, -, rest⟩ | ⟨mid, first, rest⟩
    · exact h.made mid after spec inst rest
    · cases mid with
      | nil => exact h.made [] after spec inst (by simpa using rest.symm)
      | cons x mid =>
          rw [List.cons_append] at rest
          obtain ⟨rfl, rfl⟩ := List.cons.inj rest
          rw [deletes_append]
          refine List.mem_append_right _ (h.owed _ (new spec inst (mem_creates.mpr ?_)))
          simp [first]

theorem append_right (h : CleanedUp created t) (nothing : creates t' = []) :
    CleanedUp created (t ++ t') := by
  refine ⟨fun id mem => ?_, fun before after spec inst cut => ?_⟩
  · rw [deletes_append]
    exact List.mem_append_left _ (h.owed id mem)
  · have never : (spec, .ok inst) ∉ creates t' := by simp [nothing]
    rcases List.append_eq_append_iff.mp cut with ⟨mid, -, rest⟩ | ⟨mid, first, rest⟩
    · exact (never (mem_creates.mpr (by simp [rest]))).elim
    · cases mid with
      | nil =>
          rw [List.nil_append] at rest
          exact (never (mem_creates.mpr (by simp [← rest]))).elim
      | cons x mid =>
          rw [List.cons_append] at rest
          obtain ⟨rfl, rfl⟩ := List.cons.inj rest
          rw [deletes_append]
          exact List.mem_append_left _ (h.made before mid spec inst first)

end CleanedUp

/-- The node of `inst` was seen running at this address. -/
def Addressed (t : Trace) (inst : Instance) (ip : String) : Prop :=
  ∃ running, (running = inst ∨ (⟨.get inst.id, .ok running⟩ : Exchange _ _) ∈ t) ∧
    running.state = .running ∧ running.ipv4 = some ip

theorem Addressed.mono {t t' : Trace} {inst : Instance} {ip : String} (h : Addressed t inst ip)
    (sub : ∀ x ∈ t, x ∈ t') : Addressed t' inst ip := by
  obtain ⟨running, seen, up, addr⟩ := h
  exact ⟨running, seen.imp_right (sub _), up, addr⟩

theorem bail_ensures {α : Type} (created : List String) (message : String) :
    (bail created message : Desk α).Ensures fun t r => creates t = [] ∧ CleanedUp created t ∧
      r = .error (.err message) := by
  rw [bail, ensures_bind]
  refine (destroyChain_ensures created).mono ?_
  rintro t _ ⟨deleted, created', -, rfl⟩
  have quiet : creates (t ++ []) = [] := by rw [List.append_nil, created']
  refine ⟨quiet, .of_creates_eq_nil quiet fun id mem => ?_, rfl⟩
  rwa [List.append_nil, deleted]

theorem bootHop_ensures (deps : ConnectDeps) (inst : Instance) (polls : Nat) :
    (bootHop deps inst polls).Ensures fun t r => Polling inst.id t ∧
      ∃ running, r = .ok running ∧
        (running = inst ∨ (⟨.get inst.id, .ok running⟩ : Exchange _ _) ∈ t) := by
  induction polls with
  | zero => exact ⟨.nil, inst, rfl, .inl rfl⟩
  | succ polls ih =>
      -- a poll that does not see the instance running leaves the rest of the loop
      have again : ∀ before : Trace, Polling inst.id before →
          (bootHop deps inst polls).Ensures fun t r => Polling inst.id (before ++ t) ∧
            ∃ running, r = .ok running ∧
              (running = inst ∨ (⟨.get inst.id, .ok running⟩ : Exchange _ _) ∈ before ++ t) := by
        refine fun before polled => ih.mono ?_
        rintro t r ⟨polling, running, rfl, seen⟩
        exact ⟨polled.append polling, running, rfl, seen.imp_right (List.mem_append_right _)⟩
      simp only [bootHop, ensures_bind]
      refine pause_ensures deps inst.id fun waited waiting => ?_
      simp only [ensures_bind, ensures_call, ensures_andThen_ok]
      rintro (e | cur)
      · simpa only [List.append_assoc] using again _ (waiting.append (.get (.error e)))
      · by_cases up : cur.state = .running
        · simp only [if_pos up]
          exact ⟨waiting.append (.get _), cur, rfl, .inr (by simp)⟩
        · simp only [if_neg up]
          simpa only [List.append_assoc] using again _ (waiting.append (.get (.ok cur)))

theorem awaitHop_ensures (deps : ConnectDeps) (i : Nat) (created : List String)
    (inst : Instance) :
    (awaitHop deps i created inst).Ensures fun t r =>
      match r with
      | .ok ip => Quiet t ∧ Addressed t inst ip
      | .error f => creates t = [] ∧ CleanedUp created t ∧ ∃ message, f = .err message := by
  have cleaned : ∀ (before : Trace) (message : String), Quiet before →
      (bail created message : Desk String).Ensures fun t r =>
        match r with
        | .ok ip => Quiet (before ++ t) ∧ Addressed (before ++ t) inst ip
        | .error f => creates (before ++ t) = [] ∧ CleanedUp created (before ++ t) ∧
            ∃ message, f = .err message := by
    refine fun before message quiet => (bail_ensures created message).mono ?_
    rintro t _ ⟨nothing, cleaned, rfl⟩
    refine ⟨by rw [creates_append, quiet.creates, nothing, List.append_nil], ?_, message, rfl⟩
    exact cleaned.append (fun _ => id) (by simp [quiet.creates])
  simp only [awaitHop, ensures_bind, ensures_call, ensures_andThen_ok]
  refine fun _ => (bootHop_ensures deps inst deps.maxBootPolls).mono ?_
  rintro polls _ ⟨polling, running, rfl, seen⟩
  have quiet : Quiet ([⟨.emit .booting, ()⟩] ++ polls) :=
    Quiet.append ⟨rfl, rfl, rfl⟩ polling.quiet
  simp only [ensures_andThen_ok]
  by_cases up : running.state = .running
  · rw [if_neg (not_not_intro up)]
    rcases addr : running.ipv4 with _ | ip
    · simpa only [List.append_assoc] using cleaned _ _ quiet
    · refine ⟨quiet.append .nil, running, seen.imp_right fun mem => ?_, up, addr⟩
      simp [mem]
  · rw [if_pos up]
    simpa only [List.append_assoc] using cleaned _ _ quiet

/-! ## The wiring -/

/-- A hop that was built: its parameters, what was created from them, and its address. -/
structure Hop where
  params : CloudInitParams
  spec : InstanceSpec
  inst : Instance
  ip : String

namespace ChainPlan

variable (plan : ChainPlan)

def serverKp (i : Nat) : WgKeypair := plan.serverKps.getD i ⟨[], []⟩
def wg1Kp (i : Nat) : WgKeypair := plan.wg1Kps.getD i ⟨[], []⟩

/-- There are enough keys for the regions. -/
structure Valid : Prop where
  hops : 2 ≤ plan.regions.length
  servers : plan.serverKps.length = plan.regions.length
  links : plan.wg1Kps.length = plan.regions.length - 1

/-- The public key of hop `i`'s upstream peer. -/
def upstreamKey (i : Nat) : String :=
  if i = 0 then plan.clientKp.publicBase64 else (plan.wg1Kp (i - 1)).publicBase64

/-- The tunnel address of hop `i`'s upstream peer. -/
def upstreamIp (i : Nat) : String := if i = 0 then "10.66.0.2" else "10.67.0.2"

/-- The link of hop `i` to the hop after it. -/
def link (i : Nat) (next : Hop) : NextHop :=
  { wg1Privkey := (plan.wg1Kp i).privateBase64, wg1Address := "10.67.0.2/32",
    peerPubkey := (plan.serverKp (i + 1)).publicBase64, peerEndpoint := next.ip ++ ":51820" }

end ChainPlan

/-- Hop `i` is configured for the next hop, if there is one. -/
structure HopAt (engine : Minijinja) (plan : ChainPlan) (i : Nat) (next : Option Hop)
    (h : Hop) : Prop where
  rendered : renderBase64 engine h.params = .ok h.spec.userData
  server : h.params.serverPrivkey = (plan.serverKp i).privateBase64
  upstream : h.params.clientPubkey = plan.upstreamKey i
  peer : h.params.clientIp = ChainPlan.upstreamIp i
  downstream : h.params.nextHop = next.map (plan.link i)

/-- The hops from hop `i` to the exit. -/
def Wired (engine : Minijinja) (plan : ChainPlan) : Nat → List Hop → Prop
  | _, [] => True
  | i, h :: rest => HopAt engine plan i rest.head? h ∧ Wired engine plan (i + 1) rest

/-- The loop has built these hops and goes on with hop `i - 1`. -/
structure BuiltTo (engine : Minijinja) (plan : ChainPlan) (i : Nat) (st : ChainState)
    (hops : List Hop) : Prop where
  length : hops.length + i = plan.regions.length
  created : st.created = (hops.map (·.inst.id)).reverse
  downstream : st.downstream =
    hops.head?.map fun h => ((plan.serverKp i).publicBase64, h.ip)
  entry : i = 0 → st.entryIp = hops.head?.map (·.ip)
  wired : Wired engine plan i hops

theorem getElem?_eq_getD {α : Type} {l : List α} {i : Nat} (h : i < l.length) (d : α) :
    l[i]? = some (l.getD i d) := by
  rw [List.getD_eq_getElem?_getD, List.getElem?_eq_getElem h, Option.getD_some]

theorem upstreamPeer_eq {plan : ChainPlan} (valid : plan.Valid) {i : Nat}
    (small : i < plan.regions.length) :
    upstreamPeer plan i = pure (plan.upstreamKey i, ChainPlan.upstreamIp i) := by
  by_cases first : i = 0
  · rw [upstreamPeer, ChainPlan.upstreamKey, ChainPlan.upstreamIp, if_pos first, if_pos first,
      if_pos first]
  · have bound : i - 1 < plan.wg1Kps.length := by
      have := valid.links
      omega
    rw [upstreamPeer, ChainPlan.upstreamKey, ChainPlan.upstreamIp, if_neg first, if_neg first,
      if_neg first, index_eq (getElem?_eq_getD bound ⟨[], []⟩)]
    rfl

theorem nextHopOf_eq {engine : Minijinja} {plan : ChainPlan} (valid : plan.Valid) {i : Nat}
    {st : ChainState} {hops : List Hop} (built : BuiltTo engine plan (i + 1) st hops) :
    nextHopOf plan i st = pure (hops.head?.map (plan.link i)) := by
  have length := built.length
  rw [nextHopOf]
  cases hops with
  | nil =>
      rw [List.length_nil] at length
      rw [if_pos (by omega)]
      rfl
  | cons next rest =>
      rw [List.length_cons] at length
      have bound : i < plan.wg1Kps.length := by
        have := valid.links
        omega
      rw [if_neg (by omega), built.downstream, List.head?_cons, Option.map_some,
        index_eq (getElem?_eq_getD bound ⟨[], []⟩)]
      rfl

/-! ## The loop -/

/-- One round builds one hop in front of the others, or cleans up all of them. -/
theorem provisionHop_ensures {engine : Minijinja} (deps : ConnectDeps) {plan : ChainPlan}
    (valid : plan.Valid) {i : Nat} {st : ChainState} {hops : List Hop}
    (built : BuiltTo engine plan (i + 1) st hops) :
    (provisionHop engine deps plan i st).Ensures fun t r =>
      match r with
      | .error f => CleanedUp st.created t ∧ ∃ message, f = .err message
      | .ok st' => ∃ h, BuiltTo engine plan i st' (h :: hops) ∧ deletes t = [] ∧ tunnels t = [] ∧
          creates t = [(h.spec, .ok h.inst)] ∧ Addressed t h.inst h.ip := by
  have length := built.length
  have upstream := upstreamPeer_eq valid (i := i) (by omega)
  have server : i < plan.serverKps.length := by
    have := valid.servers
    omega
  have region : i < plan.regions.length := by omega
  simp only [provisionHop, upstream, nextHopOf_eq valid built,
    index_eq (getElem?_eq_getD server ⟨[], []⟩), ensures_bind, ensures_pure, ensures_andThen_ok,
    List.nil_append]
  refine (randHex_ensures 16).mono ?_
  rintro drawn _ ⟨quiet, token, rfl⟩
  simp only [ensures_bind, ensures_andThen_ok]
  refine (randHex_ensures 32).mono ?_
  rintro drawn' _ ⟨quiet', key, rfl⟩
  have still : Quiet (drawn ++ drawn') := quiet.append quiet'
  simp only [ensures_andThen_ok, ← List.append_assoc]
  generalize drawn ++ drawn' = before at still
  -- a failure before `create` has returned
  have early : ∀ (called : Trace) (message : String), creates (before ++ called) = [] ∨
      (∃ spec e, creates (before ++ called) = [(spec, .error e)]) →
      (bail st.created message : Desk ChainState).Ensures fun t r =>
        CleanedUp st.created (before ++ called ++ t) ∧ r = .error (.err message) := by
    refine fun called message nothing => (bail_ensures st.created message).mono ?_
    rintro t _ ⟨-, cleaned, rfl⟩
    refine ⟨cleaned.append (fun _ => id) fun spec inst mem => ?_, rfl⟩
    rcases nothing with nothing | ⟨_, _, nothing⟩
    · simp [nothing] at mem
    · simp [nothing] at mem
  rcases rendered : renderBase64 engine _ with e | userData
  · refine (early [] e.display (.inl (by rw [List.append_nil, still.creates]))).mono ?_
    rintro t _ ⟨cleaned, rfl⟩
    exact ⟨by simpa only [List.append_nil] using cleaned, _, rfl⟩
  · simp only [ensures_bind, ensures_call, ensures_andThen_ok,
      index_eq (getElem?_eq_getD region ""), ensures_pure, List.nil_append]
    have called : ∀ spec res, creates (before ++ [⟨.create spec, res⟩]) = [(spec, res)] := by
      intro spec res
      rw [creates_append, still.creates]
      rfl
    rintro (e | inst)
    · refine (early _ e.display (.inr ⟨hopSpec plan i (plan.regions.getD i "") userData, e,
        called _ (.error e)⟩)).mono ?_
      rintro t _ ⟨cleaned, rfl⟩
      exact ⟨by simpa only [List.append_assoc] using cleaned, _, rfl⟩
    · simp only [ensures_bind]
      refine (awaitHop_ensures deps i (st.created ++ [inst.id]) inst).mono ?_
      rintro t (f | ip) awaited
      · obtain ⟨-, cleaned, message⟩ := awaited
        simp only [ensures_andThen_error, List.append_nil, ← List.append_assoc]
        refine ⟨cleaned.append (fun id mem => List.mem_append_left _ mem) ?_, message⟩
        rw [called _ (.ok inst)]
        rintro spec inst' mem
        obtain ⟨-, rfl⟩ : spec = _ ∧ inst' = inst := by simpa using mem
        exact List.mem_append_right _ (List.mem_singleton_self _)
      · obtain ⟨quiet, addressed⟩ := awaited
        simp only [ensures_andThen_ok, ensures_pure, List.append_nil, ← List.append_assoc]
        have hop : HopAt engine plan i hops.head?
            ⟨_, hopSpec plan i (plan.regions.getD i "") userData, inst, ip⟩ :=
          ⟨rendered, rfl, rfl, rfl, rfl⟩
        refine ⟨_, ⟨?_, ?_, rfl, fun first => if_pos first, hop, built.wired⟩, ?_, ?_, ?_, ?_⟩
        · rw [List.length_cons]
          omega
        · rw [built.created, List.map_cons, List.reverse_cons]
        · rw [deletes_append, deletes_append, still.deletes, quiet.deletes]
          rfl
        · rw [tunnels_append, tunnels_append, still.tunnels, quiet.tunnels]
          rfl
        · rw [creates_append, called _ (.ok inst), quiet.creates, List.append_nil]
        · exact addressed.mono fun x mem => List.mem_append_right _ mem

theorem provisionHops_ensures {engine : Minijinja} (deps : ConnectDeps) {plan : ChainPlan}
    (valid : plan.Valid) (i : Nat) {st : ChainState} {hops : List Hop}
    (built : BuiltTo engine plan i st hops) :
    (provisionHops engine deps plan i st).Ensures fun t r =>
      match r with
      | .error f => CleanedUp st.created t ∧ ∃ message, f = .err message
      | .ok st' => ∃ new, BuiltTo engine plan 0 st' (new ++ hops) ∧ tunnels t = [] ∧
          creates t = new.reverse.map (fun h => (h.spec, .ok h.inst)) ∧
          ∀ h ∈ new, Addressed t h.inst h.ip := by
  induction i generalizing st hops with
  | zero => exact ⟨[], built, rfl, rfl, List.forall_mem_nil _⟩
  | succ i ih =>
      rw [provisionHops, ensures_bind]
      refine (provisionHop_ensures deps valid built).mono ?_
      rintro t (f | st') round
      · simpa only [ensures_andThen_error, List.append_nil] using round
      · obtain ⟨h, built', -, noTunnel, made, addressed⟩ := round
        refine (ih built').mono ?_
        have owed : st'.created = st.created ++ [h.inst.id] := by
          rw [built'.created, built.created, List.map_cons, List.reverse_cons]
        rintro t' (f | st'') later
        · obtain ⟨cleaned, message⟩ := later
          refine ⟨cleaned.append (fun id mem => by simp [owed, mem]) fun spec inst mem => ?_,
            message⟩
          rw [made] at mem
          obtain ⟨-, rfl⟩ : spec = _ ∧ inst = _ := by simpa using mem
          simp [owed]
        · obtain ⟨new, built'', noTunnel', made', addressed'⟩ := later
          refine ⟨new ++ [h], ?_, ?_, ?_, ?_⟩
          · rwa [List.append_assoc]
          · rw [tunnels_append, noTunnel, noTunnel', List.append_nil]
          · rw [creates_append, made, made', List.reverse_append]
            rfl
          · refine List.forall_mem_append.mpr ⟨fun h' mem => ?_, ?_⟩
            · exact (addressed' h' mem).mono fun x mem => List.mem_append_right _ mem
            · exact List.forall_mem_singleton.mpr
                (addressed.mono fun x mem => List.mem_append_left _ mem)

theorem engageKillswitch_ensures (entryIp : String) :
    (engageKillswitch entryIp).Ensures fun t r => Quiet t ∧ r = .ok () := by
  simp only [engageKillswitch, ensures_bind, ensures_call, ensures_andThen_ok]
  rintro (- | -)
  · exact ⟨⟨rfl, rfl, rfl⟩, rfl⟩
  · simp only [if_true, ensures_bind, ensures_call, ensures_andThen_ok]
    rintro (e | -)
    · exact fun _ => ⟨⟨rfl, rfl, rfl⟩, rfl⟩
    · exact ⟨⟨rfl, rfl, rfl⟩, rfl⟩

/-- Opening the tunnel records the chain, or cleans it up. -/
theorem openChain_ensures {engine : Minijinja} {plan : ChainPlan} (valid : plan.Valid)
    (entryLabel : String) {st : ChainState} {h : Hop} {rest : List Hop}
    (built : BuiltTo engine plan 0 st (h :: rest)) :
    (openChain plan entryLabel st).Ensures fun t r => creates t = [] ∧
      match r with
      | .error f => CleanedUp st.created t ∧ ∃ message, f = .err message
      | .ok _ => ∃ active conf, (⟨.setVpn active, ()⟩ : Exchange _ _) ∈ t ∧
          (∀ held, slot held t = some active) ∧
          active.chain = (h :: rest).map (·.inst.id) ∧ active.persistent = false ∧
          tunnels t = [conf] ∧ conf.serverPublicKey = (plan.serverKp 0).publicBase64 ∧
          conf.serverEndpoint = h.ip ++ ":51820" ∧ conf.clientAddress = "10.66.0.2/32" := by
  have servers := valid.servers
  have hops := valid.hops
  have chain : st.created.reverse = (h :: rest).map (·.inst.id) := by
    rw [built.created, List.reverse_reverse]
  simp only [openChain, built.entry rfl, List.head?_cons, Option.map_some, unwrap,
    index_eq (getElem?_eq_getD (show 0 < plan.serverKps.length by omega) ⟨[], []⟩), chain,
    index_eq (show ((h :: rest).map (·.inst.id))[0]? = some h.inst.id from rfl),
    ensures_bind, ensures_pure, ensures_call, ensures_andThen_ok, List.nil_append]
  rintro - - allowedIps (e | -)
  · simp only [ensures_bind, ensures_call, ensures_andThen_ok]
    refine fun _ => (bail_ensures st.created e.display).mono ?_
    rintro t _ ⟨nothing, cleaned, rfl⟩
    refine ⟨nothing, ?_, _, rfl⟩
    exact cleaned.append (t := [_, _, _, _, _]) (fun _ => id) (by rintro _ _ ⟨⟩)
  · simp only [ensures_bind]
    refine (engageKillswitch_ensures h.ip).mono ?_
    rintro t _ ⟨quiet, rfl⟩
    simp only [ensures_bind, ensures_pure, ensures_call, ensures_andThen_ok, creates_append,
      tunnels_append, quiet.creates, quiet.tunnels]
    refine fun startedAt _ _ _ => ⟨rfl, ⟨h.inst.id, st.created.reverse, entryLabel, plan.itype,
      st.exitIp, startedAt, false⟩, _, ?_, fun held => ?_, chain, rfl, rfl, rfl, rfl, rfl⟩
    · simp
    · simp only [slot_append]
      rfl

/-! ## Whole chains -/

theorem Wired.get {engine : Minijinja} {plan : ChainPlan} {hops : List Hop} {i j : Nat} {h : Hop}
    (wired : Wired engine plan i hops) (mem : hops[j]? = some h) :
    HopAt engine plan (i + j) hops[j + 1]? h := by
  induction hops generalizing i j with
  | nil => simp at mem
  | cons first rest ih =>
      cases j with
      | zero =>
          cases mem
          simpa only [List.getElem?_cons_succ, ← List.head?_eq_getElem?, Nat.add_zero] using wired.1
      | succ j =>
          have := ih wired.2 (by simpa only [List.getElem?_cons_succ] using mem)
          simpa only [List.getElem?_cons_succ, Nat.add_right_comm, Nat.add_assoc] using this

/-- The chain fits together: each node runs a generated key at the address it was seen at,
and each link joins the keys and the addresses of two neighbours. -/
structure Consistent (t : Trace) (hops : List Hop) (serverKp wg1Kp : Nat → WgKeypair) : Prop where
  servers : ∀ i < hops.length, (⟨.generate, serverKp i⟩ : Exchange _ _) ∈ t
  links : ∀ i, i + 1 < hops.length → (⟨.generate, wg1Kp i⟩ : Exchange _ _) ∈ t
  node : ∀ i (h : Hop), hops[i]? = some h → Configures h.spec.userData h.params ∧
    h.params.serverPrivkey = (serverKp i).privateBase64 ∧ Addressed t h.inst h.ip
  link : ∀ i (h h' : Hop), hops[i]? = some h → hops[i + 1]? = some h' → ∃ next,
    h.params.nextHop = some next ∧ next.wg1Privkey = (wg1Kp i).privateBase64 ∧
    next.peerPubkey = (serverKp (i + 1)).publicBase64 ∧
    next.peerEndpoint = h'.ip ++ ":51820" ∧ h'.params.clientPubkey = (wg1Kp i).publicBase64

theorem Consistent.mono {t t' : Trace} {hops : List Hop} {serverKp wg1Kp : Nat → WgKeypair}
    (h : Consistent t hops serverKp wg1Kp) (sub : ∀ x ∈ t, x ∈ t') :
    Consistent t' hops serverKp wg1Kp where
  servers i small := sub _ (h.servers i small)
  links i small := sub _ (h.links i small)
  node i hop mem := by
    obtain ⟨configured, server, addressed⟩ := h.node i hop mem
    exact ⟨configured, server, addressed.mono sub⟩
  link := h.link

/-- The tunnel addresses of the hops. -/
structure Numbered (hops : List Hop) : Prop where
  peer : ∀ i h, hops[i]? = some h → h.params.clientIp = ChainPlan.upstreamIp i
  link : ∀ i h, hops[i]? = some h → h.params.nextHop.map NextHop.wg1Address =
    if i + 1 < hops.length then some "10.67.0.2/32" else none

/-- A recorded chain. -/
structure Recorded (n : Nat) (t : Trace) (active : VpnActive) : Prop where
  chain : ∃ (hops : List Hop) (serverKp wg1Kp : Nat → WgKeypair) (conf : ClientConf) (entry : Hop),
    hops.length = n ∧ creates t = hops.reverse.map (fun h => (h.spec, .ok h.inst)) ∧
    Consistent t hops serverKp wg1Kp ∧ active.chain = hops.map (·.inst.id) ∧
    hops.head? = some entry ∧ tunnels t = [conf] ∧
    conf.serverPublicKey = (serverKp 0).publicBase64 ∧
    conf.serverEndpoint = entry.ip ++ ":51820" ∧
    Numbered hops ∧ conf.clientAddress = "10.66.0.2/32"
  recorded : (⟨.setVpn active, ()⟩ : Exchange _ _) ∈ t
  held : ∀ before, slot before t = some active
  ephemeral : active.persistent = false

/-- What is recorded stays so whatever else is called around it. -/
theorem Recorded.around {n : Nat} {t : Trace} {active : VpnActive} (h : Recorded n t active)
    (before after : Trace) (created : creates before = [] ∧ creates after = [])
    (tunnelled : tunnels before = [] ∧ tunnels after = []) (left : LeavesSlot after) :
    Recorded n (before ++ (t ++ after)) active where
  chain := by
    obtain ⟨hops, serverKp, wg1Kp, conf, entry, length, made, consistent, chain, head, tunnel,
      key, endpoint, numbered, client⟩ := h.chain
    refine ⟨hops, serverKp, wg1Kp, conf, entry, length, ?_,
      consistent.mono fun x mem => by simp [mem], chain, head, ?_, key, endpoint, numbered,
      client⟩
    · rw [creates_append, creates_append, created.1, created.2, made, List.append_nil,
        List.nil_append]
    · rw [tunnels_append, tunnels_append, tunnelled.1, tunnelled.2, tunnel]
      rfl
  recorded := List.mem_append_right _ (List.mem_append_left _ h.recorded)
  held first := by rw [slot_append, slot_append, h.held, left]
  ephemeral := h.ephemeral

theorem Wired.consistent {engine : Minijinja} (lawful : engine.Lawful) {plan : ChainPlan}
    (valid : plan.Valid) {hops : List Hop} (wired : Wired engine plan 0 hops) {t : Trace}
    (length : hops.length = plan.regions.length)
    (servers : ∀ kp ∈ plan.serverKps, (⟨.generate, kp⟩ : Exchange _ _) ∈ t)
    (links : ∀ kp ∈ plan.wg1Kps, (⟨.generate, kp⟩ : Exchange _ _) ∈ t)
    (addressed : ∀ h ∈ hops, Addressed t h.inst h.ip) :
    Consistent t hops plan.serverKp plan.wg1Kp where
  servers i small := by
    have bound : i < plan.serverKps.length := by
      have := valid.servers
      omega
    exact servers _ (List.mem_of_getElem? (getElem?_eq_getD bound _))
  links i small := by
    have bound : i < plan.wg1Kps.length := by
      have := valid.links
      omega
    exact links _ (List.mem_of_getElem? (getElem?_eq_getD bound _))
  node i h mem := by
    have hop := wired.get mem
    rw [Nat.zero_add] at hop
    exact ⟨configures_renderBase64 lawful hop.rendered, hop.server,
      addressed h (List.mem_of_getElem? mem)⟩
  link i h h' mem mem' := by
    have hop := wired.get mem
    have hop' := wired.get mem'
    rw [Nat.zero_add] at hop hop'
    refine ⟨plan.link i h', by rw [hop.downstream, mem', Option.map_some], rfl, rfl, rfl, ?_⟩
    rw [hop'.upstream, ChainPlan.upstreamKey, if_neg (by omega), Nat.add_sub_cancel]

theorem Wired.numbered {engine : Minijinja} {plan : ChainPlan} {hops : List Hop}
    (wired : Wired engine plan 0 hops) : Numbered hops where
  peer i h mem := by
    have hop := wired.get mem
    rw [Nat.zero_add] at hop
    exact hop.peer
  link i h mem := by
    have hop := wired.get mem
    rw [hop.downstream]
    split <;> rename_i last
    · rw [List.getElem?_eq_getElem last]
      rfl
    · rw [List.getElem?_eq_none (by omega)]
      rfl

theorem buildChain_ensures {engine : Minijinja} (lawful : engine.Lawful) (deps : ConnectDeps)
    {regions : List String} (enough : 2 ≤ regions.length) (itype : String) :
    (buildChain engine deps regions itype).Ensures fun t r =>
      match r with
      | .error f => CleanedUp [] t ∧ ∃ message, f = .err message
      | .ok _ => ∃ active, Recorded regions.length t active := by
  simp only [buildChain, ensures_bind,
    index_eq (getElem?_eq_getD (show 0 < regions.length by omega) ""),
    index_eq (getElem?_eq_getD (show regions.length - 1 < regions.length by omega) ""),
    ensures_pure, ensures_call, ensures_andThen_ok, List.nil_append]
  refine fun clientKp => (generateMany_ensures regions.length).mono ?_
  rintro t₁ _ ⟨quiet₁, serverKps, rfl, servers, generated₁⟩
  simp only [ensures_bind, ensures_andThen_ok]
  refine (generateMany_ensures (regions.length - 1)).mono ?_
  rintro t₂ _ ⟨quiet₂, wg1Kps, rfl, links, generated₂⟩
  simp only [ensures_bind, ensures_call, ensures_andThen_ok]
  intro _
  have valid : ChainPlan.Valid ⟨regions, itype, clientKp, serverKps, wg1Kps⟩ :=
    ⟨enough, servers, links⟩
  have start : BuiltTo engine ⟨regions, itype, clientKp, serverKps, wg1Kps⟩ regions.length
      ⟨[], none, none, none⟩ [] :=
    ⟨by simp, rfl, rfl, fun none => by simp_all, trivial⟩
  have still : Quiet (([⟨.generate, clientKp⟩] : Trace) ++ t₁ ++ t₂ ++
      ([⟨.emit .creatingInstance, ()⟩] : Trace)) :=
    ((Quiet.append ⟨rfl, rfl, rfl⟩ quiet₁).append quiet₂).append ⟨rfl, rfl, rfl⟩
  have generated₁ : ∀ kp ∈ serverKps, (⟨.generate, kp⟩ : Exchange _ _) ∈
      ([⟨.generate, clientKp⟩] : Trace) ++ t₁ ++ t₂ ++ ([⟨.emit .creatingInstance, ()⟩] : Trace) :=
    fun kp mem => by simp [generated₁ kp mem]
  have generated₂ : ∀ kp ∈ wg1Kps, (⟨.generate, kp⟩ : Exchange _ _) ∈
      ([⟨.generate, clientKp⟩] : Trace) ++ t₁ ++ t₂ ++ ([⟨.emit .creatingInstance, ()⟩] : Trace) :=
    fun kp mem => by simp [generated₂ kp mem]
  simp only [← List.append_assoc]
  generalize ([⟨.generate, clientKp⟩] : Trace) ++ t₁ ++ t₂ ++
    ([⟨.emit .creatingInstance, _⟩] : Trace) = before at *
  refine (provisionHops_ensures deps valid regions.length start).mono ?_
  rintro t (f | st) built
  · obtain ⟨cleaned, message⟩ := built
    simp only [ensures_andThen_error, List.append_nil]
    exact ⟨cleaned.append (by rintro _ ⟨⟩) (by simp [still.creates]), message⟩
  · obtain ⟨hops, built, noTunnel, made, addressed⟩ := built
    rw [List.append_nil] at built
    have length : hops.length = regions.length := by simpa using built.length
    simp only [ensures_andThen_ok]
    cases hops with
    | nil =>
        rw [List.length_nil] at length
        omega
    | cons entry rest =>
        refine (openChain_ensures valid _ built).mono ?_
        rintro t' (f | _) ⟨nothing, opened⟩
        · obtain ⟨cleaned, message⟩ := opened
          refine ⟨cleaned.append (by rintro _ ⟨⟩) fun spec inst mem => ?_, message⟩
          rw [creates_append, still.creates, List.nil_append, made] at mem
          obtain ⟨h, made, same⟩ := List.mem_map.mp mem
          cases same
          rw [built.created, ← List.map_reverse]
          exact List.mem_map_of_mem made
        · obtain ⟨active, conf, recorded, held, chain, ephemeral, tunnel, key, endpoint,
            client⟩ := opened
          have consistent := built.wired.consistent lawful valid length (t := before ++ t ++ t')
            (fun kp mem => by simp [generated₁ kp mem]) (fun kp mem => by simp [generated₂ kp mem])
            fun h mem => (addressed h mem).mono fun x seen => by simp [seen]
          refine ⟨active, ⟨entry :: rest, _, _, conf, entry, length, ?_, consistent, chain, rfl, ?_,
            key, endpoint, built.wired.numbered, client⟩, List.mem_append_right _ recorded,
            fun before => by rw [slot_append, held], ephemeral⟩
          · rw [creates_append, creates_append, still.creates, made, nothing, List.append_nil,
              List.nil_append]
          · rw [tunnels_append, tunnels_append, still.tunnels, noTunnel, tunnel, List.nil_append,
              List.nil_append]

theorem disconnect_ensures (id : String) :
    (disconnect id).Ensures fun t _ => id ∈ deletes t ∧ takes t = [] := by
  simp only [disconnect, ensures_bind, ensures_call, ensures_andThen_ok, ensures_ofExcept]
  rintro - downed - (e | -)
  · exact ⟨List.mem_singleton_self id, rfl⟩
  · exact fun _ => ⟨List.mem_singleton_self id, rfl⟩

theorem endSession_ensures (active : VpnActive) :
    (endSession active).Ensures fun t _ => takes t = [] ∧
      (active.persistent = false → ∀ id ∈ active.chain, id ∈ deletes t) := by
  simp only [endSession, ensures_bind, ensures_call, ensures_andThen_ok]
  intro _ _ counters
  cases kind : active.persistent with
  | true => exact fun _ _ _ _ => ⟨rfl, by rintro ⟨⟩⟩
  | false =>
      simp only [Bool.false_eq_true, if_false, ensures_bind, ensures_attempt]
      refine (disconnect_ensures active.instanceId).mono ?_
      rintro t res ⟨entry, taken⟩
      simp only [ensures_andThen_ok, ensures_bind]
      refine (destroyChain_ensures _).mono ?_
      rintro t' _ ⟨deleted, -, taken', rfl⟩
      simp only [recordSession, ensures_bind, ensures_call, ensures_andThen_ok, ensures_ofExcept,
        takes_append, deletes_append, taken, taken', deleted]
      refine fun ended _ => ⟨rfl, fun _ id mem => ?_⟩
      by_cases same : id = active.instanceId
      · simp [same, entry]
      · simp [same, mem]

/-- Disconnecting takes the session out of the slot and destroys every node of its chain. -/
theorem vpnDisconnect_ensures {active : VpnActive} (ephemeral : active.persistent = false) :
    vpnDisconnect.Ensures fun t _ => SlotAnswers (some active) t →
      takes t = [some active] ∧ ∀ id ∈ active.chain, id ∈ deletes t := by
  simp only [vpnDisconnect, ensures_bind, ensures_call, ensures_andThen_ok]
  rintro time - - (_ | taken)
  · intro answers
    cases answers.2.2.2.1
  · refine (endSession_ensures taken).mono ?_
    rintro t r ⟨none, deleted⟩ answers
    obtain rfl : taken = active := Option.some.inj answers.2.2.2.1
    exact ⟨congrArg (some taken :: ·) none, deleted ephemeral⟩

/-- A failed attempt destroys every node it created; a successful one records a consistent
chain of them. -/
theorem multihopGuarded_ensures {engine : Minijinja} (lawful : engine.Lawful) (deps : ConnectDeps)
    {regions : List String} (enough : 2 ≤ regions.length) (itype : String) :
    (multihopGuarded engine deps regions itype).Ensures fun t r =>
      match r with
      | .error f => CleanedUp [] t ∧ ∃ message, f = .err message
      | .ok _ => ∃ active, Recorded regions.length t active := by
  simp only [multihopGuarded, ensures_bind, ensures_call, ensures_andThen_ok]
  rintro (- | -)
  · simp only [Bool.false_eq_true, if_false, ensures_bind, ensures_call, ensures_andThen_ok]
    rintro (e | -)
    · exact ⟨.of_creates_eq_nil rfl (by rintro _ ⟨⟩), _, rfl⟩
    · simp only [ensures_bind, ensures_call, ensures_andThen_ok]
      rintro (- | token)
      · exact ⟨.of_creates_eq_nil rfl (by rintro _ ⟨⟩), _, rfl⟩
      · simp only [ensures_bind, ensures_call, ensures_andThen_ok, ensures_attempt]
        refine fun keep => (orphanSweepKeeping_ensures keep).mono ?_
        rintro swept - ⟨nothing, noTunnel⟩
        refine (buildChain_ensures lawful deps enough itype).mono ?_
        let before : Trace := [⟨.vpnIsSome, false⟩, ⟨.preflight, .ok ()⟩, ⟨.getToken, some token⟩,
          ⟨.keptIds, keep⟩] ++ swept
        have created : creates before = [] := by
          rw [creates_append, nothing]
          rfl
        have tunnelled : tunnels before = [] := by
          rw [tunnels_append, noTunnel]
          rfl
        rintro t (f | _) built
        · obtain ⟨cleaned, message⟩ := built
          exact ⟨cleaned.append (t := before) (by rintro _ ⟨⟩) (by simp [created]), message⟩
        · obtain ⟨active, recorded⟩ := built
          have around := recorded.around before [] ⟨created, rfl⟩ ⟨tunnelled, rfl⟩ fun _ => rfl
          rw [List.append_nil] at around
          exact ⟨active, around⟩
  · exact ⟨.of_creates_eq_nil rfl (by rintro _ ⟨⟩), _, rfl⟩

/-- Every run of `multihop_run` cleans up, or records a chain. -/
theorem multihopRun_ensures {engine : Minijinja} (lawful : engine.Lawful) (deps : ConnectDeps)
    (maxHops : Nat) (regions : List String) (instanceType : Option String) :
    (multihopRun engine deps maxHops regions instanceType).Ensures fun t r =>
      match r with
      | .error f => CleanedUp [] t ∧ ∃ message, f = .err message
      | .ok _ => ∃ active, Recorded regions.length t active := by
  unfold multihopRun
  split
  · exact ⟨.of_creates_eq_nil rfl (by rintro _ ⟨⟩), _, rfl⟩
  split
  · exact ⟨.of_creates_eq_nil rfl (by rintro _ ⟨⟩), _, rfl⟩
  simp only [ensures_bind, ensures_call, ensures_andThen_ok]
  rintro (- | -)
  · simp only [Bool.false_eq_true, if_false, ensures_bind, ensures_attempt]
    refine (multihopGuarded_ensures lawful deps (by omega) _).mono ?_
    rintro t (f | _) guarded
    · obtain ⟨cleaned, message⟩ := guarded
      refine fun _ => ⟨?_, message⟩
      exact (cleaned.append_right rfl).append (t := [_]) (by rintro _ ⟨⟩) (by rintro _ _ ⟨⟩)
    · obtain ⟨active, recorded⟩ := guarded
      exact fun _ => ⟨active, recorded.around [_] [_] ⟨rfl, rfl⟩ ⟨rfl, rfl⟩ fun _ => rfl⟩
  · exact ⟨.of_creates_eq_nil rfl (by rintro _ ⟨⟩), _, rfl⟩

/-- Chains are never left half-built and are wired as recorded, whatever the provider and the
tunnel controller answer; no `unwrap` and no index fails. A later disconnect finds the session
in the slot, as long as nothing else has filled or emptied it. -/
theorem multihopRun_consistent (engine : Minijinja) (lawful : engine.Lawful) (deps : ConnectDeps)
    (maxHops : Nat) (regions : List String) (instanceType : Option String) :
    ∀ t r, Prog.Runs (multihopRun engine deps maxHops regions instanceType) t r →
      (∀ f, r = .error f → (∃ message, f = .err message) ∧ ∀ before after spec inst,
        t = before ++ ⟨.create spec, .ok inst⟩ :: after → inst.id ∈ deletes after) ∧
      (r = .ok () → ∃ hops serverKp wg1Kp active conf entry,
        hops.length = regions.length ∧
        creates t = (List.reverse hops).map (fun h => (h.spec, .ok h.inst)) ∧
        Consistent t hops serverKp wg1Kp ∧
        (⟨.setVpn active, ()⟩ : Exchange _ _) ∈ t ∧ active.chain = hops.map (·.inst.id) ∧
        hops.head? = some entry ∧ tunnels t = [conf] ∧
        conf.serverPublicKey = (serverKp 0).publicBase64 ∧
        conf.serverEndpoint = entry.ip ++ ":51820" ∧
        ∀ held later t' r', LeavesSlot later → Prog.Runs vpnDisconnect t' r' →
          SlotAnswers held (t ++ (later ++ t')) →
          takes t' = [some active] ∧ ∀ id ∈ active.chain, id ∈ deletes t') := by
  intro t r run
  have out := Prog.ensures_iff.mp
    (multihopRun_ensures lawful deps maxHops regions instanceType) t r run
  refine ⟨?_, ?_⟩
  · rintro f rfl
    exact ⟨out.2, out.1.made⟩
  · rintro rfl
    obtain ⟨active, ⟨hops, serverKp, wg1Kp, conf, entry, length, made, consistent, chain, head,
      tunnel, key, endpoint, -⟩, recorded, filled, ephemeral⟩ := out
    refine ⟨hops, serverKp, wg1Kp, active, conf, entry, length, made, consistent, recorded, chain,
      head, tunnel, key, endpoint, fun held later t' r' left disconnected answers => ?_⟩
    have slotted := (slotAnswers_append.mp (slotAnswers_append.mp answers).2).2
    rw [left, filled] at slotted
    exact Prog.ensures_iff.mp (vpnDisconnect_ensures ephemeral) t' r' disconnected slotted

/-- A chain of two hops whose second `create` fails. -/
def halfBuilt : Trace :=
  let kp : WgKeypair := ⟨[1], [2]⟩
  let u : UuidText := ⟨"0123456789abcdef0123456789abcdef", by decide⟩
  let token := String.ofList (u.val ++ "").toList
  let key := String.ofList (u.val ++ (u.val ++ "")).toList
  let exit : CloudInitParams :=
    { serverPrivkey := kp.privateBase64, clientPubkey := kp.publicBase64, clientIp := "10.67.0.2",
      listenPort := 51820, callbackToken := token, callbackHmacKey := key, deadmanSecs := 900,
      nextHop := none }
  let entry : CloudInitParams :=
    { exit with
      clientIp := "10.66.0.2"
      nextHop := some ⟨kp.privateBase64, "10.67.0.2/32", kp.publicBase64, "203.0.113.1:51820"⟩ }
  let userData (p : CloudInitParams) := Base64.encode (utf8 (fill p.context TEMPLATE))
  let spec (region : String) (i : Nat) (p : CloudInitParams) : InstanceSpec :=
    { region, instanceType := "g6-nanode-1", userData := userData p,
      label := "sentinel-hop" ++ toString i, tags := [] }
  [⟨.swapConnecting, false⟩, ⟨.vpnIsSome, false⟩, ⟨.preflight, .ok ()⟩, ⟨.getToken, some "token"⟩,
    ⟨.keptIds, []⟩, ⟨.listEphemeral, .ok []⟩, ⟨.generate, kp⟩, ⟨.generate, kp⟩, ⟨.generate, kp⟩,
    ⟨.generate, kp⟩, ⟨.emit .creatingInstance, ()⟩, ⟨.newUuid, u⟩, ⟨.newUuid, u⟩, ⟨.newUuid, u⟩,
    ⟨.create (spec "eu-central" 1 exit), .ok mockInstance⟩, ⟨.emit .booting, ()⟩,
    ⟨.get "inst-1000", .ok { mockInstance with state := .running }⟩, ⟨.newUuid, u⟩, ⟨.newUuid, u⟩,
    ⟨.newUuid, u⟩,
    ⟨.create (spec "us-east" 0 entry), .error (.provision "create" "mock create failure")⟩,
    ⟨.delete "inst-1000", .ok ()⟩, ⟨.clearConnecting, ()⟩]

/-- A hop with the given tunnel address of its peer and link. -/
def sampleHop (i : Nat) (region clientIp ip : String) (next : Option String) : Hop :=
  let kp : WgKeypair := ⟨[1], [2]⟩
  let u := "0123456789abcdef0123456789abcdef"
  let params : CloudInitParams :=
    { serverPrivkey := kp.privateBase64, clientPubkey := kp.publicBase64, clientIp
      listenPort := 51820, callbackToken := u, callbackHmacKey := u ++ u, deadmanSecs := 900
      nextHop := next.map fun nip =>
        ⟨kp.privateBase64, "10.67.0.2/32", kp.publicBase64, nip ++ ":51820"⟩ }
  { params
    spec := { region, instanceType := "g6-nanode-1"
              userData := Base64.encode (utf8 (fill params.context TEMPLATE))
              label := "sentinel-hop" ++ toString i, tags := [] }
    inst := { mockInstance with id := "inst-100" ++ toString i, region, ipv4 := some ip }
    ip }

theorem length_hopUuid : "0123456789abcdef0123456789abcdef".length = 32 := by decide

/-- The calls that build it. -/
def hopCalls (h : Hop) : Trace :=
  let u : UuidText := ⟨"0123456789abcdef0123456789abcdef", length_hopUuid⟩
  [⟨.newUuid, u⟩, ⟨.newUuid, u⟩, ⟨.newUuid, u⟩, ⟨.create h.spec, .ok h.inst⟩,
    ⟨.emit .booting, ()⟩, ⟨.get h.inst.id, .ok { h.inst with state := .running }⟩]

/-- The client's end of the tunnel to the entry. -/
def sampleConf (entryIp : String) : ClientConf :=
  let kp : WgKeypair := ⟨[1], [2]⟩
  { clientPrivateKey := kp.privateBase64, clientAddress := "10.66.0.2/32", dns := "1.1.1.1"
    serverPublicKey := kp.publicBase64, serverEndpoint := entryIp ++ ":51820"
    allowedIps := ["0.0.0.0/0"], keepalive := 25 }

/-- What is recorded of the hops. -/
def sampleActive (hops : List Hop) (exitIp label : String) : VpnActive :=
  { instanceId := "inst-1000", chain := hops.map (·.inst.id), region := label
    instanceType := "g6-nanode-1", egressIp := some exitIp, startedAt := 0, persistent := false }

/-- A run that builds the hops and ends well. -/
def chainCalls (hops : List Hop) (entryIp exitIp label : String) : Trace :=
  [⟨.swapConnecting, false⟩, ⟨.vpnIsSome, false⟩, ⟨.preflight, .ok ()⟩, ⟨.getToken, some "token"⟩,
    ⟨.keptIds, []⟩, ⟨.listEphemeral, .ok []⟩] ++
  List.replicate (2 * hops.length) ⟨.generate, ⟨[1], [2]⟩⟩ ++ [⟨.emit .creatingInstance, ()⟩] ++
  hops.reverse.flatMap hopCalls ++
  [⟨.emit .exchangingKeys, ()⟩, ⟨.emit .startingTunnel, ()⟩,
    ⟨.resolveAllowedIps, ["0.0.0.0/0"]⟩, ⟨.up (sampleConf entryIp), .ok ()⟩,
    ⟨.killswitchEnabled, false⟩, ⟨.now, 0⟩, ⟨.spawnMetrics, ()⟩,
    ⟨.setVpn (sampleActive hops exitIp label), ()⟩,
    ⟨.emit (.connected "inst-1000" (some exitIp)), ()⟩, ⟨.clearConnecting, ()⟩]

def twoHops : List Hop :=
  [sampleHop 0 "us-east" "10.66.0.2" "203.0.113.1" (some "203.0.113.2"),
    sampleHop 1 "eu-central" "10.67.0.2" "203.0.113.2" none]

theorem twoHops_run : Prog.Runs (multihopRun fillEngine ⟨10, 0⟩ 3 ["us-east", "eu-central"] none)
    (chainCalls twoHops "203.0.113.1" "203.0.113.2" "us-east → eu-central") (.ok ()) := by
  iterate 33 refine .cons ?_
  exact .nil _

/-- A disconnect later on. -/
def disconnectCalls (active : VpnActive) : Trace :=
  [⟨.now, 60⟩, ⟨.recordDisconnect 60, ()⟩, ⟨.killswitchClearAll, ()⟩, ⟨.takeVpn, some active⟩,
    ⟨.stopMetrics, ()⟩, ⟨.now, 60⟩, ⟨.counters, .ok ⟨0, 0⟩⟩, ⟨.emit .disconnecting, ()⟩,
    ⟨.down, .ok ()⟩, ⟨.emit .destroying, ()⟩, ⟨.delete "inst-1000", .ok ()⟩, ⟨.emit .idle, ()⟩,
    ⟨.delete "inst-1001", .ok ()⟩, ⟨.now, 61⟩,
    ⟨.insertHistory { id := "inst-1000", region := active.region,
                      instanceType := active.instanceType, startedAt := 0, endedAt := 61,
                      bytesRx := Int.bmod (WgCounters.rxBytes ⟨0, 0⟩) (2 ^ 64)
                      bytesTx := Int.bmod (WgCounters.txBytes ⟨0, 0⟩) (2 ^ 64) }, ()⟩]

theorem chains_destroyed :
    "inst-1000" ∈ deletes (halfBuilt.drop 15) ∧
    ∃ active, takes (disconnectCalls (sampleActive twoHops "203.0.113.2" "us-east → eu-central")) =
      [some active] ∧ ∀ id ∈ active.chain, id ∈
        deletes (disconnectCalls (sampleActive twoHops "203.0.113.2" "us-east → eu-central")) := by
  constructor
  · have run : Prog.Runs (multihopRun fillEngine ⟨10, 0⟩ 3 ["us-east", "eu-central"] none)
        halfBuilt (.error (.err "provisioning failed at create: mock create failure")) := by
      iterate 23 refine .cons ?_
      exact .nil _
    have cleaned := ((multihopRun_consistent fillEngine fillEngine_lawful ⟨10, 0⟩ 3
      ["us-east", "eu-central"] none _ _ run).1 _ rfl).2
    exact cleaned (halfBuilt.take 14) (halfBuilt.drop 15) _ mockInstance rfl
  · have ended : Prog.Runs vpnDisconnect
        (disconnectCalls (sampleActive twoHops "203.0.113.2" "us-east → eu-central")) (.ok ()) := by
      iterate 15 refine .cons ?_
      exact .nil _
    obtain ⟨_, _, _, active, _, _, -, -, -, -, -, -, -, -, -, later⟩ :=
      (multihopRun_consistent fillEngine fillEngine_lawful ⟨10, 0⟩ 3 ["us-east", "eu-central"] none
        _ _ twoHops_run).2 rfl
    have answers : SlotAnswers none (chainCalls twoHops "203.0.113.1" "203.0.113.2"
        "us-east → eu-central" ++ ([⟨.clearConnecting, ()⟩] ++
        disconnectCalls (sampleActive twoHops "203.0.113.2" "us-east → eu-central"))) := by
      repeat refine ⟨by first | rfl | trivial, ?_⟩
      trivial
    exact ⟨active, later none [⟨.clearConnecting, ()⟩] _ _ (fun _ => rfl) ended answers⟩

end Sentinel.Vpn
