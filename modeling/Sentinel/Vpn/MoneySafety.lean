import Sentinel.Vpn.AlwaysOn

/-!
# A paid node is on record

The money-safety invariant of the always-on node: whenever the provider still has a node
that `persistent_deploy` made, `vpn-persistent.json` names it. A run is a list of commands,
each with the fates of its statements; where the fates end, the app was killed.

The code keeps the invariant only with help of the environment. `Careful` says which:
a create that made a node is answered with it; a write does not leave half a record where a
whole one was; and a delete that leaves a node behind finds that node on record and is not
answered with an error whose text has a "404" in it, as the text of a request that was never
answered has when it quotes an address with a node id such as 14041.
-/

namespace Sentinel.Vpn.AlwaysOn

open Atomic Routine

/-- The record file names the node. -/
def World.Names (w : World) (id : String) : Prop :=
  ∃ record, w.record = .holds record ∧ record.instanceId = id

def World.Recorded (w : World) : Prop := ∀ id ∈ w.cloud, w.Names id

/-- What the code needs of the fate of a statement. -/
def Careful (serde : Serde) : Act → Fate → World → Prop
  | .create _, f, _ => ∀ e, instanceOf serde f.wire = .error e → f.made = none
  | .delete id, f, w => id ∈ (exec serde (.delete id) f w).2.cloud →
      w.Names id ∧ ∀ e, emptyOk serde f.wire = .error e → says404 e = false
  | .saveRecord _, f, w => ∀ text, f.written = .broken text → w.record.load = none
  | _, _, _ => True

/-- Whether a node that `create` answered with waits for its record, after an exchange: a
write that succeeds and any delete end the wait. -/
def waits (serde : Serde) (waiting : Bool) : Exchange Act Act.Reply → Bool
  | ⟨.create _, wire⟩ =>
      match instanceOf serde wire with
      | .ok _ => true
      | .error _ => waiting
  | ⟨.saveRecord _, .ok _⟩ => false
  | ⟨.delete _, _⟩ => false
  | _ => waiting

/-- The app is between the creation of a node and its record. -/
def HandingOver (serde : Serde) (t : List (Exchange Act Act.Reply)) : Prop :=
  t.foldl (waits serde) false = true

instance (serde : Serde) (t : List (Exchange Act Act.Reply)) : Decidable (HandingOver serde t) :=
  inferInstanceAs (Decidable (_ = true))

inductive Command where
  | deploy (region instanceType : String)
  | connect
  | destroy
  deriving DecidableEq, Repr

/-- A command and the fates of its statements. -/
structure Round where
  command : Command
  fates : List Fate

section Runs

variable (engine : Minijinja) (serde : Serde) (deps : ConnectDeps)

def Command.routine : Command → Desk Unit
  | deploy region instanceType => persistentDeploy engine serde deps region instanceType
  | connect => persistentConnect serde deps
  | destroy => persistentDestroy serde

def Round.after (r : Round) (w : World) : World :=
  (Prog.feed (exec serde) (r.command.routine engine serde deps) r.fates w).2

def Round.trace (r : Round) (w : World) : List (Exchange Act Act.Reply) :=
  Prog.exchanges (exec serde) (r.command.routine engine serde deps) r.fates w

/-- The fates are as the code needs them, and the app was not killed between the creation of
the node and its record. -/
structure Round.Lucky (r : Round) (w : World) : Prop where
  careful : Prog.Meets (exec serde) (Careful serde) (r.command.routine engine serde deps) r.fates w
  uncut : ¬ HandingOver serde (r.trace engine serde deps w)

/-- The world after a run. -/
def run : List Round → World → World
  | [], w => w
  | r :: rest, w => run rest (r.after engine serde deps w)

def AllLucky : List Round → World → Prop
  | [], _ => True
  | r :: rest, w =>
      r.Lucky engine serde deps w ∧ AllLucky rest (r.after engine serde deps w)

end Runs

/-! ## What the statements do -/

/-- Statements that concern neither the nodes nor the record. -/
def Act.Idle : Act → Prop
  | create _ | delete _ | saveRecord _ | deleteRecord => False
  | _ => True

/-- Statements of a sweep: they make no node and leave the record alone. -/
def Act.Sweeping : Act → Prop
  | create _ | saveRecord _ | deleteRecord => False
  | _ => True

theorem Act.Idle.sweeping {q : Act} (h : q.Idle) : q.Sweeping := by
  cases q <;> trivial

theorem Act.Sweeping.idle_or_delete {q : Act} (h : q.Sweeping) : q.Idle ∨ ∃ id, q = .delete id := by
  cases q with
  | delete id => exact .inr ⟨id, rfl⟩
  | create | saveRecord | deleteRecord => cases h
  | _ => exact .inl trivial

variable {serde : Serde}

theorem exec_idle (serde : Serde) {q : Act} (idle : q.Idle) (f : Fate) (w : World) :
    (exec serde q f w).2.cloud = w.cloud ∧ (exec serde q f w).2.record = w.record := by
  cases q with
  | create | delete | saveRecord | deleteRecord => cases idle
  | keyStore privkey =>
      rcases faults : f.fault with _ | text
      · simp only [exec, faults]
        trivial
      · simp only [exec, faults]
        trivial
  | keyDel =>
      simp only [exec]
      split
      · trivial
      · trivial
  | _ => exact ⟨rfl, rfl⟩

theorem World.Recorded.congr {w w' : World} (h : w.Recorded) (cloud : w'.cloud = w.cloud)
    (record : w'.record = w.record) : w'.Recorded := by
  intro id alive
  obtain ⟨r, held, same⟩ := h id (cloud ▸ alive)
  exact ⟨r, record.trans held, same⟩

/-- A delete takes away at most the node it names. -/
theorem mem_cloud_delete {id x : String} {f : Fate} {w : World} :
    x ∈ (exec serde (.delete id) f w).2.cloud ↔
      x ∈ w.cloud ∧ ((f.wire.confirms || f.gone) = true → x ≠ id) := by
  simp only [exec]
  split
  · simp_all
  · simp_all

@[simp] theorem exec_delete_record (id : String) (f : Fate) (w : World) :
    (exec serde (.delete id) f w).2.record = w.record := by
  simp only [exec]
  split
  · rfl
  · rfl

theorem World.Recorded.delete {w : World} (h : w.Recorded) (serde : Serde) (id : String)
    (f : Fate) :
    (exec serde (.delete id) f w).2.Recorded := by
  intro x alive
  obtain ⟨r, held, same⟩ := h x (mem_cloud_delete.mp alive).1
  exact ⟨r, by rw [exec_delete_record, held], same⟩

/-- A delete whose answer is not an error is confirmed. -/
theorem confirms_of_emptyOk {wire : Wire} (h : emptyOk serde wire = .ok ()) :
    wire.confirms = true := by
  cases wire with
  | failed text => cases h
  | answered status body =>
      simp only [emptyOk] at h
      split at h
      · rename_i success
        simp [Wire.confirms, success]
      · cases h

/-! ## Parts that only wait, ask or sweep -/

/-- Calls that make no instance. -/
def Frugal : Call → Prop
  | .create _ => False
  | _ => True

/-- Calls that neither make nor delete an instance. -/
def Harmless : Call → Prop
  | .create _ | .delete _ => False
  | _ => True

theorem lift_idle {ε α : Type} {m : Routine Call Call.Reply ε α} (h : m.Uses Harmless) :
    (lift serde m).Uses Act.Idle := by
  refine Prog.Within.translate h fun q harmless => ?_
  cases q with
  | create | delete => cases harmless
  | _ => exact ⟨trivial, fun _ => trivial⟩

theorem lift_sweeping {ε α : Type} {m : Routine Call Call.Reply ε α} (h : m.Uses Frugal) :
    (lift serde m).Uses Act.Sweeping := by
  refine Prog.Within.translate h fun q frugal => ?_
  cases q with
  | create => cases frugal
  | _ => exact ⟨trivial, fun _ => trivial⟩

theorem pause_harmless {ε : Type} (deps : ConnectDeps) :
    (pause deps : Routine Call Call.Reply ε Unit).Uses Harmless := by
  unfold pause
  split
  · exact Uses.call trivial
  · trivial

theorem bootHop_harmless (deps : ConnectDeps) (inst : Instance) (polls : Nat) :
    (bootHop deps inst polls).Uses Harmless := by
  induction polls with
  | zero => trivial
  | succ polls ih =>
      refine (pause_harmless deps).bind fun _ => Uses.bind (Uses.call trivial) fun polled => ?_
      rcases polled with e | cur
      · exact ih
      · dsimp only
        split
        · trivial
        · exact ih

theorem randHex_harmless (bytes : Nat) : (randHex bytes).Uses Harmless := by
  have each : ∀ n, (uuids n).Uses Harmless := by
    intro n
    induction n with
    | zero => trivial
    | succ n ih => exact Uses.bind (Uses.call trivial) fun _ => ih.bind fun _ => trivial
  exact (each _).bind fun _ => trivial

theorem engageKillswitch_harmless (ip : String) : (engageKillswitch ip).Uses Harmless := by
  refine Uses.bind (Uses.call trivial) fun enabled => ?_
  cases enabled with
  | false => trivial
  | true =>
      refine Uses.bind (Uses.call trivial) fun engaged => ?_
      rcases engaged with e | _
      · exact Uses.call trivial
      · trivial

theorem orphanSweepKeeping_frugal (keep : List String) :
    (orphanSweepKeeping keep).Uses Frugal := by
  have each : ∀ list, (sweep keep list).Uses Frugal := by
    intro list
    induction list with
    | nil => trivial
    | cons inst rest ih =>
        rw [sweep]
        split
        · exact ih
        · exact Uses.bind (Uses.call trivial) fun _ => ih.bind fun _ => trivial
  exact Uses.bind (Uses.call trivial) fun _ => Uses.bind trivial fun list => each list

theorem setPersistentActive_idle (record : PersistentVpnRecord) :
    (setPersistentActive serde record).Uses Act.Idle := by
  refine (lift_idle (engageKillswitch_harmless _)).bind fun _ =>
    Uses.bind (Uses.call trivial) fun _ => Uses.bind (Uses.call trivial) fun _ =>
      Uses.bind (Uses.call trivial) fun _ => Uses.call trivial

theorem bringUpPersistentTunnel_idle (record : PersistentVpnRecord) (privkey : String)
    (allowedIps : List String) : (bringUpPersistentTunnel record privkey allowedIps).Uses Act.Idle :=
  Uses.bind (Uses.call trivial) fun _ => trivial

theorem provisionPersistentReady_idle (deps : ConnectDeps) (inst : Instance)
    (callbackToken callbackHmacKey : String) :
    (provisionPersistentReady serde deps inst callbackToken callbackHmacKey).Uses Act.Idle := by
  refine Uses.bind (Uses.call trivial) fun _ =>
    (lift_idle (bootHop_harmless _ _ _)).bind fun running => ?_
  split
  · trivial
  · rcases running.ipv4 with _ | ip
    · trivial
    · exact Uses.bind (Uses.call trivial) fun _ => Uses.bind (Uses.call trivial) fun _ =>
        Uses.bind trivial fun _ => trivial

theorem prepare_sweeping (engine : Minijinja) : (prepare engine serde).Uses Act.Sweeping := by
  have random : (lift serde (randHex 32)).Uses Act.Sweeping :=
    Prog.Within.mono (lift_idle (randHex_harmless 32)) (fun _ => Act.Idle.sweeping) fun _ => id
  refine Uses.bind (Uses.call trivial) fun record => ?_
  rcases record with _ | record
  · refine Uses.bind (Uses.call trivial) fun connected => ?_
    cases connected with
    | true => trivial
    | false =>
        refine Uses.bind (Uses.call trivial) fun _ => Uses.bind trivial fun _ =>
          Uses.bind (Uses.call trivial) fun token => ?_
        rcases token with _ | token
        · trivial
        · refine Uses.bind (Uses.call trivial) fun keep =>
            Uses.bind (lift_sweeping (orphanSweepKeeping_frugal keep)).attempt fun _ =>
              Uses.bind (Uses.call trivial) fun _ => Uses.bind (Uses.call trivial) fun _ =>
                random.bind fun _ => random.bind fun _ => Uses.bind trivial fun _ =>
                  Uses.bind (Uses.call trivial) fun _ => Uses.bind trivial fun _ =>
                    Uses.bind (Uses.call trivial) fun _ => trivial
  · trivial

/-! ## The commands -/

/-- The node is the only one, and on record. -/
structure World.Held (w : World) (id : String) : Prop where
  only : ∀ x ∈ w.cloud, x = id
  named : w.Names id

theorem World.Held.recorded {w : World} {id : String} (h : w.Held id) : w.Recorded := by
  intro x alive
  rw [h.only x alive]
  exact h.named

theorem World.Recorded.held {w : World} (h : w.Recorded) {record : PersistentVpnRecord}
    (loaded : w.record.load = some record) : w.Held record.instanceId := by
  have holds : w.record = .holds record := by
    cases file : w.record with
    | holds r =>
        rw [file] at loaded
        cases loaded
        rfl
    | _ => simp [file, RecordFile.load] at loaded
  refine ⟨fun x alive => ?_, record, holds, rfl⟩
  obtain ⟨r, held, same⟩ := h x alive
  rw [← same, RecordFile.holds.inj (held.symm.trans holds)]

theorem World.Recorded.cloud_eq_nil {w : World} (h : w.Recorded) (unread : w.record.load = none) :
    w.cloud = [] := by
  refine List.eq_nil_iff_forall_not_mem.mpr fun x alive => ?_
  obtain ⟨r, held, -⟩ := h x alive
  simp [held, RecordFile.load] at unread

theorem World.recorded_of_empty {w : World} (h : w.cloud = []) : w.Recorded := by
  intro x alive
  rw [h] at alive
  cases alive

/-- The invariant at a point of a command that has made these exchanges. -/
def Settled (serde : Serde) (t : List (Exchange Act Act.Reply)) (w : World) : Prop :=
  HandingOver serde t ∨ w.Recorded

theorem waits_mono {a b : Bool} (h : a ≤ b) (x : Exchange Act Act.Reply) :
    waits serde a x ≤ waits serde b x := by
  obtain ⟨q, res⟩ := x
  cases q with
  | create spec =>
      rcases made : instanceOf serde res with e | inst
      · simpa only [waits, made] using h
      · simp only [waits, made, le_refl]
  | saveRecord record =>
      rcases res with e | _
      · exact h
      · exact le_rfl
  | delete id => exact le_rfl
  | _ => exact h

theorem HandingOver.append {t : List (Exchange Act Act.Reply)} (h : HandingOver serde t)
    (t₀ : List (Exchange Act Act.Reply)) : HandingOver serde (t₀ ++ t) := by
  have mono : ∀ (t : List (Exchange Act Act.Reply)) {a b : Bool}, a ≤ b →
      t.foldl (waits serde) a ≤ t.foldl (waits serde) b := by
    intro t
    induction t with
    | nil => exact id
    | cons x t ih => exact fun h => ih (waits_mono h x)
  rw [HandingOver, List.foldl_append]
  exact Bool.eq_true_of_true_le (h ▸ mono t (Bool.false_le _))

section Outlines

variable {α : Type} {m : Desk α} {w : World}

/-- A part that leaves the node and the record alone keeps what is said of the two. -/
theorem idle_outline {J : World → Prop} (h : m.Uses Act.Idle)
    (congr : ∀ {w w' : World}, J w → w'.cloud = w.cloud → w'.record = w.record → J w')
    (start : J w) : m.Outline (exec serde) (Careful serde) (fun _ => J) (fun _ _ => J) w := by
  refine h.outline (fun q f w idle _ now => ?_) start
  obtain ⟨cloud, record⟩ := exec_idle serde idle f w
  exact congr now cloud record

theorem idle_recorded (h : m.Uses Act.Idle) (start : w.Recorded) :
    m.Outline (exec serde) (Careful serde) (fun _ => World.Recorded)
      (fun _ _ => World.Recorded) w :=
  idle_outline h World.Recorded.congr start

theorem idle_held (h : m.Uses Act.Idle) {id : String} (start : w.Held id) :
    m.Outline (exec serde) (Careful serde) (fun _ w => w.Held id) (fun _ _ w => w.Held id) w := by
  refine idle_outline h (fun held cloud record => ?_) start
  obtain ⟨only, r, holds, same⟩ := held
  exact ⟨cloud ▸ only, r, record.trans holds, same⟩

/-- The record may go once no node is left. -/
theorem forget_recorded (h : w.cloud = []) :
    forget.Outline (exec serde) (Careful serde) (fun _ => World.Recorded)
      (fun _ _ => World.Recorded) w := by
  have uses : forget.Uses fun q => q = .deleteRecord ∨ q = .keyDel :=
    Uses.bind (Uses.call (.inl rfl)) fun _ => Uses.call (.inr rfl)
  have kept : forget.Outline (exec serde) (Careful serde) (fun _ w => w.cloud = [])
      (fun _ _ w => w.cloud = []) w := by
    refine uses.outline (fun q f w either _ now => ?_) h
    rcases either with rfl | rfl
    · simp only [exec]
      split
      · exact now
      · exact now
    · simp only [exec]
      split
      · exact now
      · exact now
  exact kept.mono (fun _ _ => World.recorded_of_empty) fun _ _ _ => World.recorded_of_empty

/-- A delete of the only node that succeeds, or that says 404, leaves none. -/
theorem cloud_eq_nil_of_delete {id : String} {f : Fate} (held : w.Held id)
    (careful : Careful serde (.delete id) f w)
    (told : emptyOk serde f.wire = .ok () ∨
      ∃ e, emptyOk serde f.wire = .error e ∧ says404 e = true) :
    (exec serde (.delete id) f w).2.cloud = [] := by
  refine List.eq_nil_iff_forall_not_mem.mpr fun x alive => ?_
  obtain rfl := held.only x (mem_cloud_delete.mp alive).1
  rcases told with success | ⟨e, failed, text⟩
  · exact (mem_cloud_delete.mp alive).2 (by simp [confirms_of_emptyOk success]) rfl
  · have denied := (careful alive).2 e failed
    rw [text] at denied
    cases denied

theorem cleanupFailedPersistent_recorded {id : String} (held : w.Held id) :
    (cleanupFailedPersistent serde id).Outline (exec serde) (Careful serde)
      (fun _ => World.Recorded) (fun _ _ => World.Recorded) w := by
  simp only [cleanupFailedPersistent, delete, outline_bind, outline_call, outline_andThen_ok,
    outline_pure]
  intro f careful
  have kept := held.recorded.delete serde id f
  refine ⟨kept, ?_⟩
  rcases answer : emptyOk serde (exec serde (.delete id) f w).1 with e | _
  · dsimp only
    split
    · rename_i text
      exact forget_recorded (cloud_eq_nil_of_delete held careful (.inr ⟨e, answer, text⟩))
    · exact kept
  · exact forget_recorded (cloud_eq_nil_of_delete held careful (.inl answer))

theorem destroyNode_recorded {record : PersistentVpnRecord} (held : w.Held record.instanceId) :
    (destroyNode serde record).Outline (exec serde) (Careful serde)
      (fun _ => World.Recorded) (fun _ _ => World.Recorded) w := by
  simp only [destroyNode, delete, outline_bind, outline_call, outline_andThen_ok, outline_pure]
  intro f careful
  have kept := held.recorded.delete serde record.instanceId f
  refine ⟨kept, ?_⟩
  rcases answer : emptyOk serde (exec serde (.delete record.instanceId) f w).1 with e | _
  · dsimp only
    split
    · rename_i text
      exact forget_recorded (cloud_eq_nil_of_delete held careful (.inr ⟨e, answer, text⟩))
    · exact kept
  · exact forget_recorded (cloud_eq_nil_of_delete held careful (.inl answer))

/-- A record of the node can be written over by another one of it. -/
theorem World.Held.save {id : String} (held : w.Held id) (record : PersistentVpnRecord)
    (same : record.instanceId = id) {f : Fate} (careful : Careful serde (.saveRecord record) f w) :
    (exec serde (.saveRecord record) f w).2.Held id := by
  rcases wrote : f.written with _ | text | text
  · simp only [exec, wrote]
    exact ⟨held.only, record, rfl, same⟩
  · simp only [exec, wrote]
    exact held
  · obtain ⟨r, holds, -⟩ := held.named
    have unread := careful text wrote
    rw [holds] at unread
    cases unread

theorem finish_recorded {deps : ConnectDeps} {material : Material} {inst : Instance}
    {record : PersistentVpnRecord} (same : record.instanceId = inst.id) (held : w.Held inst.id) :
    (finish serde deps material inst record).Outline (exec serde) (Careful serde)
      (fun _ => World.Recorded) (fun _ _ => World.Recorded) w := by
  simp only [finish, outline_bind, outline_attempt, outline_andThen_ok]
  refine (idle_held (provisionPersistentReady_idle ..) held).mono (fun _ _ => World.Held.recorded) ?_
  rintro t (e | ip) w' held'
  · simp only [outline_bind]
    refine (cleanupFailedPersistent_recorded held').mono (fun _ _ => id) ?_
    rintro t' (e' | _) w'' kept
    · exact kept
    · exact kept
  · simp only [outline_bind, outline_call, outline_andThen_ok]
    intro f careful
    have saved := held'.save { record with ipv4 := ip } same careful
    refine ⟨saved.recorded, ?_⟩
    have rest : (do
        perform (.emit "connecting" "starting the tunnel…")
        let allowed ← ask .resolveAllowedIps
        bringUpPersistentTunnel { record with ipv4 := ip } material.clientKp.privateBase64 allowed
        setPersistentActive serde { record with ipv4 := ip }
        perform (.emit "ready" "always-on VPN ready") : Desk Unit).Uses Act.Idle :=
      Uses.bind (Uses.call trivial) fun _ => Uses.bind (Uses.call trivial) fun _ =>
        (bringUpPersistentTunnel_idle ..).bind fun _ =>
          (setPersistentActive_idle _).bind fun _ => Uses.call trivial
    exact idle_recorded rest saved.recorded

/-- The node is deleted because it could not be recorded. -/
theorem compensate_recorded {inst : Instance} {message : String}
    (only : ∀ x ∈ w.cloud, x = inst.id) (unread : w.record.load = none) :
    (do
      let _ ← delete serde inst.id
      perform .keyDel
      throw (.err message) : Desk Unit).Outline (exec serde) (Careful serde)
      (fun _ => World.Recorded) (fun _ _ => World.Recorded) w := by
  simp only [delete, outline_bind, outline_call, outline_andThen_ok, outline_pure]
  intro f careful
  have emptied : (exec serde (.delete inst.id) f w).2.cloud = [] := by
    refine List.eq_nil_iff_forall_not_mem.mpr fun x alive => ?_
    obtain rfl := only x (mem_cloud_delete.mp alive).1
    obtain ⟨r, holds, -⟩ := (careful alive).1
    rw [holds] at unread
    cases unread
  refine ⟨World.recorded_of_empty emptied, fun f' _ => ?_⟩
  obtain ⟨cloud, -⟩ := exec_idle serde (q := .keyDel) trivial f' (exec serde (.delete inst.id) f w).2
  have emptied' := World.recorded_of_empty (cloud.trans emptied)
  exact ⟨emptied', emptied'⟩

theorem recordNode_settled {deps : ConnectDeps} {region instanceType : String}
    {material : Material} (spec : InstanceSpec) {wire : Wire} {inst : Instance}
    (made : instanceOf serde wire = .ok inst) (only : ∀ x ∈ w.cloud, x = inst.id)
    (unread : w.record.load = none) :
    (recordNode serde deps region instanceType material inst).Outline (exec serde) (Careful serde)
      (fun t => Settled serde (⟨.create spec, wire⟩ :: t)) (fun _ _ => World.Recorded) w := by
  simp only [recordNode, outline_bind, outline_call, outline_andThen_ok]
  intro f _
  refine ⟨.inl (by simp [HandingOver, waits, made]), fun f' _ => ?_⟩
  rcases wrote : f'.written with _ | text | text
  · simp only [exec, wrote]
    have held (r : PersistentVpnRecord) (same : r.instanceId = inst.id) :
        World.Held { w with record := .holds r } inst.id := ⟨only, r, rfl, same⟩
    exact ⟨.inr (held _ rfl).recorded,
      (finish_recorded rfl (held _ rfl)).mono (fun _ _ => .inr) fun _ _ _ => id⟩
  · simp only [exec, wrote]
    exact ⟨.inl (by simp [HandingOver, waits, made]),
      (compensate_recorded only unread).mono (fun _ _ => .inr) fun _ _ _ => id⟩
  · simp only [exec, wrote]
    exact ⟨.inl (by simp [HandingOver, waits, made]),
      Outline.mono (compensate_recorded only rfl) (fun _ _ => .inr) fun _ _ _ => id⟩

theorem whileConnecting_settled {busy : String} {body : Desk Unit} (start : w.Recorded)
    (h : ∀ w' : World, w'.Recorded → body.Outline (exec serde) (Careful serde) (Settled serde)
      (fun _ _ => World.Recorded) w') :
    (whileConnecting busy body).Outline (exec serde) (Careful serde) (Settled serde)
      (fun _ _ => World.Recorded) w := by
  simp only [whileConnecting, outline_bind, outline_call, outline_andThen_ok]
  refine fun f _ => ⟨.inr start, ?_⟩
  cases (exec serde (.call .swapConnecting) f w).1 with
  | true => exact start
  | false =>
      simp only [Bool.false_eq_true, if_false, outline_bind, outline_attempt, outline_andThen_ok]
      refine (h w start).mono (fun t w' settled => settled.imp_left fun between => between.append _) ?_
      rintro t r w' kept
      exact fun f' _ => ⟨.inr kept, kept⟩

theorem prepare_clean {engine : Minijinja} (h : w.cloud = [] ∧ w.record.load = none) :
    (prepare engine serde).Outline (exec serde) (Careful serde)
      (fun _ w => w.cloud = [] ∧ w.record.load = none)
      (fun _ _ w => w.cloud = [] ∧ w.record.load = none) w := by
  refine (prepare_sweeping engine).outline (fun q f w sweeping _ now => ?_) h
  rcases sweeping.idle_or_delete with idle | ⟨id, rfl⟩
  · obtain ⟨cloud, record⟩ := exec_idle serde idle f w
    exact ⟨cloud.trans now.1, record ▸ now.2⟩
  · refine ⟨List.eq_nil_iff_forall_not_mem.mpr fun x alive => ?_, ?_⟩
    · have before := (mem_cloud_delete.mp alive).1
      rw [now.1] at before
      cases before
    · rw [exec_delete_record]
      exact now.2

theorem prepare_settled {engine : Minijinja} (start : w.Recorded) :
    (prepare engine serde).Outline (exec serde) (Careful serde) (fun _ => World.Recorded)
      (fun _ r w => w.Recorded ∧ ∀ m, r = .ok m → w.cloud = [] ∧ w.record.load = none) w := by
  rcases loaded : w.record.load with _ | record
  · refine (prepare_clean ⟨start.cloud_eq_nil loaded, loaded⟩).mono
      (fun _ _ clean => World.recorded_of_empty clean.1) ?_
    intro t r w' clean
    exact ⟨World.recorded_of_empty clean.1, fun _ _ => clean⟩
  · simp only [prepare, outline_bind, outline_call, outline_andThen_ok]
    refine fun f _ => ⟨start, ?_⟩
    simp only [exec, loaded, outline_throw]
    exact ⟨start, by rintro _ ⟨⟩⟩

theorem persistentDeploy_settled {engine : Minijinja} {deps : ConnectDeps}
    {region instanceType : String} (start : w.Recorded) :
    (persistentDeploy engine serde deps region instanceType).Outline (exec serde) (Careful serde)
      (Settled serde) (fun _ _ => World.Recorded) w := by
  refine whileConnecting_settled start fun w start => ?_
  rw [outline_bind]
  refine (prepare_settled start).mono (fun _ _ => .inr) ?_
  rintro t (e | ⟨material, cloudInit⟩) w ⟨kept, clean⟩
  · exact kept
  · obtain ⟨emptied, unread⟩ := clean _ rfl
    simp only [create, outline_bind, outline_call, outline_andThen_ok, outline_pure]
    intro f careful
    rcases made : instanceOf serde f.wire with e | inst
    · have same : (exec serde (.create (persistentSpec region instanceType cloudInit)) f w).2 = w := by
        simp only [exec, made, afterCreate, careful e made, Option.toList_none, List.nil_append]
      have dropped : (do
          perform .keyDel
          throw (.err e.display) : Desk Unit).Uses Act.Idle :=
        Uses.bind (Uses.call trivial) fun _ => trivial
      rw [same]
      simp only [exec, made]
      exact ⟨.inr kept, (idle_recorded dropped kept).mono (fun _ _ => .inr) fun _ _ _ => id⟩
    · simp only [exec, made, afterCreate, emptied]
      refine ⟨.inl (HandingOver.append (by simp [HandingOver, waits, made]) t), ?_⟩
      have only : ∀ x ∈ [inst.id], x = inst.id := by simp
      refine Outline.mono (recordNode_settled (persistentSpec region instanceType cloudInit) made
        only unread) (fun t' _ settled => ?_) fun _ _ _ => id
      exact settled.imp_left fun between => between.append t

theorem persistentConnect_idle (deps : ConnectDeps) :
    (persistentConnect serde deps).Uses Act.Idle := by
  have polls : ∀ id n, (waitRunning serde deps id n).Uses Act.Idle := by
    intro id n
    induction n with
    | zero => trivial
    | succ n ih =>
        refine (lift_idle (pause_harmless deps)).bind fun _ =>
          Uses.bind (Uses.bind (Uses.call trivial) fun _ => trivial) fun polled => ?_
        rcases polled with e | cur
        · exact ih
        · dsimp only
          split
          · trivial
          · exact ih
  have running : ∀ inst id, (ensureRunning serde deps inst id).Uses Act.Idle := by
    intro inst id
    unfold ensureRunning
    split
    · exact Uses.bind (Uses.call trivial) fun _ => polls _ _
    · trivial
  refine Uses.bind (Uses.call trivial) fun busy => ?_
  cases busy with
  | true => trivial
  | false =>
      refine Uses.bind (Uses.attempt ?_) fun _ => Uses.bind (Uses.call trivial) fun _ => trivial
      refine Uses.bind (Uses.call trivial) fun connected => ?_
      cases connected with
      | true => trivial
      | false =>
          refine Uses.bind (Uses.call trivial) fun _ => Uses.bind trivial fun _ =>
            Uses.bind (Uses.call trivial) fun record => ?_
          rcases record with _ | record
          · trivial
          · refine Uses.bind (Uses.call trivial) fun key => ?_
            rcases key with _ | privkey
            · trivial
            · refine Uses.bind (Uses.call trivial) fun token => ?_
              rcases token with _ | _
              · trivial
              · exact Uses.bind (Uses.bind (Uses.call trivial) fun _ => trivial) fun _ =>
                  Uses.bind trivial fun _ => (running _ _).bind fun _ =>
                    Uses.bind (Uses.call trivial) fun _ =>
                      (bringUpPersistentTunnel_idle ..).bind fun _ => setPersistentActive_idle _

theorem persistentDestroy_settled (start : w.Recorded) :
    (persistentDestroy serde).Outline (exec serde) (Careful serde) (Settled serde)
      (fun _ _ => World.Recorded) w := by
  have drops : dropTunnel.Uses Act.Idle := by
    refine Uses.bind (Uses.call trivial) fun active => ?_
    rcases active with _ | active
    · trivial
    · exact Uses.bind (Uses.call trivial) fun _ => Uses.bind (Uses.call trivial) fun _ =>
        Uses.call trivial
  refine whileConnecting_settled start fun w start => ?_
  refine Outline.mono ?_ (fun _ _ => .inr) fun _ _ _ => id
  rw [outline_bind]
  refine (idle_recorded drops start).mono (fun _ _ => id) ?_
  rintro t (e | _) w start
  · exact start
  · simp only [outline_bind, outline_call, outline_andThen_ok]
    refine fun f _ => ⟨start, ?_⟩
    rcases loaded : w.record.load with _ | record
    · simp only [exec, loaded]
      exact idle_recorded (Uses.call trivial) start
    · simp only [exec, loaded, outline_bind, outline_call, outline_andThen_ok]
      refine fun f' _ => ⟨start, ?_⟩
      rcases f'.reply .getToken with _ | token
      · exact start
      · exact destroyNode_recorded (start.held loaded)

end Outlines

/-! ## Runs -/

section Runs

variable (engine : Minijinja) (deps : ConnectDeps)

theorem routine_settled (c : Command) {w : World} (start : w.Recorded) :
    (c.routine engine serde deps).Outline (exec serde) (Careful serde) (Settled serde)
      (fun _ _ => World.Recorded) w := by
  cases c with
  | deploy region instanceType => exact persistentDeploy_settled start
  | connect =>
      exact (idle_recorded (persistentConnect_idle deps) start).mono (fun _ _ => .inr)
        fun _ _ _ => id
  | destroy => exact persistentDestroy_settled start

/-- One command keeps every node on record. -/
theorem Round.Lucky.recorded {r : Round} {w : World} (lucky : r.Lucky engine serde deps w)
    (start : w.Recorded) : (r.after engine serde deps w).Recorded := by
  have settled := Prog.Outline.feed (routine_settled engine deps r.command start) (.inr start)
    lucky.careful
  exact settled.resolve_left lucky.uncut

/-- In every run in which the provider and the file system are as `Careful` has it, and the
app is not killed between the creation of a node and its record, every node that exists is on
record after every command, finished or not. -/
theorem run_recorded (serde : Serde) (rounds : List Round) (w : World) (start : w.Recorded)
    (lucky : AllLucky engine serde deps rounds w) : (run engine serde deps rounds w).Recorded := by
  induction rounds generalizing w with
  | nil => exact start
  | cons r rest ih => exact ih _ (lucky.1.recorded engine deps start) lucky.2

end Runs

/-- The answer to the creation of node 14041. -/
def nodeBody : String :=
  "\x7b\"id\":14041,\"region\":\"eu-central\",\"type\":\"g6-nanode-1\"," ++
    "\"status\":\"running\",\"ipv4\":[\"203.0.113.1\"],\"tags\":[\"sentinel-vpn-persistent\"]\x7d"

/-- `serde_json` on the one body of the runs below. -/
def nodeSerde : Serde where
  firstError _ := none
  linodeInstance body :=
    if body = nodeBody then
      .ok { id := 14041, region := "eu-central", kind := "g6-nanode-1", status := "running",
            ipv4 := ["203.0.113.1"], tags := [persistentVpnTag] }
    else .error "expected value at line 1 column 1"
  page _ := .error "missing field data"

def calmReply : (q : Call) → q.Reply
  | .generate => ⟨[1], [2]⟩
  | .fillBytes n => Vector.replicate n 0
  | .newUuid => ⟨"00000000000000000000000000000000", by decide⟩
  | .create _ | .get _ | .listEphemeral | .counters => .error .decrypt
  | .fetch .. => .ok ""
  | .delete _ | .up _ | .down => .ok ()
  | .now => 0
  | .swapConnecting | .vpnIsSome | .killswitchEnabled => false
  | .takeVpn => none
  | .getToken => some "token"
  | .preflight | .killswitchEngage _ => .ok ()
  | .keptIds | .resolveAllowedIps => []
  | .emit _ | .sleep _ | .clearConnecting | .setVpn _ | .killswitchClearAll | .stopMetrics
  | .spawnMetrics | .recordDisconnect _ | .insertHistory _ => ()

/-- Everything works. -/
def calm : Fate where
  reply := calmReply
  wire := .answered 200 (.ok nodeBody)
  made := none
  gone := false
  written := .done
  fault := none
  session := none

/-- The network is down: the text quotes the address of the node. -/
def offline : Fate :=
  { calm with
    wire := .failed
      "error sending request for url (https://api.linode.com/v4/linode/instances/14041)" }

def deployed : Round := ⟨.deploy "eu-central" "g6-nanode-1", List.replicate 40 calm⟩

def destroyedOffline : Round := ⟨.destroy, List.replicate 10 offline⟩

def freshWorld : World := ⟨[], .absent, none⟩

theorem calm_careful (q : Act) (w : World) : Careful nodeSerde q calm w := by
  cases q with
  | create spec => exact fun _ _ => rfl
  | delete id => exact fun alive => absurd rfl ((mem_cloud_delete.mp alive).2 rfl)
  | saveRecord record => rintro text ⟨⟩
  | _ => trivial

theorem run_recorded_deployed :
    (run fillEngine nodeSerde ⟨3, 0⟩ [deployed] freshWorld).cloud = ["14041"] ∧
      (run fillEngine nodeSerde ⟨3, 0⟩ [deployed] freshWorld).Recorded := by
  refine ⟨by decide +kernel, run_recorded fillEngine ⟨3, 0⟩ nodeSerde [deployed] freshWorld
    (World.recorded_of_empty rfl) ⟨⟨?_, by decide +kernel⟩, trivial⟩⟩
  refine Prog.meets_of_forall _ (fun o mem q w => ?_) _ _
  rw [List.eq_of_mem_replicate mem]
  exact calm_careful q w

/-- A request that was never answered makes the app forget a node that is still there. -/
theorem destroyedOffline_forgets :
    ¬ (run fillEngine nodeSerde ⟨3, 0⟩ [deployed, destroyedOffline] freshWorld).Recorded := by
  have after : run fillEngine nodeSerde ⟨3, 0⟩ [deployed, destroyedOffline] freshWorld =
      ⟨["14041"], .absent, none⟩ := by decide +kernel
  rw [after]
  intro recorded
  obtain ⟨record, holds, -⟩ := recorded "14041" (List.mem_singleton_self _)
  cases holds

end Sentinel.Vpn.AlwaysOn
