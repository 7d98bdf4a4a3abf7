import Mathlib

/-!
# The watchdog

`cloud/watchdog.rs`: from the samples of one tick and the latches of the earlier ones,
`evaluate` decides which alerts fire. A pass over the known keys finds the servers that
disappeared from a listing, a second pass goes through the samples. Both touch only the
entry of one key at a time, and `evaluate_key` says what a tick is for one key.

The order in which a hash map lists its keys only orders the alerts of the first pass among
each other; here it is the order of the association list. Metrics are `f64`s, of which the
watchdog uses no more than `Metric` lists. The counter of a release build wraps at 2³².
-/

namespace Sentinel.Servers

/-- `provider::InstanceState`. -/
inductive InstanceState where
  | provisioning | booting | running | stopped | deleting | gone
  deriving DecidableEq, Repr

/-- The `f64` operations of the watchdog: `>=`, `<` and `- 5.0`. -/
class Metric (F : Type) where
  ge : F → F → Bool
  lt : F → F → Bool
  minusFive : F → F

instance : Metric ℚ where
  ge a b := decide (b ≤ a)
  lt a b := decide (a < b)
  minusFive a := a - 5

structure WatchdogCfg (F : Type) where
  cpuPct : F
  cpuSustainTicks : Nat
  diskPct : F

/-- One server's observation for a tick; `none` is unknown. -/
structure ServerSample (F : Type) where
  key : String
  label : String
  state : InstanceState
  cpuPct : Option F
  diskUsedPct : Option F
  netdataAlarms : Option Nat

inductive Alert (F : Type) where
  | down (key label : String)
  | recovered (key label : String)
  | cpuHigh (key label : String) (pct : F)
  | diskHigh (key label : String) (pct : F)
  | netdataAlarm (key label : String) (count : Nat)
  deriving DecidableEq

def Alert.key {F : Type} : Alert F → String
  | down key _ | recovered key _ | cpuHigh key _ _ | diskHigh key _ _ | netdataAlarm key _ _ => key

/-- The constructor of an alert. -/
inductive AlertKind where
  | down | recovered | cpuHigh | diskHigh | netdataAlarm
  deriving DecidableEq, Repr

def Alert.kind {F : Type} : Alert F → AlertKind
  | down .. => .down
  | recovered .. => .recovered
  | cpuHigh .. => .cpuHigh
  | diskHigh .. => .diskHigh
  | netdataAlarm .. => .netdataAlarm

structure EntryState where
  wasRunning : Bool := false
  downLatched : Bool := false
  cpuOverTicks : Nat := 0
  cpuLatched : Bool := false
  diskLatched : Bool := false
  alarmLatched : Bool := false

structure WatchdogState where
  entries : AList fun _ : String => EntryState := ∅

namespace WatchdogState

/-- `entries.entry(key).or_default()`. -/
def entry (st : WatchdogState) (key : String) : EntryState := (st.entries.lookup key).getD {}

def set (st : WatchdogState) (key : String) (e : EntryState) : WatchdogState :=
  { st with entries := st.entries.insert key e }

@[simp] theorem entry_set (st : WatchdogState) (key k : String) (e : EntryState) :
    (st.set key e).entry k = if k = key then e else st.entry k := by
  by_cases same : k = key
  · subst same
    simp [entry, set]
  · simp [entry, set, AList.lookup_insert_ne same, same]

end WatchdogState

section Evaluate

variable {F : Type} [Metric F]

/-- Down and recovered: transitions, latched. -/
def watchState (s : ServerSample F) (e : EntryState) : EntryState × List (Alert F) :=
  let running := decide (s.state = .running)
  if e.wasRunning && !running && !e.downLatched then
    ({ e with downLatched := true, wasRunning := running }, [.down s.key s.label])
  else if e.downLatched && running then
    ({ e with downLatched := false, wasRunning := running }, [.recovered s.key s.label])
  else ({ e with wasRunning := running }, [])

/-- CPU: sustained and latched; armed again below the threshold. -/
def watchCpu (cfg : WatchdogCfg F) (s : ServerSample F) (e : EntryState) :
    EntryState × List (Alert F) :=
  match s.cpuPct with
  | some p =>
      if Metric.ge p cfg.cpuPct then
        let ticks := (e.cpuOverTicks + 1) % 2 ^ 32
        if decide (cfg.cpuSustainTicks ≤ ticks) && !e.cpuLatched then
          ({ e with cpuOverTicks := ticks, cpuLatched := true }, [.cpuHigh s.key s.label p])
        else ({ e with cpuOverTicks := ticks }, [])
      else ({ e with cpuOverTicks := 0, cpuLatched := false }, [])
  | none => (e, [])

/-- Disk: latched at once; armed again five points under the threshold. -/
def watchDisk (cfg : WatchdogCfg F) (s : ServerSample F) (e : EntryState) :
    EntryState × List (Alert F) :=
  match s.diskUsedPct with
  | some p =>
      if Metric.ge p cfg.diskPct then
        if e.diskLatched then (e, [])
        else ({ e with diskLatched := true }, [.diskHigh s.key s.label p])
      else if Metric.lt p (Metric.minusFive cfg.diskPct) then ({ e with diskLatched := false }, [])
      else (e, [])
  | none => (e, [])

/-- Netdata alarms: latched on any active one; armed again when there is none. -/
def watchAlarms (s : ServerSample F) (e : EntryState) : EntryState × List (Alert F) :=
  match s.netdataAlarms with
  | some n =>
      if 0 < n then
        if e.alarmLatched then (e, [])
        else ({ e with alarmLatched := true }, [.netdataAlarm s.key s.label n])
      else ({ e with alarmLatched := false }, [])
  | none => (e, [])

/-- The body of the loop over the samples. -/
def watch (cfg : WatchdogCfg F) (s : ServerSample F) (e : EntryState) :
    EntryState × List (Alert F) :=
  let (e, up) := watchState s e
  let (e, cpu) := watchCpu cfg s e
  let (e, disk) := watchDisk cfg s e
  let (e, alarms) := watchAlarms s e
  (e, up ++ cpu ++ disk ++ alarms)

/-- The listing of a provider succeeded that the key begins with. -/
def listed (providersOk : List String) (key : String) : Bool :=
  providersOk.any fun p => (p ++ ":").toList.isPrefixOf key.toList

/-- A server that ran and is missing from a listing that succeeded. -/
def disappeared (samples : List (ServerSample F)) (providersOk : List String) (key : String)
    (e : EntryState) : Bool :=
  e.wasRunning && !e.downLatched && !(samples.any fun s => s.key == key) && listed providersOk key

/-- The first loop. -/
def markMissing (acc : WatchdogState × List (Alert F)) (key : String) :
    WatchdogState × List (Alert F) :=
  (acc.1.set key { acc.1.entry key with downLatched := true, wasRunning := false },
    acc.2 ++ [Alert.down key key])

/-- The second loop. -/
def markSample (cfg : WatchdogCfg F) (acc : WatchdogState × List (Alert F))
    (s : ServerSample F) : WatchdogState × List (Alert F) :=
  let (e, alerts) := watch cfg s (acc.1.entry s.key)
  (acc.1.set s.key e, acc.2 ++ alerts)

/-- `evaluate`. -/
def evaluate (st : WatchdogState) (samples : List (ServerSample F)) (providersOk : List String)
    (cfg : WatchdogCfg F) : WatchdogState × List (Alert F) :=
  let missing := (st.entries.entries.filter fun x =>
    disappeared samples providersOk x.1 x.2).map Sigma.fst
  samples.foldl (markSample cfg) (missing.foldl markMissing (st, []))

/-! ## One key -/

/-- A tick for the key: its sample, if there is one, and whether its provider's listing
succeeded. -/
def keyTick (cfg : WatchdogCfg F) (sample : Option (ServerSample F)) (isListed : Bool)
    (key : String) (e : EntryState) : EntryState × List (Alert F) :=
  match sample with
  | some s => watch cfg s e
  | none =>
      if e.wasRunning && !e.downLatched && isListed then
        ({ e with downLatched := true, wasRunning := false }, [.down key key])
      else (e, [])

/-- The alerts about a key. -/
def about (key : String) (alerts : List (Alert F)) : List (Alert F) :=
  alerts.filter fun a => decide (a.key = key)

omit [Metric F] in
@[simp] theorem about_append (key : String) (l m : List (Alert F)) :
    about key (l ++ m) = about key l ++ about key m := List.filter_append ..

omit [Metric F] in
theorem watchState_alerts (s : ServerSample F) (e : EntryState) :
    ∀ a ∈ (watchState s e).2, a.key = s.key ∧ (a.kind = .down ∨ a.kind = .recovered) := by
  grind [watchState, Alert.key, Alert.kind]

theorem watchCpu_alerts (cfg : WatchdogCfg F) (s : ServerSample F) (e : EntryState) :
    ∀ a ∈ (watchCpu cfg s e).2, a.key = s.key ∧ a.kind = .cpuHigh := by
  grind [watchCpu, Alert.key, Alert.kind]

theorem watchDisk_alerts (cfg : WatchdogCfg F) (s : ServerSample F) (e : EntryState) :
    ∀ a ∈ (watchDisk cfg s e).2, a.key = s.key ∧ a.kind = .diskHigh := by
  grind [watchDisk, Alert.key, Alert.kind]

omit [Metric F] in
theorem watchAlarms_alerts (s : ServerSample F) (e : EntryState) :
    ∀ a ∈ (watchAlarms s e).2, a.key = s.key ∧ a.kind = .netdataAlarm := by
  grind [watchAlarms, Alert.key, Alert.kind]

/-- The alerts of a sample are about its server. -/
theorem watch_key (cfg : WatchdogCfg F) (s : ServerSample F) (e : EntryState) :
    ∀ a ∈ (watch cfg s e).2, a.key = s.key := by
  intro a mem
  simp only [watch, List.mem_append] at mem
  obtain ((up | cpu) | disk) | alarms := mem
  · exact (watchState_alerts _ _ a up).1
  · exact (watchCpu_alerts _ _ _ a cpu).1
  · exact (watchDisk_alerts _ _ _ a disk).1
  · exact (watchAlarms_alerts _ _ a alarms).1

theorem about_watch (cfg : WatchdogCfg F) (s : ServerSample F) (e : EntryState) (key : String) :
    about key (watch cfg s e).2 = if s.key = key then (watch cfg s e).2 else [] := by
  by_cases own : s.key = key
  · rw [if_pos own]
    refine List.filter_eq_self.mpr fun a mem => decide_eq_true ?_
    rw [watch_key cfg s e a mem, own]
  · rw [if_neg own]
    refine List.filter_eq_nil_iff.mpr fun a mem => ?_
    rw [decide_eq_true_eq, watch_key cfg s e a mem]
    exact own

omit [Metric F] in
/-- What the first loop does to one key. -/
theorem foldl_markMissing (missing : List String) (nodup : missing.Nodup)
    (acc : WatchdogState × List (Alert F)) (key : String) :
    (missing.foldl markMissing acc).1.entry key =
        (if key ∈ missing then { acc.1.entry key with downLatched := true, wasRunning := false }
          else acc.1.entry key) ∧
      about key (missing.foldl markMissing acc).2 =
        about key acc.2 ++ if key ∈ missing then [Alert.down key key] else [] := by
  induction missing generalizing acc with
  | nil => simp
  | cons k rest ih =>
      obtain ⟨new, nodup⟩ := List.nodup_cons.mp nodup
      obtain ⟨state, alerts⟩ := ih nodup (markMissing acc k)
      rw [List.foldl_cons, state, alerts]
      by_cases own : key = k
      · subst own
        simp [new, markMissing, about, Alert.key]
      · have other : ¬ k = key := fun same => own same.symm
        simp [own, other, markMissing, about, Alert.key]

/-- What the second loop does to one key. -/
theorem foldl_markSample (cfg : WatchdogCfg F) (samples : List (ServerSample F))
    (distinct : (samples.map ServerSample.key).Nodup) (acc : WatchdogState × List (Alert F))
    (key : String) :
    ((samples.foldl (markSample cfg) acc).1.entry key,
        about key (samples.foldl (markSample cfg) acc).2) =
      match samples.find? fun s => decide (s.key = key) with
      | some s => ((watch cfg s (acc.1.entry key)).1,
          about key acc.2 ++ (watch cfg s (acc.1.entry key)).2)
      | none => (acc.1.entry key, about key acc.2) := by
  induction samples generalizing acc with
  | nil => rfl
  | cons s rest ih =>
      rw [List.map_cons, List.nodup_cons] at distinct
      rw [List.foldl_cons, ih distinct.2, List.find?_cons]
      by_cases own : s.key = key
      · have absent : (rest.find? fun t => decide (t.key = key)) = none := by
          refine List.find?_eq_none.mpr fun t mem same => distinct.1 ?_
          rw [own, ← of_decide_eq_true same]
          exact List.mem_map_of_mem mem
        simp [absent, own, markSample, about_watch]
      · have other : ¬ key = s.key := fun same => own same.symm
        simp [own, other, markSample, about_watch]

omit [Metric F] in
/-- The keys of the first loop. -/
theorem mem_missing (st : WatchdogState) (samples : List (ServerSample F))
    (providersOk : List String) (key : String) :
    key ∈ (st.entries.entries.filter fun x => disappeared samples providersOk x.1 x.2).map
        Sigma.fst ↔ disappeared samples providersOk key (st.entry key) = true := by
  rw [List.mem_map]
  constructor
  · rintro ⟨⟨k, e⟩, mem, rfl⟩
    obtain ⟨there, gone⟩ := List.mem_filter.mp mem
    have found := AList.mem_lookup_iff.mpr there
    rw [WatchdogState.entry, Option.mem_def.mp found]
    exact gone
  · intro gone
    rw [WatchdogState.entry] at gone
    cases found : st.entries.lookup key with
    | none =>
        rw [found] at gone
        cases gone
    | some e =>
        rw [found] at gone
        exact ⟨⟨key, e⟩, List.mem_filter.mpr ⟨AList.mem_lookup_iff.mp found, gone⟩, rfl⟩

theorem nodup_missing (st : WatchdogState) (p : (Σ _ : String, EntryState) → Bool) :
    ((st.entries.entries.filter p).map Sigma.fst).Nodup := by
  refine List.Nodup.sublist ?_ st.entries.keys_nodup
  exact List.filter_sublist.map _

/-- A tick is, for every key, what `keyTick` says of it. -/
theorem evaluate_key (st : WatchdogState) {samples : List (ServerSample F)}
    (distinct : (samples.map ServerSample.key).Nodup) (providersOk : List String)
    (cfg : WatchdogCfg F) (key : String) :
    ((evaluate st samples providersOk cfg).1.entry key,
        about key (evaluate st samples providersOk cfg).2) =
      keyTick cfg (samples.find? fun s => decide (s.key = key)) (listed providersOk key) key
        (st.entry key) := by
  obtain ⟨state, alerts⟩ := foldl_markMissing _
    (nodup_missing st fun x => disappeared samples providersOk x.1 x.2) (st, []) key
  rw [evaluate, foldl_markSample cfg samples distinct, state, alerts]
  simp only [mem_missing]
  cases sampled : samples.find? fun s => decide (s.key = key) with
  | some s =>
      have present : disappeared samples providersOk key (st.entry key) = false := by
        have here : (samples.any fun s => s.key == key) = true := by
          refine List.any_eq_true.mpr ⟨s, List.mem_of_find?_eq_some sampled, ?_⟩
          simpa using List.find?_some sampled
        rw [disappeared, here]
        simp
      simp [present, keyTick, about]
  | none =>
      have absent : (samples.any fun s => s.key == key) = false := by
        have none_ := List.find?_eq_none.mp sampled
        simpa using none_
      by_cases gone : disappeared samples providersOk key (st.entry key) = true
      · have lost := gone
        simp only [disappeared, absent, Bool.not_false, Bool.and_true] at lost
        simp [gone, keyTick, lost, about]
      · have lost := gone
        simp only [disappeared, absent, Bool.not_false, Bool.and_true] at lost
        simp [gone, keyTick, lost, about]

/-- The four parts of the loop body have their own fields and do not see the others. -/
theorem watch_eq (cfg : WatchdogCfg F) (s : ServerSample F) (e : EntryState) :
    watch cfg s e =
      ({ wasRunning := (watchState s e).1.wasRunning
         downLatched := (watchState s e).1.downLatched
         cpuOverTicks := (watchCpu cfg s e).1.cpuOverTicks
         cpuLatched := (watchCpu cfg s e).1.cpuLatched
         diskLatched := (watchDisk cfg s e).1.diskLatched
         alarmLatched := (watchAlarms s e).1.alarmLatched },
        (watchState s e).2 ++ (watchCpu cfg s e).2 ++ (watchDisk cfg s e).2 ++
          (watchAlarms s e).2) := by
  obtain ⟨w, d, state⟩ :
      ∃ w d, (watchState s e).1 = { e with wasRunning := w, downLatched := d } := by
    unfold watchState
    dsimp only
    split
    · exact ⟨_, _, rfl⟩
    · split <;> exact ⟨_, _, rfl⟩
  have cpu : watchCpu cfg s { e with wasRunning := w, downLatched := d } =
      ({ (watchCpu cfg s e).1 with wasRunning := w, downLatched := d }, (watchCpu cfg s e).2) := by
    unfold watchCpu
    dsimp only
    split
    · split
      · split <;> rfl
      · rfl
    · rfl
  obtain ⟨n, c, cpuOnly⟩ :
      ∃ n c, (watchCpu cfg s e).1 = { e with cpuOverTicks := n, cpuLatched := c } := by
    unfold watchCpu
    dsimp only
    split
    · split
      · split <;> exact ⟨_, _, rfl⟩
      · exact ⟨_, _, rfl⟩
    · exact ⟨_, _, rfl⟩
  have disk : watchDisk cfg s { e with
      wasRunning := w, downLatched := d, cpuOverTicks := n, cpuLatched := c } =
      ({ (watchDisk cfg s e).1 with
        wasRunning := w, downLatched := d, cpuOverTicks := n, cpuLatched := c },
        (watchDisk cfg s e).2) := by
    unfold watchDisk
    dsimp only
    split
    · split
      · split <;> rfl
      · split <;> rfl
    · rfl
  obtain ⟨k, diskOnly⟩ : ∃ k, (watchDisk cfg s e).1 = { e with diskLatched := k } := by
    unfold watchDisk
    split
    · split
      · split <;> exact ⟨_, rfl⟩
      · split <;> exact ⟨_, rfl⟩
    · exact ⟨_, rfl⟩
  have alarms : watchAlarms s { e with
      wasRunning := w, downLatched := d, cpuOverTicks := n, cpuLatched := c, diskLatched := k } =
      (({ (watchAlarms s e).1 with
        wasRunning := w, downLatched := d, cpuOverTicks := n, cpuLatched := c, diskLatched := k } :
        EntryState), ((watchAlarms s e).2 : List (Alert F))) := by
    unfold watchAlarms
    dsimp only
    split
    · split
      · split <;> rfl
      · rfl
    · rfl
  simp only [watch, state, cpu, cpuOnly, disk, diskOnly, alarms]

/-- Which part of the loop body fires an alert. -/
theorem mem_watch {cfg : WatchdogCfg F} {s : ServerSample F} {e : EntryState} {a : Alert F} :
    a ∈ (watch cfg s e).2 ↔
      match a.kind with
      | .down | .recovered => a ∈ (watchState s e).2
      | .cpuHigh => a ∈ (watchCpu cfg s e).2
      | .diskHigh => a ∈ (watchDisk cfg s e).2
      | .netdataAlarm => a ∈ (watchAlarms s e).2 := by
  have up := watchState_alerts s e a
  have cpu := watchCpu_alerts cfg s e a
  have disk := watchDisk_alerts cfg s e a
  have alarms := watchAlarms_alerts s e a
  rw [watch_eq]
  simp only [List.mem_append]
  cases kind : a.kind <;> simp_all

end Evaluate

end Sentinel.Servers
