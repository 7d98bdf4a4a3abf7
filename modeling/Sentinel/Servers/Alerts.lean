import Sentinel.Servers.Watchdog

/-!
# What the alerts say about a run

Any sequence of ticks, with any samples, listings and thresholds. `entryAt` is the entry of a
key before a tick; what a tick does to it is `keyTick`, and the latches are read off the
history: a server counts as running from a tick that samples it running until a tick that
loses it.
-/

namespace Sentinel.Servers

/-- What one call of `evaluate` is given. -/
structure Tick (F : Type) where
  samples : List (ServerSample F)
  providersOk : List String
  cfg : WatchdogCfg F
  distinct : (samples.map ServerSample.key).Nodup

section Ticks

variable {F : Type} [Metric F]

def Tick.evaluate (t : Tick F) (st : WatchdogState) : WatchdogState × List (Alert F) :=
  Servers.evaluate st t.samples t.providersOk t.cfg

/-- The state after the ticks, and the alerts they fired. -/
def watchdogRun (ticks : List (Tick F)) : WatchdogState × List (Alert F) :=
  ticks.foldl (fun acc t => ((t.evaluate acc.1).1, acc.2 ++ (t.evaluate acc.1).2)) ({}, [])

/-- The alerts of the `n`th tick. -/
def alertsAt (ticks : List (Tick F)) (n : Nat) : List (Alert F) :=
  match ticks[n]? with
  | some t => (t.evaluate (watchdogRun (ticks.take n)).1).2
  | none => []

/-- The `n`th tick fires an alert of this kind about the key. -/
def Fires (kind : AlertKind) (ticks : List (Tick F)) (key : String) (n : Nat) : Prop :=
  ∃ a ∈ alertsAt ticks n, a.key = key ∧ a.kind = kind

/-- The `n`th tick samples the key, with this property. -/
def Sampled (ticks : List (Tick F)) (key : String) (n : Nat)
    (property : WatchdogCfg F → ServerSample F → Prop) : Prop :=
  ∃ t, ticks[n]? = some t ∧ ∃ s ∈ t.samples, s.key = key ∧ property t.cfg s

/-- The key is sampled running. -/
def Runs (ticks : List (Tick F)) (key : String) (n : Nat) : Prop :=
  Sampled ticks key n fun _ s => s.state = .running

/-- The key has no sample; `ok` says whether its provider's listing succeeded. -/
def Absent (ticks : List (Tick F)) (key : String) (n : Nat) (ok : Bool) : Prop :=
  ∃ t, ticks[n]? = some t ∧ (∀ s ∈ t.samples, s.key ≠ key) ∧ listed t.providersOk key = ok

/-- The key is sampled not running, or is missing from a listing that succeeded. -/
def Lost (ticks : List (Tick F)) (key : String) (n : Nat) : Prop :=
  (Sampled ticks key n fun _ s => s.state ≠ .running) ∨ Absent ticks key n true

/-- The key is sampled with a CPU value at or above the threshold of the tick. -/
def CpuHot (ticks : List (Tick F)) (key : String) (n : Nat) : Prop :=
  Sampled ticks key n fun cfg s => ∃ p, s.cpuPct = some p ∧ Metric.ge p cfg.cpuPct = true

/-- The key is sampled with a CPU value below the threshold of the tick. -/
def CpuCool (ticks : List (Tick F)) (key : String) (n : Nat) : Prop :=
  Sampled ticks key n fun cfg s => ∃ p, s.cpuPct = some p ∧ Metric.ge p cfg.cpuPct = false

/-! ## The tick of one key -/

section KeyTick

variable {cfg : WatchdogCfg F} {sample : Option (ServerSample F)} {ok : Bool} {key : String}
variable {e : EntryState}

theorem keyTick_down : (∃ a ∈ (keyTick cfg sample ok key e).2, a.kind = .down) ↔
    e.wasRunning = true ∧ e.downLatched = false ∧
      ((∃ s, sample = some s ∧ s.state ≠ .running) ∨ sample = none ∧ ok = true) := by
  cases sample with
  | none =>
      simp only [keyTick]
      split <;> simp_all [Alert.kind]
  | some s =>
      have part : (∃ a ∈ (watch cfg s e).2, a.kind = .down) ↔
          ∃ a ∈ (watchState s e).2, a.kind = .down := by
        refine exists_congr fun a => and_congr_left fun kind => ?_
        rw [mem_watch, kind]
      simp only [keyTick, part]
      by_cases running : s.state = .running <;> cases was : e.wasRunning <;>
        cases latched : e.downLatched <;> simp [watchState, running, was, latched, Alert.kind]

theorem keyTick_recovered : (∃ a ∈ (keyTick cfg sample ok key e).2, a.kind = .recovered) ↔
    e.downLatched = true ∧ ∃ s, sample = some s ∧ s.state = .running := by
  cases sample with
  | none =>
      simp only [keyTick]
      split <;> simp [Alert.kind]
  | some s =>
      have part : (∃ a ∈ (watch cfg s e).2, a.kind = .recovered) ↔
          ∃ a ∈ (watchState s e).2, a.kind = .recovered := by
        refine exists_congr fun a => and_congr_left fun kind => ?_
        rw [mem_watch, kind]
      simp only [keyTick, part]
      by_cases running : s.state = .running <;> cases was : e.wasRunning <;>
        cases latched : e.downLatched <;> simp [watchState, running, was, latched, Alert.kind]

theorem keyTick_cpuHigh : (∃ a ∈ (keyTick cfg sample ok key e).2, a.kind = .cpuHigh) ↔
    e.cpuLatched = false ∧ cfg.cpuSustainTicks ≤ (e.cpuOverTicks + 1) % 2 ^ 32 ∧
      ∃ s p, sample = some s ∧ s.cpuPct = some p ∧ Metric.ge p cfg.cpuPct = true := by
  cases sample with
  | none =>
      simp only [keyTick]
      split <;> simp [Alert.kind]
  | some s =>
      have part : (∃ a ∈ (watch cfg s e).2, a.kind = .cpuHigh) ↔
          ∃ a ∈ (watchCpu cfg s e).2, a.kind = .cpuHigh := by
        refine exists_congr fun a => and_congr_left fun kind => ?_
        rw [mem_watch, kind]
      simp only [keyTick, part, watchCpu]
      cases known : s.cpuPct with
      | none => simp [known]
      | some p =>
          generalize (e.cpuOverTicks + 1) % 2 ^ 32 = ticks
          by_cases sustained : cfg.cpuSustainTicks ≤ ticks <;>
            cases hot : Metric.ge p cfg.cpuPct <;> cases e.cpuLatched <;>
            simp [known, hot, sustained, Alert.kind]

theorem keyTick_diskHigh : (∃ a ∈ (keyTick cfg sample ok key e).2, a.kind = .diskHigh) ↔
    e.diskLatched = false ∧
      ∃ s p, sample = some s ∧ s.diskUsedPct = some p ∧ Metric.ge p cfg.diskPct = true := by
  cases sample with
  | none =>
      simp only [keyTick]
      split <;> simp [Alert.kind]
  | some s =>
      have part : (∃ a ∈ (watch cfg s e).2, a.kind = .diskHigh) ↔
          ∃ a ∈ (watchDisk cfg s e).2, a.kind = .diskHigh := by
        refine exists_congr fun a => and_congr_left fun kind => ?_
        rw [mem_watch, kind]
      simp only [keyTick, part, watchDisk]
      cases known : s.diskUsedPct with
      | none => simp [known]
      | some p =>
          cases full : Metric.ge p cfg.diskPct <;>
            cases low : Metric.lt p (Metric.minusFive cfg.diskPct) <;>
            cases e.diskLatched <;> simp [known, full, low, Alert.kind]

theorem keyTick_netdataAlarm :
    (∃ a ∈ (keyTick cfg sample ok key e).2, a.kind = .netdataAlarm) ↔
      e.alarmLatched = false ∧ ∃ s n, sample = some s ∧ s.netdataAlarms = some n ∧ 0 < n := by
  cases sample with
  | none =>
      simp only [keyTick]
      split <;> simp [Alert.kind]
  | some s =>
      have part : (∃ a ∈ (watch cfg s e).2, a.kind = .netdataAlarm) ↔
          ∃ a ∈ (watchAlarms s e).2, a.kind = .netdataAlarm := by
        refine exists_congr fun a => and_congr_left fun kind => ?_
        rw [mem_watch, kind]
      simp only [keyTick, part, watchAlarms]
      cases known : s.netdataAlarms with
      | none => simp [known]
      | some n =>
          cases e.alarmLatched <;> cases n <;> simp [known, Alert.kind]

theorem keyTick_wasRunning : (keyTick cfg sample ok key e).1.wasRunning = true ↔
    (∃ s, sample = some s ∧ s.state = .running) ∨
      sample = none ∧ e.wasRunning = true ∧ (e.downLatched = true ∨ ok = false) := by
  cases sample with
  | none =>
      cases was : e.wasRunning <;> cases latched : e.downLatched <;> cases ok <;>
        simp [keyTick, was, latched]
  | some s =>
      simp only [keyTick, watch_eq]
      by_cases running : s.state = .running <;> cases was : e.wasRunning <;>
        cases latched : e.downLatched <;> simp [watchState, running, was, latched]

theorem keyTick_downLatched : (keyTick cfg sample ok key e).1.downLatched = true ↔
    ¬ (∃ s, sample = some s ∧ s.state = .running) ∧ (e.downLatched = true ∨
      e.wasRunning = true ∧
        ((∃ s, sample = some s ∧ s.state ≠ .running) ∨ sample = none ∧ ok = true)) := by
  cases sample with
  | none =>
      cases was : e.wasRunning <;> cases latched : e.downLatched <;> cases ok <;>
        simp [keyTick, was, latched]
  | some s =>
      simp only [keyTick, watch_eq]
      by_cases running : s.state = .running <;> cases was : e.wasRunning <;>
        cases latched : e.downLatched <;> simp [watchState, running, was, latched]

/-- An alert about the CPU latches, and only a value below the threshold unlatches. -/
theorem keyTick_cpuLatched :
    ((∃ a ∈ (keyTick cfg sample ok key e).2, a.kind = .cpuHigh) →
      (keyTick cfg sample ok key e).1.cpuLatched = true) ∧
    (e.cpuLatched = true → (keyTick cfg sample ok key e).1.cpuLatched = false →
      ∃ s p, sample = some s ∧ s.cpuPct = some p ∧ Metric.ge p cfg.cpuPct = false) := by
  rw [keyTick_cpuHigh]
  cases sample with
  | none =>
      refine ⟨fun fires => by simp at fires, fun latched cleared => ?_⟩
      simp only [keyTick] at cleared
      split at cleared <;> simp_all
  | some s =>
      simp only [keyTick, watch_eq, watchCpu]
      generalize (e.cpuOverTicks + 1) % 2 ^ 32 = ticks
      cases known : s.cpuPct with
      | none => simp [known]
      | some p =>
          by_cases sustained : cfg.cpuSustainTicks ≤ ticks <;>
            cases hot : Metric.ge p cfg.cpuPct <;> cases latched : e.cpuLatched <;>
            simp [known, hot, sustained]

/-- The counter of a key that has not alerted. -/
theorem keyTick_cpuOverTicks :
    (keyTick cfg sample ok key e).1.cpuOverTicks =
      match sample.bind ServerSample.cpuPct with
      | some p => if Metric.ge p cfg.cpuPct then (e.cpuOverTicks + 1) % 2 ^ 32 else 0
      | none => e.cpuOverTicks := by
  cases sample with
  | none =>
      simp only [keyTick]
      split <;> rfl
  | some s =>
      simp only [keyTick, watch_eq, watchCpu, Option.bind_some]
      cases known : s.cpuPct with
      | none => rfl
      | some p =>
          generalize (e.cpuOverTicks + 1) % 2 ^ 32 = ticks
          by_cases sustained : cfg.cpuSustainTicks ≤ ticks <;>
            cases hot : Metric.ge p cfg.cpuPct <;> cases latched : e.cpuLatched <;>
            simp [hot, sustained]

/-- An alert about the disk latches, and only a value five points under the threshold
unlatches. -/
theorem keyTick_diskLatched :
    ((∃ a ∈ (keyTick cfg sample ok key e).2, a.kind = .diskHigh) →
      (keyTick cfg sample ok key e).1.diskLatched = true) ∧
    (e.diskLatched = true → (keyTick cfg sample ok key e).1.diskLatched = false →
      ∃ s p, sample = some s ∧ s.diskUsedPct = some p ∧
        Metric.lt p (Metric.minusFive cfg.diskPct) = true) := by
  rw [keyTick_diskHigh]
  cases sample with
  | none =>
      refine ⟨fun fires => by simp at fires, fun latched cleared => ?_⟩
      simp only [keyTick] at cleared
      split at cleared <;> simp_all
  | some s =>
      simp only [keyTick, watch_eq, watchDisk]
      cases known : s.diskUsedPct with
      | none => simp [known]
      | some p =>
          cases full : Metric.ge p cfg.diskPct <;>
            cases low : Metric.lt p (Metric.minusFive cfg.diskPct) <;>
            cases latched : e.diskLatched <;> simp [known, full, low, latched]

/-- An alert about alarms latches, and only their absence unlatches. -/
theorem keyTick_alarmLatched :
    ((∃ a ∈ (keyTick cfg sample ok key e).2, a.kind = .netdataAlarm) →
      (keyTick cfg sample ok key e).1.alarmLatched = true) ∧
    (e.alarmLatched = true → (keyTick cfg sample ok key e).1.alarmLatched = false →
      ∃ s, sample = some s ∧ s.netdataAlarms = some 0) := by
  rw [keyTick_netdataAlarm]
  cases sample with
  | none =>
      refine ⟨fun fires => by simp at fires, fun latched cleared => ?_⟩
      simp only [keyTick] at cleared
      split at cleared <;> simp_all
  | some s =>
      simp only [keyTick, watch_eq, watchAlarms]
      cases known : s.netdataAlarms with
      | none => simp [known]
      | some n => cases latched : e.alarmLatched <;> cases n <;> simp [known, latched]

end KeyTick

/-! ## The ticks of one key -/

/-- The entry of the key before the `n`th tick. -/
def entryAt (ticks : List (Tick F)) (key : String) (n : Nat) : EntryState :=
  (watchdogRun (ticks.take n)).1.entry key

variable {ticks : List (Tick F)} {key : String} {n : Nat}

theorem watchdogRun_concat (ticks : List (Tick F)) (t : Tick F) :
    watchdogRun (ticks ++ [t]) = ((t.evaluate (watchdogRun ticks).1).1,
      (watchdogRun ticks).2 ++ (t.evaluate (watchdogRun ticks).1).2) :=
  List.foldl_concat ..

/-- The sample of a key in a tick. -/
def Tick.sample (t : Tick F) (key : String) : Option (ServerSample F) :=
  t.samples.find? fun s => decide (s.key = key)

omit [Metric F] in
theorem Tick.sample_eq_some {t : Tick F} {s : ServerSample F} :
    t.sample key = some s ↔ s ∈ t.samples ∧ s.key = key := by
  constructor
  · intro found
    have own := List.find?_some found
    exact ⟨List.mem_of_find?_eq_some found, of_decide_eq_true own⟩
  · rintro ⟨mem, rfl⟩
    cases found : t.sample s.key with
    | none => simpa using List.find?_eq_none.mp found s mem
    | some s' =>
        have same := List.find?_some found
        rw [List.inj_on_of_nodup_map t.distinct (List.mem_of_find?_eq_some found) mem
          (of_decide_eq_true same)]

omit [Metric F] in
theorem Tick.sample_eq_none {t : Tick F} : t.sample key = none ↔ ∀ s ∈ t.samples, s.key ≠ key := by
  simp [Tick.sample]

omit [Metric F] in
theorem sampled_iff {t : Tick F} (at_ : ticks[n]? = some t)
    {property : WatchdogCfg F → ServerSample F → Prop} :
    Sampled ticks key n property ↔ ∃ s, t.sample key = some s ∧ property t.cfg s := by
  constructor
  · rintro ⟨t', at', s, mem, own, holds⟩
    cases at_.symm.trans at'
    exact ⟨s, Tick.sample_eq_some.mpr ⟨mem, own⟩, holds⟩
  · rintro ⟨s, found, holds⟩
    obtain ⟨mem, own⟩ := Tick.sample_eq_some.mp found
    exact ⟨t, at_, s, mem, own, holds⟩

omit [Metric F] in
theorem absent_iff {t : Tick F} (at_ : ticks[n]? = some t) {ok : Bool} :
    Absent ticks key n ok ↔ t.sample key = none ∧ listed t.providersOk key = ok := by
  rw [Tick.sample_eq_none]
  constructor
  · rintro ⟨t', at', absent, isListed⟩
    cases at_.symm.trans at'
    exact ⟨absent, isListed⟩
  · rintro ⟨absent, isListed⟩
    exact ⟨t, at_, absent, isListed⟩

/-- The `n`th tick for the key. -/
theorem tick_eq {t : Tick F} (at_ : ticks[n]? = some t) (key : String) :
    (entryAt ticks key (n + 1), about key (alertsAt ticks n)) =
      keyTick t.cfg (t.sample key) (listed t.providersOk key) key (entryAt ticks key n) := by
  have cut : ticks.take (n + 1) = ticks.take n ++ [t] := by
    rw [List.take_add_one, at_]
    rfl
  rw [entryAt, alertsAt, at_, cut, watchdogRun_concat]
  exact evaluate_key _ t.distinct t.providersOk t.cfg key

theorem entryAt_succ {t : Tick F} (at_ : ticks[n]? = some t) (key : String) :
    entryAt ticks key (n + 1) =
      (keyTick t.cfg (t.sample key) (listed t.providersOk key) key (entryAt ticks key n)).1 :=
  congrArg Prod.fst (tick_eq at_ key)

theorem about_alertsAt {t : Tick F} (at_ : ticks[n]? = some t) (key : String) :
    about key (alertsAt ticks n) =
      (keyTick t.cfg (t.sample key) (listed t.providersOk key) key (entryAt ticks key n)).2 :=
  congrArg Prod.snd (tick_eq at_ key)

theorem fires_iff {t : Tick F} (at_ : ticks[n]? = some t) {kind : AlertKind} :
    Fires kind ticks key n ↔ ∃ a ∈ (keyTick t.cfg (t.sample key) (listed t.providersOk key) key
      (entryAt ticks key n)).2, a.kind = kind := by
  rw [← about_alertsAt at_ key]
  simp only [Fires, about, List.mem_filter, decide_eq_true_eq, and_assoc]

theorem Fires.tick {kind : AlertKind} (h : Fires kind ticks key n) :
    ∃ t, ticks[n]? = some t := by
  obtain ⟨a, mem, -⟩ := h
  unfold alertsAt at mem
  cases at_ : ticks[n]? with
  | some t => exact ⟨t, rfl⟩
  | none =>
      rw [at_] at mem
      cases mem

/-- The end of the run. -/
theorem entryAt_of_none (over_ : ticks[n]? = none) (key : String) :
    entryAt ticks key (n + 1) = entryAt ticks key n := by
  have len := List.getElem?_eq_none_iff.mp over_
  rw [entryAt, entryAt, List.take_of_length_le len, List.take_of_length_le (len.trans n.le_succ)]

/-! ## Down and recovered -/

/-- The server was running when it was last seen, as far as the ticks before the `n`th know. -/
def SeenRunning (ticks : List (Tick F)) (key : String) (n : Nat) : Prop :=
  ∃ i < n, Runs ticks key i ∧ ∀ j, i < j → j < n → ¬ Lost ticks key j

omit [Metric F] in
theorem seenRunning_succ : SeenRunning ticks key (n + 1) ↔
    Runs ticks key n ∨ SeenRunning ticks key n ∧ ¬ Lost ticks key n := by
  constructor
  · rintro ⟨i, before, runs, kept⟩
    obtain earlier | rfl := Nat.lt_succ_iff_lt_or_eq.mp before
    · exact .inr ⟨⟨i, earlier, runs, fun j after lt => kept j after (lt.trans n.lt_succ_self)⟩,
        kept n earlier n.lt_succ_self⟩
    · exact .inl runs
  · rintro (runs | ⟨⟨i, before, runs, kept⟩, here⟩)
    · exact ⟨n, n.lt_succ_self, runs, fun j after lt => absurd lt (by omega)⟩
    · refine ⟨i, before.trans n.lt_succ_self, runs, fun j after lt => ?_⟩
      obtain lt | rfl := Nat.lt_succ_iff_lt_or_eq.mp lt
      · exact kept j after lt
      · exact here

/-- A server that was running is not latched as down, and the flag says which ones were. -/
theorem wasRunning_iff (ticks : List (Tick F)) (key : String) (n : Nat) :
    ((entryAt ticks key n).wasRunning = true ↔ SeenRunning ticks key n) ∧
      ((entryAt ticks key n).wasRunning = true → (entryAt ticks key n).downLatched = false) := by
  induction n with
  | zero =>
      refine ⟨⟨fun was => ?_, ?_⟩, fun was => ?_⟩
      · simp [entryAt, watchdogRun, WatchdogState.entry] at was
      · rintro ⟨i, before, -⟩
        omega
      · simp [entryAt, watchdogRun, WatchdogState.entry] at was
  | succ n ih =>
      rw [seenRunning_succ, ← ih.1]
      cases at_ : ticks[n]? with
      | none =>
          have quiet : ¬ Runs ticks key n ∧ ¬ Lost ticks key n := by
            refine ⟨?_, ?_⟩
            · rintro ⟨t, at', -⟩
              cases at_.symm.trans at'
            · rintro (⟨t, at', -⟩ | ⟨t, at', -⟩) <;> cases at_.symm.trans at'
          rw [entryAt_of_none at_]
          exact ⟨⟨fun was => .inr ⟨was, quiet.2⟩, fun known => known.elim
            (fun runs => absurd runs quiet.1) And.left⟩, ih.2⟩
      | some t =>
          obtain ⟨-, free⟩ := ih
          rw [entryAt_succ at_, Runs, Lost, sampled_iff at_, sampled_iff at_, absent_iff at_,
            keyTick_wasRunning, ← Bool.not_eq_true (EntryState.downLatched _), keyTick_downLatched]
          cases found : t.sample key with
          | some s => by_cases running : s.state = .running <;> simp [running]
          | none =>
              cases was : (entryAt ticks key n).wasRunning with
              | false => simp
              | true => simp [free was]

/-- A down alert fires exactly when a server is lost that was running. -/
theorem fires_down_iff :
    Fires .down ticks key n ↔ Lost ticks key n ∧ SeenRunning ticks key n := by
  obtain ⟨was, free⟩ := wasRunning_iff ticks key n
  cases at_ : ticks[n]? with
  | none =>
      refine ⟨fun fires => ?_, ?_⟩
      · obtain ⟨t, at'⟩ := fires.tick
        cases at_.symm.trans at'
      · rintro ⟨⟨t, at', -⟩ | ⟨t, at', -⟩, -⟩ <;> cases at_.symm.trans at'
  | some t =>
      rw [fires_iff at_, keyTick_down, Lost, sampled_iff at_, absent_iff at_, ← was]
      constructor
      · rintro ⟨was, -, lost⟩
        exact ⟨lost, was⟩
      · rintro ⟨lost, was⟩
        exact ⟨was, free was, lost⟩

/-- A recovered alert comes with a sample that is running. -/
theorem runs_of_fires_recovered (h : Fires .recovered ticks key n) : Runs ticks key n := by
  obtain ⟨t, at_⟩ := h.tick
  rw [fires_iff at_, keyTick_recovered] at h
  exact (sampled_iff at_).mpr h.2

/-- The running sample can be taken after every recovery. -/
theorem exists_runs_since (seen : ∃ i < n, Runs ticks key i) :
    ∃ i < n, Runs ticks key i ∧ ∀ j < n, Fires .recovered ticks key j → j ≤ i := by
  induction n with
  | zero =>
      obtain ⟨i, before, -⟩ := seen
      omega
  | succ n ih =>
      by_cases here : Runs ticks key n
      · exact ⟨n, n.lt_succ_self, here, fun j before _ => Nat.lt_succ_iff.mp before⟩
      · obtain ⟨i, before, runs⟩ := seen
        have earlier : i < n := by
          obtain lt | rfl := Nat.lt_succ_iff_lt_or_eq.mp before
          · exact lt
          · exact absurd runs here
        obtain ⟨i, before, runs, last⟩ := ih ⟨i, earlier, runs⟩
        refine ⟨i, before.trans n.lt_succ_self, runs, fun j lt recovered => ?_⟩
        obtain lt | rfl := Nat.lt_succ_iff_lt_or_eq.mp lt
        · exact last j lt recovered
        · exact absurd (runs_of_fires_recovered recovered) here

/-- A down or a recovered alert. -/
def AlertKind.transition : AlertKind → Bool
  | down | recovered => true
  | _ => false

/-- The down and recovered alerts of the key, in the order in which they fired. -/
def transitions (key : String) (alerts : List (Alert F)) : List AlertKind :=
  ((about key alerts).map Alert.kind).filter AlertKind.transition

omit [Metric F] in
theorem transitions_append (key : String) (l m : List (Alert F)) :
    transitions key (l ++ m) = transitions key l ++ transitions key m := by
  simp [transitions, about]

omit [Metric F] in
theorem no_transitions {alerts : List (Alert F)} {k : String} {kind : AlertKind}
    (all : ∀ a ∈ alerts, a.key = k ∧ a.kind = kind) (other : kind.transition = false) :
    (alerts.map Alert.kind).filter AlertKind.transition = [] := by
  refine List.filter_eq_nil_iff.mpr fun c mem => ?_
  obtain ⟨a, fired, rfl⟩ := List.mem_map.mp mem
  rw [(all a fired).2, other]
  exact Bool.false_ne_true

/-- A tick fires at most one of them, and the latch says which one is next. -/
theorem keyTick_transitions (cfg : WatchdogCfg F) (sample : Option (ServerSample F)) (ok : Bool)
    (key : String) (e : EntryState) :
    let r := keyTick cfg sample ok key e
    let fired := (r.2.map Alert.kind).filter AlertKind.transition
    fired = [] ∧ r.1.downLatched = e.downLatched ∨
      fired = [.down] ∧ e.downLatched = false ∧ r.1.downLatched = true ∨
      fired = [.recovered] ∧ e.downLatched = true ∧ r.1.downLatched = false := by
  cases sample with
  | none =>
      cases was : e.wasRunning <;> cases latched : e.downLatched <;> cases ok <;>
        simp [keyTick, was, latched, Alert.kind, AlertKind.transition]
  | some s =>
      have cpu := no_transitions (watchCpu_alerts cfg s e) rfl
      have disk := no_transitions (watchDisk_alerts cfg s e) rfl
      have alarms := no_transitions (watchAlarms_alerts s e) rfl
      simp only [keyTick, watch_eq, List.map_append, List.filter_append, cpu, disk, alarms,
        List.append_nil]
      by_cases running : s.state = .running <;> cases was : e.wasRunning <;>
        cases latched : e.downLatched <;>
        simp [watchState, running, was, latched, Alert.kind, AlertKind.transition]

theorem getElem?_concat_cases {α : Type} {l : List α} {a b : α} {i : Nat}
    (found : (l ++ [a])[i]? = some b) : l[i]? = some b ∨ i = l.length ∧ b = a := by
  obtain lt | eq | gt := Nat.lt_trichotomy i l.length
  · rw [List.getElem?_append_left lt] at found
    exact .inl found
  · subst eq
    rw [List.getElem?_concat_length] at found
    exact .inr ⟨rfl, (Option.some.inj found).symm⟩
  · rw [List.getElem?_eq_none (by simp; omega)] at found
    cases found

/-- Down and recovered take turns, and the latch is on after a down alert. -/
theorem transitions_alternate (ticks : List (Tick F)) (key : String) :
    (∀ (i : Nat) k, (transitions key (watchdogRun ticks).2)[i]? = some k →
      k = if i % 2 = 0 then .down else .recovered) ∧
    (((watchdogRun ticks).1.entry key).downLatched = true ↔
      (transitions key (watchdogRun ticks).2).length % 2 = 1) := by
  induction ticks using List.reverseRecOn with
  | nil => simp [watchdogRun, transitions, about, WatchdogState.entry]
  | append_singleton ticks t ih =>
      obtain ⟨turns, latch⟩ := ih
      have tick := evaluate_key (watchdogRun ticks).1 t.distinct t.providersOk t.cfg key
      have fired := keyTick_transitions t.cfg (t.sample key) (listed t.providersOk key) key
        ((watchdogRun ticks).1.entry key)
      rw [Tick.sample, ← tick] at fired
      rw [watchdogRun_concat, transitions_append]
      -- what the tick adds, and the latch after it
      have fired : transitions key (t.evaluate (watchdogRun ticks).1).2 = [] ∧
            ((t.evaluate (watchdogRun ticks).1).1.entry key).downLatched =
              ((watchdogRun ticks).1.entry key).downLatched ∨
          transitions key (t.evaluate (watchdogRun ticks).1).2 = [.down] ∧
            ((watchdogRun ticks).1.entry key).downLatched = false ∧
            ((t.evaluate (watchdogRun ticks).1).1.entry key).downLatched = true ∨
          transitions key (t.evaluate (watchdogRun ticks).1).2 = [.recovered] ∧
            ((watchdogRun ticks).1.entry key).downLatched = true ∧
            ((t.evaluate (watchdogRun ticks).1).1.entry key).downLatched = false := fired
      obtain ⟨new, same⟩ | ⟨new, off, on⟩ | ⟨new, on, off⟩ := fired
      · rw [new, List.append_nil, same]
        exact ⟨turns, latch⟩
      · have even : (transitions key (watchdogRun ticks).2).length % 2 = 0 := by
          rw [off] at latch
          have odd := latch.not.mp Bool.false_ne_true
          omega
        rw [new, on]
        refine ⟨fun i k found => ?_, by simp; omega⟩
        obtain found | ⟨rfl, rfl⟩ := getElem?_concat_cases found
        · exact turns i k found
        · rw [if_pos even]
      · have odd := latch.mp on
        rw [new, off]
        refine ⟨fun i k found => ?_, by simp; omega⟩
        obtain found | ⟨rfl, rfl⟩ := getElem?_concat_cases found
        · exact turns i k found
        · rw [if_neg (by omega)]

/-! ## Latches -/

/-- A flag that was on and is off has been cleared on the way. -/
theorem exists_cleared {b : Nat → Bool} {i n : Nat} (le : i ≤ n) (on : b i = true)
    (off : b n = false) : ∃ j, i ≤ j ∧ j < n ∧ b j = true ∧ b (j + 1) = false := by
  induction n, le using Nat.le_induction with
  | base =>
      rw [on] at off
      cases off
  | succ n le ih =>
      cases now : b n with
      | true => exact ⟨n, le, n.lt_succ_self, now, off⟩
      | false =>
          obtain ⟨j, after, before, rest⟩ := ih now
          exact ⟨j, after, before.trans n.lt_succ_self, rest⟩

/-- An alert that latches and is unlatched by certain samples only fires again after one. -/
theorem unlatched_between {kind : AlertKind} (latch : EntryState → Bool)
    {rearms : WatchdogCfg F → ServerSample F → Prop}
    (latches : ∀ (cfg : WatchdogCfg F) sample ok e, (∃ a ∈ (keyTick cfg sample ok key e).2, a.kind = kind) →
      latch e = false ∧ latch (keyTick cfg sample ok key e).1 = true)
    (clears : ∀ (cfg : WatchdogCfg F) sample ok e, latch e = true → latch (keyTick cfg sample ok key e).1 = false →
      ∃ s, sample = some s ∧ rearms cfg s)
    {i : Nat} (lt : i < n) (first : Fires kind ticks key i) (second : Fires kind ticks key n) :
    ∃ j, i < j ∧ j < n ∧ Sampled ticks key j rearms := by
  have on : latch (entryAt ticks key (i + 1)) = true := by
    obtain ⟨t, at_⟩ := first.tick
    rw [entryAt_succ at_ key]
    exact (latches _ _ _ _ ((fires_iff at_).mp first)).2
  have off : latch (entryAt ticks key n) = false := by
    obtain ⟨t, at_⟩ := second.tick
    exact (latches _ _ _ _ ((fires_iff at_).mp second)).1
  obtain ⟨j, after, before, latched, cleared⟩ :=
    exists_cleared (b := fun m => latch (entryAt ticks key m)) lt on off
  refine ⟨j, after, before, ?_⟩
  cases at_ : ticks[j]? with
  | none =>
      rw [entryAt_of_none at_, latched] at cleared
      cases cleared
  | some t =>
      rw [entryAt_succ at_ key] at cleared
      exact (sampled_iff at_).mpr (clears _ _ _ _ latched cleared)

omit [Metric F] in
theorem count_kind {alerts : List (Alert F)} {k : String} {kind other : AlertKind}
    (all : ∀ a ∈ alerts, a.key = k ∧ a.kind = other) (ne : other ≠ kind) :
    (alerts.map Alert.kind).count kind = 0 := by
  refine List.count_eq_zero.mpr fun mem => ?_
  obtain ⟨a, fired, same⟩ := List.mem_map.mp mem
  exact ne ((all a fired).2.symm.trans same)

/-- A tick fires at most one alert about the disk and one about alarms for a key. -/
theorem count_alertsAt_le (ticks : List (Tick F)) (key : String) (n : Nat) :
    ((about key (alertsAt ticks n)).map Alert.kind).count .diskHigh ≤ 1 ∧
      ((about key (alertsAt ticks n)).map Alert.kind).count .netdataAlarm ≤ 1 := by
  cases at_ : ticks[n]? with
  | none => simp [alertsAt, at_, about]
  | some t =>
      rw [about_alertsAt at_ key]
      generalize entryAt ticks key n = e
      cases t.sample key with
      | none =>
          simp only [keyTick]
          split <;> simp [Alert.kind]
      | some s =>
          have state : ∀ kind : AlertKind, kind.transition = false →
              ((watchState s e).2.map (Alert.kind (F := F))).count kind = 0 := by
            intro kind other
            refine List.count_eq_zero.mpr fun mem => ?_
            obtain ⟨a, fired, rfl⟩ := List.mem_map.mp mem
            obtain ⟨-, same | same⟩ := watchState_alerts s e a fired <;>
              (rw [same] at other; cases other)
          have cpu := fun kind => @count_kind F _ s.key kind _ (watchCpu_alerts t.cfg s e)
          have disk : (watchDisk t.cfg s e).2.length ≤ 1 := by
            grind [watchDisk]
          have alarms : ((watchAlarms s e).2 : List (Alert F)).length ≤ 1 := by
            grind [watchAlarms]
          have few : ∀ {l : List (Alert F)} (kind : AlertKind), l.length ≤ 1 →
              (l.map Alert.kind).count kind ≤ 1 := by
            intro l kind short
            refine List.count_le_length.trans ?_
            rwa [List.length_map]
          simp only [keyTick, watch_eq, List.map_append, List.count_append]
          refine ⟨?_, ?_⟩
          · rw [state _ rfl, cpu _ (by decide), count_kind (watchAlarms_alerts s e) (by decide)]
            simpa using few .diskHigh disk
          · rw [state _ rfl, cpu _ (by decide), count_kind (watchDisk_alerts t.cfg s e) (by decide)]
            simpa using few .netdataAlarm alarms

/-- For every sequence of ticks, with any samples, listings and thresholds, and every key: down
and recovered alerts take turns, beginning with down; a down alert comes after a running sample
that is not before the last recovery, it fires exactly at the first tick that loses a running
server, and never for a missing server whose provider's listing failed; and between two alerts
about the disk, or about alarms, there is a sample that arms them again. -/
theorem alerts_detect_edges (ticks : List (Tick F)) (key : String) :
    (∀ (i : Nat) kind, (transitions key (watchdogRun ticks).2)[i]? = some kind →
      kind = if i % 2 = 0 then .down else .recovered) ∧
    (∀ n, Fires .down ticks key n →
      ∃ i < n, Runs ticks key i ∧ ∀ j < n, Fires .recovered ticks key j → j ≤ i) ∧
    (∀ n, Fires .down ticks key n ↔
      Lost ticks key n ∧ ∃ i < n, Runs ticks key i ∧ ∀ j, i < j → j < n → ¬ Lost ticks key j) ∧
    (∀ n, Absent ticks key n false → ¬ Fires .down ticks key n) ∧
    ((∀ n, ((about key (alertsAt ticks n)).map Alert.kind).count .diskHigh ≤ 1) ∧
      ∀ i n, i < n → Fires .diskHigh ticks key i → Fires .diskHigh ticks key n →
        ∃ j, i < j ∧ j < n ∧ Sampled ticks key j fun cfg s =>
          ∃ p, s.diskUsedPct = some p ∧ Metric.lt p (Metric.minusFive cfg.diskPct) = true) ∧
    (∀ n, ((about key (alertsAt ticks n)).map Alert.kind).count .netdataAlarm ≤ 1) ∧
      ∀ i n, i < n → Fires .netdataAlarm ticks key i → Fires .netdataAlarm ticks key n →
        ∃ j, i < j ∧ j < n ∧ Sampled ticks key j fun _ s => s.netdataAlarms = some 0 := by
  refine ⟨(transitions_alternate ticks key).1, ?_, fun _ => fires_down_iff, ?_, ⟨?_, ?_⟩, ?_, ?_⟩
  · intro n fires
    obtain ⟨-, i, before, runs, -⟩ := fires_down_iff.mp fires
    exact exists_runs_since ⟨i, before, runs⟩
  · rintro n absent fires
    obtain ⟨t, at_⟩ := fires.tick
    obtain ⟨none_, failed⟩ := (absent_iff at_).mp absent
    obtain ⟨lost, -⟩ := fires_down_iff.mp fires
    rw [Lost, sampled_iff at_, absent_iff at_, none_, failed] at lost
    simp at lost
  · exact fun n => (count_alertsAt_le ticks key n).1
  · intro i n lt first second
    refine unlatched_between EntryState.diskLatched ?_ ?_ lt first second
    · exact fun cfg sample ok e fires => ⟨(keyTick_diskHigh.mp fires).1,
        keyTick_diskLatched.1 fires⟩
    · intro cfg sample ok e latched cleared
      obtain ⟨s, p, sampled, known, low⟩ := keyTick_diskLatched.2 latched cleared
      exact ⟨s, sampled, p, known, low⟩
  · exact fun n => (count_alertsAt_le ticks key n).2
  · intro i n lt first second
    refine unlatched_between EntryState.alarmLatched ?_ ?_ lt first second
    · exact fun cfg sample ok e fires => ⟨(keyTick_netdataAlarm.mp fires).1,
        keyTick_alarmLatched.1 fires⟩
    · exact fun cfg sample ok e latched cleared => keyTick_alarmLatched.2 latched cleared

/-! ## Sustained load -/

/-- The key is sampled with a CPU value. -/
def CpuKnown (ticks : List (Tick F)) (key : String) (n : Nat) : Prop :=
  CpuHot ticks key n ∨ CpuCool ticks key n

/-- On every tick a key that counts towards an alert is sampled with a CPU value. -/
def NoGaps (ticks : List (Tick F)) (key : String) : Prop :=
  ∀ n < ticks.length, 0 < (entryAt ticks key n).cpuOverTicks →
    (entryAt ticks key n).cpuLatched = false → CpuKnown ticks key n

/-- The last `count` ticks before the `n`th have hot samples of the key. -/
def Streak (ticks : List (Tick F)) (key : String) (n count : Nat) : Prop :=
  count ≤ n ∧ ∀ m < n, n ≤ m + count → CpuHot ticks key m

theorem Streak.zero (ticks : List (Tick F)) (key : String) (n : Nat) : Streak ticks key n 0 :=
  ⟨n.zero_le, fun m lt le => absurd le (by omega)⟩

theorem Streak.succ {count : Nat} (h : Streak ticks key n count) (hot : CpuHot ticks key n) :
    Streak ticks key (n + 1) (count + 1) := by
  refine ⟨Nat.succ_le_succ h.1, fun m lt le => ?_⟩
  obtain lt | rfl := Nat.lt_succ_iff_lt_or_eq.mp lt
  · exact h.2 m lt (by omega)
  · exact hot

theorem Streak.mono {count fewer : Nat} (h : Streak ticks key n count) (le : fewer ≤ count) :
    Streak ticks key n fewer :=
  ⟨le.trans h.1, fun m lt near => h.2 m lt (by omega)⟩

/-- Without gaps the counter of a key that has not alerted is the length of a streak. -/
theorem NoGaps.streak (noGaps : NoGaps ticks key) (n : Nat) :
    n ≤ ticks.length → (entryAt ticks key n).cpuLatched = false →
      Streak ticks key n (entryAt ticks key n).cpuOverTicks := by
  induction n with
  | zero => exact fun _ _ => .zero ticks key 0
  | succ n ih =>
      intro within unlatched
      have at_ := List.getElem?_eq_getElem within
      generalize ticks[n] = t at at_
      have free : ¬ CpuCool ticks key n → (entryAt ticks key n).cpuLatched = false := by
        intro warm
        by_contra latched
        rw [Bool.not_eq_false] at latched
        rw [entryAt_succ at_] at unlatched
        obtain ⟨s, p, found, known, cool⟩ := keyTick_cpuLatched.2 latched unlatched
        exact warm ((sampled_iff at_).mpr ⟨s, found, p, known, cool⟩)
      rw [entryAt_succ at_, keyTick_cpuOverTicks]
      by_cases hot : CpuHot ticks key n
      -- one more hot tick
      · obtain ⟨s, found, p, known, high⟩ := (sampled_iff at_).mp hot
        have warm : ¬ CpuCool ticks key n := by
          intro cool
          obtain ⟨s', found', p', known', low⟩ := (sampled_iff at_).mp cool
          cases found.symm.trans found'
          cases known.symm.trans known'
          rw [high] at low
          cases low
        have streak := (ih (Nat.le_of_succ_le within) (free warm)).succ hot
        simp only [found, Option.bind_some, known, high, if_true]
        exact streak.mono (Nat.mod_le _ _)
      by_cases cool : CpuCool ticks key n
      -- the counter starts again
      · obtain ⟨s, found, p, known, low⟩ := (sampled_iff at_).mp cool
        simp only [found, Option.bind_some, known, low, Bool.false_eq_true, if_false]
        exact .zero ticks key _
      -- no value: nothing was being counted
      · have none_ : (t.sample key).bind ServerSample.cpuPct = none := by
          cases value : (t.sample key).bind ServerSample.cpuPct with
          | none => rfl
          | some p =>
              obtain ⟨s, found, known⟩ := Option.bind_eq_some_iff.mp value
              cases high : Metric.ge p t.cfg.cpuPct with
              | true => exact absurd ((sampled_iff at_).mpr ⟨s, found, p, known, high⟩) hot
              | false => exact absurd ((sampled_iff at_).mpr ⟨s, found, p, known, high⟩) cool
        have idle : (entryAt ticks key n).cpuOverTicks = 0 := by
          by_contra counting
          obtain known | known := noGaps n within (Nat.pos_of_ne_zero counting) (free cool)
          · exact hot known
          · exact cool known
        rw [none_]
        dsimp only
        rw [idle]
        exact .zero ticks key _

/-- In every run without gaps, a CPU alert on a tick means that the key was at or above the
threshold on as many ticks, up to this one, as the tick asks for, and was below it since the
alert before. -/
theorem cpuHigh_sustained (ticks : List (Tick F)) (key : String) (noGaps : NoGaps ticks key) :
    ∀ n t, ticks[n]? = some t → Fires .cpuHigh ticks key n →
      (t.cfg.cpuSustainTicks ≤ n + 1 ∧
        ∀ m ≤ n, n < m + t.cfg.cpuSustainTicks → CpuHot ticks key m) ∧
      ∀ i < n, Fires .cpuHigh ticks key i → ∃ j, i < j ∧ j < n ∧ CpuCool ticks key j := by
  intro n t at_ fires
  obtain ⟨unlatched, sustained, s, p, found, known, high⟩ :=
    keyTick_cpuHigh.mp ((fires_iff at_).mp fires)
  have within : n < ticks.length := (List.getElem?_eq_some_iff.mp at_).1
  have hot : CpuHot ticks key n := (sampled_iff at_).mpr ⟨s, found, p, known, high⟩
  have streak := ((noGaps.streak n within.le unlatched).succ hot).mono
    (sustained.trans (Nat.mod_le _ _))
  refine ⟨⟨streak.1, fun m le near => streak.2 m (Nat.lt_succ_of_le le) near⟩, ?_⟩
  intro i lt first
  refine unlatched_between EntryState.cpuLatched ?_ ?_ lt first fires
  · exact fun cfg sample ok e fires => ⟨(keyTick_cpuHigh.mp fires).1, keyTick_cpuLatched.1 fires⟩
  · intro cfg sample ok e latched cleared
    obtain ⟨s, p, sampled, known, low⟩ := keyTick_cpuLatched.2 latched cleared
    exact ⟨s, sampled, p, known, low⟩

end Ticks

/-- A tick of one running server, with its CPU value. -/
def cpuTick (cpuPct : Option ℚ) : Tick ℚ where
  samples := [⟨"h:1", "h:1", .running, cpuPct, none, none⟩]
  providersOk := ["h"]
  cfg := { cpuPct := 90, cpuSustainTicks := 3, diskPct := 90 }
  distinct := List.nodup_singleton _

theorem cpuHigh_sustained_once :
    Fires .cpuHigh [cpuTick (some 95), cpuTick (some 97), cpuTick (some 99)] "h:1" 2 ∧
      ∀ m ≤ 2, 2 < m + 3 →
        CpuHot [cpuTick (some 95), cpuTick (some 97), cpuTick (some 99)] "h:1" m := by
  have fires : Fires .cpuHigh [cpuTick (some 95), cpuTick (some 97), cpuTick (some 99)] "h:1" 2 := by
    unfold Fires
    decide +kernel
  refine ⟨fires, (cpuHigh_sustained _ "h:1" ?_ 2 (cpuTick (some 99)) rfl fires).1.2⟩
  have hot : ∀ p : ℚ, 90 ≤ p → ∀ ticks n, ticks[n]? = some (cpuTick (some p)) →
      CpuKnown ticks "h:1" n :=
    fun p high ticks n at_ => .inl ⟨_, at_, _, List.mem_singleton_self _, rfl, p, rfl,
      decide_eq_true high⟩
  intro n within _ _
  rw [List.length_cons, List.length_cons, List.length_singleton] at within
  interval_cases n
  · exact hot 95 (by norm_num) _ 0 rfl
  · exact hot 97 (by norm_num) _ 1 rfl
  · exact hot 99 (by norm_num) _ 2 rfl

/-- The second of four ticks has no CPU value, and the fourth alerts. -/
theorem cpuHigh_after_gap :
    ¬ ∀ n t, [cpuTick (some 95), cpuTick none, cpuTick (some 95), cpuTick (some 95)][n]? = some t →
      Fires .cpuHigh [cpuTick (some 95), cpuTick none, cpuTick (some 95), cpuTick (some 95)]
        "h:1" n →
      t.cfg.cpuSustainTicks ≤ n + 1 ∧ ∀ m ≤ n, n < m + t.cfg.cpuSustainTicks →
        CpuHot [cpuTick (some 95), cpuTick none, cpuTick (some 95), cpuTick (some 95)] "h:1" m := by
  intro sustained
  have fires : Fires .cpuHigh
      [cpuTick (some 95), cpuTick none, cpuTick (some 95), cpuTick (some 95)] "h:1" 3 := by
    unfold Fires
    decide +kernel
  obtain ⟨t, at_, s, mem, -, p, known, -⟩ :=
    (sustained 3 (cpuTick (some 95)) rfl fires).2 1 (by omega) (by decide)
  cases at_
  cases List.mem_singleton.mp mem
  cases known

end Sentinel.Servers
