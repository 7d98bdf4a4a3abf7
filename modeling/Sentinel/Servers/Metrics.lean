import Sentinel.Servers.SecurityAlerts

/-!
# Metrics of a Hetzner server

`parse_metrics` of `cloud/hetzner.rs`. A series keeps the samples that parse; the disk series is the
read series and the write series added up by position. `DiskSums` says what a disk series should be:
the sums by time. `diskSums_iff` says when it is.

The floating-point numbers of the source are a type with the operations that are used on them.
-/

namespace Sentinel.Servers

/-- `f64`, as far as metrics use it. -/
structure Floats (F : Type) where
  ofInt : ℤ → F
  /-- the value of a number that is no integer -/
  ofText : String → F
  /-- `str::parse` -/
  parse : String → Option F
  /-- `as i64` -/
  toI64 : F → ℤ
  add : F → F → F
  zero : F

structure MetricPoint (F : Type) where
  ts : ℤ
  value : F
  deriving DecidableEq, Repr

structure ServerMetrics (F : Type) where
  cpuPct : List (MetricPoint F)
  netInBps : List (MetricPoint F)
  netOutBps : List (MetricPoint F)
  diskIo : List (MetricPoint F)
  deriving DecidableEq, Repr

section Metrics

variable {F : Type} (f : Floats F)

def Value.asF64 : Value → Option F
  | int n => some (f.ofInt n)
  | float text => some (f.ofText text)
  | _ => none

/-- `Value::get` with an index. -/
def Value.at (v : Value) (i : Nat) : Option Value := v.asArray.bind fun values => values[i]?

/-- One `[ts, "value"]` pair. -/
def metricPoint (pair : Value) : Option (MetricPoint F) := do
  let ts ← (← pair.at 0).asF64 f
  let raw ← pair.at 1
  let value ← (raw.asStr.bind f.parse).or (raw.asF64 f)
  pure { ts := f.toI64 ts, value }

/-- `series`. -/
def series (tsMap : Value) (key : String) : List (MetricPoint F) :=
  ((((tsMap.get key).bind fun s => s.get "values").bind Value.asArray).map fun vals =>
    vals.filterMap (metricPoint f)).getD []

/-- `disk_io`. -/
def diskIo (reads writes : List (MetricPoint F)) : List (MetricPoint F) :=
  if writes.isEmpty then reads
  else (reads.zip writes).map fun (r, w) => { ts := r.ts, value := f.add r.value w.value }

/-- `ts_map`. -/
def timeSeries (v : Value) : Value :=
  ((v.get "metrics").bind fun m => m.get "time_series").getD .null

/-- `parse_metrics`, of a body that parses. -/
def parseMetrics (v : Value) : ServerMetrics F :=
  let tsMap := timeSeries v
  let reads := series f tsMap "disk.0.iops.read"
  let writes := series f tsMap "disk.0.iops.write"
  { cpuPct := series f tsMap "cpu"
    netInBps := series f tsMap "network.0.bandwidth.in"
    netOutBps := series f tsMap "network.0.bandwidth.out"
    diskIo := diskIo f reads writes }

/-! ## Sums by time -/

/-- The sample of a series at a time. -/
def valueAt (points : List (MetricPoint F)) (ts : ℤ) : Option F :=
  (points.find? fun p => decide (p.ts = ts)).map MetricPoint.value

/-- The sum of two samples; one that is missing counts as zero. -/
def plus : Option F → Option F → F
  | some r, some w => f.add r w
  | some r, none => r
  | none, some w => w
  | none, none => f.zero

/-- Every point is the sum of the samples at its time, and every time has one point. -/
structure DiskSums (reads writes out : List (MetricPoint F)) : Prop where
  sums : ∀ p ∈ out, p.value = plus f (valueAt reads p.ts) (valueAt writes p.ts)
  once : ∀ p ∈ reads ++ writes, (out.map MetricPoint.ts).count p.ts = 1

/-- The times of the reads that are paired, of all reads if there is no write to pair them with. -/
def pairedTimes (reads writes : List (MetricPoint F)) : List ℤ :=
  if writes.isEmpty then reads.map MetricPoint.ts
  else (reads.take writes.length).map MetricPoint.ts

/-- The series can be added by position: no paired time comes twice, there is no time in either
series but the paired ones, and the write sample at each position adds what the write sample at its
read's time would. -/
structure Aligned (reads writes : List (MetricPoint F)) : Prop where
  nodup : (pairedTimes reads writes).Nodup
  times : ∀ p ∈ reads ++ writes, p.ts ∈ pairedTimes reads writes
  samples : ∀ (i : Nat) r w, reads[i]? = some r → writes[i]? = some w →
    f.add r.value w.value = plus f (some r.value) (valueAt writes r.ts)

variable {f} {reads writes : List (MetricPoint F)}

theorem zip_ts (reads writes : List (MetricPoint F)) :
    ((reads.zip writes).map fun rw => rw.1.ts) = (reads.take writes.length).map MetricPoint.ts := by
  induction reads generalizing writes with
  | nil => simp
  | cons r reads ih =>
      cases writes with
      | nil => simp
      | cons w writes =>
          rw [List.zip_cons_cons, List.map_cons, List.length_cons, List.take_succ_cons,
            List.map_cons, ih]

theorem diskIo_ts (reads writes : List (MetricPoint F)) :
    (diskIo f reads writes).map MetricPoint.ts = pairedTimes reads writes := by
  rw [diskIo, pairedTimes]
  cases none_ : writes.isEmpty with
  | true => rfl
  | false =>
      rw [if_neg Bool.false_ne_true, if_neg Bool.false_ne_true, List.map_map]
      exact zip_ts reads writes

/-- A point of the disk series is a read with the write at its position, or a read alone. -/
theorem mem_diskIo {p : MetricPoint F} : p ∈ diskIo f reads writes ↔
    (writes = [] ∧ p ∈ reads) ∨ ∃ i : Nat, ∃ r w, reads[i]? = some r ∧ writes[i]? = some w ∧
      p = ⟨r.ts, f.add r.value w.value⟩ := by
  rw [diskIo]
  cases writes with
  | nil => simp
  | cons w writes =>
      rw [List.isEmpty_cons, if_neg Bool.false_ne_true, List.mem_map]
      constructor
      · rintro ⟨⟨r, w'⟩, mem, rfl⟩
        obtain ⟨i, here⟩ := List.mem_iff_getElem?.mp mem
        obtain ⟨read, write⟩ := List.getElem?_zip_eq_some.mp here
        exact .inr ⟨i, r, w', read, write, rfl⟩
      · rintro (⟨none_, -⟩ | ⟨i, r, w', read, write, rfl⟩)
        · cases none_
        · refine ⟨(r, w'), List.mem_of_getElem? (List.getElem?_zip_eq_some.mpr ⟨read, write⟩), rfl⟩

/-- In a series without repeated times a sample is found at its time. -/
theorem valueAt_of_mem {points : List (MetricPoint F)}
    (nodup : (points.map MetricPoint.ts).Nodup) {p : MetricPoint F} (mem : p ∈ points) :
    valueAt points p.ts = some p.value := by
  rw [valueAt]
  cases found : points.find? fun q => decide (q.ts = p.ts) with
  | none => exact absurd (decide_eq_true rfl) (List.find?_eq_none.mp found p mem)
  | some q =>
      have same := List.find?_some found
      simp only [decide_eq_true_eq] at same
      rw [List.inj_on_of_nodup_map nodup (List.mem_of_find?_eq_some found) mem same]
      rfl

/-- A paired read is found at its time. -/
theorem valueAt_paired (nodup : (pairedTimes reads writes).Nodup) {i : Nat} {r w : MetricPoint F}
    (read : reads[i]? = some r) (write : writes[i]? = some w) :
    valueAt reads r.ts = some r.value := by
  have some_ : writes.isEmpty = false := by
    cases writes with
    | nil => cases write
    | cons w writes => rfl
  rw [pairedTimes, some_, if_neg Bool.false_ne_true] at nodup
  obtain ⟨below, -⟩ := List.getElem?_eq_some_iff.mp write
  have mem : r ∈ reads.take writes.length := by
    refine List.mem_of_getElem? (i := i) ?_
    rw [List.getElem?_take_of_lt below, read]
  have first := valueAt_of_mem nodup mem
  rw [valueAt] at first ⊢
  rw [← List.take_append_drop writes.length reads, List.find?_append]
  obtain ⟨q, found, value⟩ := Option.map_eq_some_iff.mp first
  rw [found, Option.some_or, Option.map_some, value]

/-- Two series with the same times, position by position and none of them twice, can be added by
position. -/
theorem Aligned.of_times (same : reads.map MetricPoint.ts = writes.map MetricPoint.ts)
    (nodup : (reads.map MetricPoint.ts).Nodup) : Aligned f reads writes := by
  have length : reads.length = writes.length := by simpa using congrArg List.length same
  have paired : pairedTimes reads writes = reads.map MetricPoint.ts := by
    rw [pairedTimes, ← length, List.take_length, ite_self]
  refine ⟨by rwa [paired], fun p mem => ?_, fun i r w read write => ?_⟩
  · rw [paired]
    obtain read | write := List.mem_append.mp mem
    · exact List.mem_map_of_mem read
    · rw [same]
      exact List.mem_map_of_mem write
  · have time : r.ts = w.ts := by
      have here := congrArg (·[i]?) same
      simpa [read, write] using here
    rw [time, valueAt_of_mem (same ▸ nodup) (List.mem_of_getElem? write), plus]

/-- The disk series is the sums by time just if its series can be added by position. -/
theorem diskSums_iff : DiskSums f reads writes (diskIo f reads writes) ↔
    Aligned f reads writes := by
  have reading : ∀ ts ∈ pairedTimes reads writes, ∃ p ∈ reads, p.ts = ts := by
    intro ts mem
    rw [pairedTimes] at mem
    split at mem
    · exact List.mem_map.mp mem
    · obtain ⟨p, taken, same⟩ := List.mem_map.mp mem
      exact ⟨p, List.mem_of_mem_take taken, same⟩
  constructor
  · rintro ⟨sums, once⟩
    rw [diskIo_ts] at once
    have nodup : (pairedTimes reads writes).Nodup := by
      refine List.nodup_iff_count_le_one.mpr fun ts => ?_
      by_cases mem : ts ∈ pairedTimes reads writes
      · obtain ⟨p, read, rfl⟩ := reading ts mem
        exact (once p (List.mem_append_left _ read)).le
      · rw [List.count_eq_zero_of_not_mem mem]
        omega
    refine ⟨nodup, fun p mem => ?_, fun i r w read write => ?_⟩
    · exact List.count_pos_iff.mp ((once p mem).symm ▸ Nat.one_pos)
    · have sum := sums ⟨r.ts, f.add r.value w.value⟩
        (mem_diskIo.mpr (.inr ⟨i, r, w, read, write, rfl⟩))
      rw [valueAt_paired nodup read write] at sum
      exact sum
  · rintro ⟨nodup, times, samples⟩
    refine ⟨fun p mem => ?_, fun p mem => ?_⟩
    · obtain ⟨rfl, read⟩ | ⟨i, r, w, read, write, rfl⟩ := mem_diskIo.mp mem
      · rw [pairedTimes, List.isEmpty_nil, if_pos rfl] at nodup
        rw [valueAt_of_mem nodup read]
        rfl
      · rw [valueAt_paired nodup read write]
        exact samples i r w read write
    · rw [diskIo_ts]
      exact List.count_eq_one_of_mem nodup (times p mem)

/-- Whatever the body, its disk series adds up what it should just if the two series that are left
of it can be added by position. -/
theorem parseMetrics_diskSums_iff (f : Floats F) (v : Value) :
    DiskSums f (series f (timeSeries v) "disk.0.iops.read")
        (series f (timeSeries v) "disk.0.iops.write") (parseMetrics f v).diskIo ↔
      Aligned f (series f (timeSeries v) "disk.0.iops.read")
        (series f (timeSeries v) "disk.0.iops.write") := by
  rw [parseMetrics]
  exact diskSums_iff

end Metrics

/-- Whole numbers as floats, written with one digit. -/
def wholeFloats : Floats ℤ where
  ofInt n := n
  ofText _ := 0
  parse text := [0, 1, 2, 3, 4, 5, 6, 7, 8, 9].find? fun n : ℤ => decide (toString n = text)
  toI64 n := n
  add := (· + ·)
  zero := 0

/-- Two samples of each series, of which the first write does not parse. -/
def gapBody : Value :=
  .object [("metrics", .object [("time_series", .object [
    ("disk.0.iops.read", .object [("values", .array
      [.array [.int 0, .string "1"], .array [.int 60, .string "2"]])]),
    ("disk.0.iops.write", .object [("values", .array
      [.array [.int 0, .string "-"], .array [.int 60, .string "5"]])])])])]

/-- The second write is added to the first read, and the second read is lost. -/
theorem gapBody_shifts : (parseMetrics wholeFloats gapBody).diskIo = [⟨0, 6⟩] ∧
    ¬ DiskSums wholeFloats (series wholeFloats (timeSeries gapBody) "disk.0.iops.read")
      (series wholeFloats (timeSeries gapBody) "disk.0.iops.write")
      (parseMetrics wholeFloats gapBody).diskIo := by
  have shifted : (parseMetrics wholeFloats gapBody).diskIo = [⟨0, 6⟩] := by decide +kernel
  have reads : series wholeFloats (timeSeries gapBody) "disk.0.iops.read" = [⟨0, 1⟩, ⟨60, 2⟩] := by
    decide +kernel
  refine ⟨shifted, fun sums => ?_⟩
  have lost := sums.once ⟨60, 2⟩ (by rw [reads]; simp)
  rw [shifted] at lost
  exact absurd lost (by decide)

end Sentinel.Servers
