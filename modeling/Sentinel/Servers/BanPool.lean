import Mathlib
import Sentinel.Servers.Bans
import Sentinel.Desktop.Wrapper

/-!
# Bans over many passes

What repeated passes of `fleet_sync_given` do to the expiry of temporary bans, for any number
of servers and passes in any interleaving, with time passing between any two commands. A pass
adds an address for the whole minutes that remained on the longest ban it read, but not for
less than five minutes, counted from the moment of the addition; and what it adds is read by
the next pass like any other ban.
-/

namespace Sentinel.Servers

open Atomic

/-! ## Reading a duration back -/

/-- The minutes that a pass shares for so many remaining seconds. -/
def wholeMinutes (seconds : Nat) : Nat := max 5 ((seconds + 59) / 60)

theorem wholeMinutes_mono {a b : Nat} (le : a ≤ b) : wholeMinutes a ≤ wholeMinutes b := by
  unfold wholeMinutes
  omega

theorem parseNumber_toDigits (n : Nat) : parseNumber (Nat.toDigits 10 n) = some (n : ℚ) := by
  have digits : (Nat.toDigits 10 n).dropWhile (· != '.') = [] := by
    rw [List.dropWhile_eq_nil_iff]
    intro c mem
    have digit := Nat.isDigit_of_mem_toDigits (by decide) (by decide) mem
    rw [bne_iff_ne]
    rintro rfl
    simp at digit
  have some_ : (Nat.toDigits 10 n).isEmpty = false := by
    simp [Nat.toDigits_ne_nil]
  rw [parseNumber, digits]
  simp [some_]

theorem totalSeconds_digits {ds : List Char} (digits : ∀ c ∈ ds, c.isDigit = true)
    (rest num : List Char) (total : ℚ) :
    totalSeconds (ds ++ rest) num total = totalSeconds rest (num ++ ds) total := by
  induction ds generalizing num with
  | nil => simp
  | cons c ds ih =>
      obtain ⟨here, there⟩ := List.forall_mem_cons.mp digits
      rw [List.cons_append, totalSeconds, here, Bool.true_or, if_pos rfl, ih there,
        List.append_assoc, List.singleton_append]

/-- A number with its unit adds its seconds. -/
theorem totalSeconds_unit (n : Nat) {c : Char} {unit : ℚ} (known : unitSeconds c = some unit)
    (notDigit : (c.isDigit || c == '.') = false) (rest : List Char) (total : ℚ) :
    totalSeconds (Nat.toDigits 10 n ++ c :: rest) [] total =
      totalSeconds rest [] (total + n * unit) := by
  rw [totalSeconds_digits fun c mem => Nat.isDigit_of_mem_toDigits (by decide) (by decide) mem,
    List.nil_append, totalSeconds, notDigit, if_neg (by decide), parseNumber_toDigits, known]

theorem totalSeconds_goDuration (seconds : Nat) :
    totalSeconds (goDuration seconds).toList [] 0 = some (seconds : ℚ) := by
  have last : ∀ total : ℚ, totalSeconds (Nat.toDigits 10 (seconds % 60) ++ ['s']) [] total =
      some (total + (seconds % 60 : Nat)) := by
    intro total
    rw [totalSeconds_unit (c := 's') _ rfl (by decide), totalSeconds, mul_one]
  rw [goDuration, String.toList_ofList]
  by_cases hours : 0 < seconds / 3600
  · have parts : (seconds : ℚ) = 0 + (seconds / 3600 : Nat) * 3600 +
        (seconds % 3600 / 60 : Nat) * 60 + (seconds % 60 : Nat) := by
      norm_cast
      omega
    rw [if_pos hours, if_pos (.inl hours), List.append_assoc, List.append_assoc, List.append_assoc,
      List.append_assoc, List.singleton_append, List.singleton_append,
      totalSeconds_unit _ rfl (by decide), totalSeconds_unit _ rfl (by decide), last, ← parts]
  · rw [if_neg hours, List.nil_append]
    by_cases minutes : 0 < seconds % 3600 / 60
    · have parts : (seconds : ℚ) = 0 + (seconds % 3600 / 60 : Nat) * 60 + (seconds % 60 : Nat) := by
        norm_cast
        omega
      rw [if_pos (.inr minutes), List.append_assoc, List.append_assoc, List.singleton_append,
        totalSeconds_unit _ rfl (by decide), last, ← parts]
    · have parts : (seconds : ℚ) = 0 + (seconds % 60 : Nat) := by
        norm_cast
        omega
      rw [if_neg (by omega), List.nil_append, last, ← parts]

theorem ceil_minutes (seconds : Nat) : ⌈(seconds : ℚ) / 60⌉₊ = (seconds + 59) / 60 := by
  apply le_antisymm
  · rw [Nat.ceil_le, div_le_iff₀ (by norm_num)]
    norm_cast
    omega
  · by_contra lt
    rw [not_le, Nat.lt_iff_add_one_le] at lt
    have low := Nat.le_ceil ((seconds : ℚ) / 60)
    rw [div_le_iff₀ (by norm_num)] at low
    norm_cast at low
    omega

/-- The text begins with a digit and ends with a unit. -/
theorem goDuration_chars (seconds : Nat) :
    ∀ c ∈ (goDuration seconds).toList, c.isDigit = true ∨ c = 'h' ∨ c = 'm' ∨ c = 's' := by
  intro c mem
  have digit : ∀ n, c ∈ Nat.toDigits 10 n → c.isDigit = true := fun n mem =>
    Nat.isDigit_of_mem_toDigits (by decide) (by decide) mem
  rw [goDuration, String.toList_ofList] at mem
  simp only [List.mem_append, List.mem_singleton] at mem
  rcases mem with ((hours | minutes) | seconds) | rfl
  · split at hours
    · rw [List.mem_append, List.mem_singleton] at hours
      exact hours.imp (digit _) .inl
    · cases hours
  · split at minutes
    · rw [List.mem_append, List.mem_singleton] at minutes
      exact minutes.imp (digit _) fun h => .inr (.inl h)
    · cases minutes
  · exact .inl (digit _ seconds)
  · exact .inr (.inr (.inr rfl))

theorem isWhitespace_of_isDigit {c : Char} (digit : c.isDigit = true) :
    Api.isWhitespace c = false := by
  simp only [Char.isDigit, Bool.and_eq_true, decide_eq_true_eq, ge_iff_le, UInt32.le_iff_toNat_le]
    at digit
  have low : 48 ≤ c.toNat := digit.1
  have high : c.toNat ≤ 57 := digit.2
  simp only [Api.isWhitespace, decide_eq_false_iff_not]
  omega

/-- What a pass makes of the time that remains, below the range it takes as permanent. -/
theorem parseDurationMins_goDuration {seconds : Nat} (pos : 0 < seconds)
    (temporary : seconds ≤ 359999940) :
    parseDurationMins (goDuration seconds) = some (wholeMinutes seconds, false) := by
  have chars := goDuration_chars seconds
  have trimmed : Api.trim (goDuration seconds) = goDuration seconds := by
    refine Desktop.trim_eq_self fun c mem => ?_
    obtain digit | rfl | rfl | rfl := chars c mem
    · exact isWhitespace_of_isDigit digit
    · decide
    · decide
    · decide
  have begins : ((goDuration seconds).toList.isEmpty ||
      (goDuration seconds).toList.head? == some '-') = false := by
    cases text : (goDuration seconds).toList with
    | nil =>
        rw [goDuration, String.toList_ofList] at text
        simp at text
    | cons c rest =>
        have first : c ≠ '-' := by
          rintro rfl
          have := chars '-' (by rw [text]; exact List.mem_cons_self)
          simp at this
        simpa using first
  have positive : ¬ (seconds : ℚ) ≤ 0 := by
    simpa using pos.ne'
  have few : min ((seconds + 59) / 60) (2 ^ 32 - 1) = (seconds + 59) / 60 := by
    omega
  have short : ¬ 100000 * 60 ≤ (seconds + 59) / 60 := by
    omega
  simp only [parseDurationMins, trimmed, begins, Bool.false_eq_true, if_false,
    totalSeconds_goDuration, if_neg positive, ceil_minutes, few, decide_eq_false short,
    wholeMinutes, max_comm]

/-! ## The union -/

/-- The addresses of the list, each once, with its longest duration. -/
structure IsUnion (l u : List SharedBan) : Prop where
  nodup : (u.map SharedBan.ip).Nodup
  complete : ∀ b ∈ l, ∃ x ∈ u, x.ip = b.ip ∧ b.mins ≤ x.mins
  sound : ∀ x ∈ u, ∃ b ∈ l, b.ip = x.ip ∧ b.mins = x.mins
  perm : ∀ x ∈ u, x.perm = true → ∃ b ∈ l, b.ip = x.ip ∧ b.perm = true

/-- An entry that is raised by a ban on its address. -/
def SharedBan.join (x b : SharedBan) : SharedBan :=
  if x.ip = b.ip then ⟨x.ip, max x.mins b.mins, x.perm || b.perm⟩ else x

@[simp] theorem SharedBan.join_ip (x b : SharedBan) : (x.join b).ip = x.ip := by
  unfold SharedBan.join
  split <;> rfl

theorem raise_of_mem {u : List SharedBan} (nodup : (u.map SharedBan.ip).Nodup) {b x : SharedBan}
    (mem : x ∈ u) (same : x.ip = b.ip) : raise u b = u.map fun x => x.join b := by
  induction u with
  | nil => cases mem
  | cons y rest ih =>
      rw [List.map_cons, List.nodup_cons] at nodup
      rw [raise, List.map_cons, SharedBan.join]
      by_cases first : y.ip = b.ip
      · have others : rest.map (fun x => x.join b) = rest := by
          conv => rhs; rw [← List.map_id rest]
          refine List.map_congr_left fun z there => if_neg fun eq => nodup.1 ?_
          rw [first, ← eq]
          exact List.mem_map_of_mem there
        rw [if_pos first, if_pos first, others]
      · have later : x ∈ rest := by
          obtain rfl | later := List.mem_cons.mp mem
          · exact absurd same first
          · exact later
        rw [if_neg first, if_neg first, ih nodup.2 later]

theorem raise_of_not_mem {u : List SharedBan} {b : SharedBan} (new : ∀ x ∈ u, x.ip ≠ b.ip) :
    raise u b = u ++ [b] := by
  induction u with
  | nil => simp [raise]
  | cons y rest ih =>
      obtain ⟨here, there⟩ := List.forall_mem_cons.mp new
      rw [raise, if_neg here, ih there, List.cons_append]

theorem IsUnion.raise {l u : List SharedBan} (h : IsUnion l u) (b : SharedBan) :
    IsUnion (l ++ [b]) (raise u b) := by
  by_cases known : ∃ x ∈ u, x.ip = b.ip
  · obtain ⟨y, here, same⟩ := known
    rw [raise_of_mem h.nodup here same]
    constructor
    · have ips : (u.map fun x => x.join b).map SharedBan.ip = u.map SharedBan.ip := by
        rw [List.map_map]
        exact List.map_congr_left fun x _ => SharedBan.join_ip x b
      rw [ips]
      exact h.nodup
    · intro c mem
      obtain old | new := List.mem_append.mp mem
      · obtain ⟨x, there, ip, le⟩ := h.complete c old
        refine ⟨x.join b, List.mem_map_of_mem there, by rw [x.join_ip, ip], ?_⟩
        unfold SharedBan.join
        split
        · exact le.trans (le_max_left _ _)
        · exact le
      · cases List.mem_singleton.mp new
        refine ⟨y.join b, List.mem_map_of_mem here, by rw [y.join_ip, same], ?_⟩
        rw [SharedBan.join, if_pos same]
        exact le_max_right _ _
    · intro x mem
      obtain ⟨o, there, rfl⟩ := List.mem_map.mp mem
      obtain ⟨c, old, ip, mins⟩ := h.sound o there
      unfold SharedBan.join
      split
      · rename_i eq
        obtain le | le := le_total b.mins o.mins
        · exact ⟨c, List.mem_append_left _ old, ip, by rw [mins, max_eq_left le]⟩
        · exact ⟨b, List.mem_append_right _ (List.mem_singleton_self b), eq.symm,
            (max_eq_right le).symm⟩
      · exact ⟨c, List.mem_append_left _ old, ip, mins⟩
    · intro x mem isPerm
      obtain ⟨o, there, rfl⟩ := List.mem_map.mp mem
      unfold SharedBan.join at isPerm ⊢
      split at isPerm
      · rename_i eq
        rw [if_pos eq]
        obtain isPerm | isPerm := (Bool.or_eq_true _ _).mp isPerm
        · obtain ⟨c, old, rest⟩ := h.perm o there isPerm
          exact ⟨c, List.mem_append_left _ old, rest⟩
        · exact ⟨b, List.mem_append_right _ (List.mem_singleton_self b), eq.symm, isPerm⟩
      · rename_i other
        rw [if_neg other]
        obtain ⟨c, old, rest⟩ := h.perm o there isPerm
        exact ⟨c, List.mem_append_left _ old, rest⟩
  · have new : ∀ x ∈ u, x.ip ≠ b.ip := fun x mem eq => known ⟨x, mem, eq⟩
    rw [raise_of_not_mem new]
    constructor
    · rw [List.map_append, List.map_singleton, List.nodup_append]
      refine ⟨h.nodup, List.nodup_singleton _, ?_⟩
      intro ip old ip' last
      obtain ⟨x, there, rfl⟩ := List.mem_map.mp old
      rw [List.mem_singleton.mp last]
      exact new x there
    · intro c mem
      obtain old | last := List.mem_append.mp mem
      · obtain ⟨x, there, rest⟩ := h.complete c old
        exact ⟨x, List.mem_append_left _ there, rest⟩
      · exact ⟨c, List.mem_append_right _ last, rfl, le_rfl⟩
    · intro x mem
      obtain old | last := List.mem_append.mp mem
      · obtain ⟨c, there, rest⟩ := h.sound x old
        exact ⟨c, List.mem_append_left _ there, rest⟩
      · exact ⟨x, List.mem_append_right _ last, rfl, rfl⟩
    · intro x mem isPerm
      obtain old | last := List.mem_append.mp mem
      · obtain ⟨c, there, rest⟩ := h.perm x old isPerm
        exact ⟨c, List.mem_append_left _ there, rest⟩
      · exact ⟨x, List.mem_append_right _ last, rfl, isPerm⟩

theorem isUnion_foldl_raise (l : List SharedBan) : IsUnion l (l.foldl raise []) := by
  induction l using List.reverseRecOn with
  | nil => constructor <;> simp
  | append_singleton rest b ih =>
      rw [List.foldl_concat]
      exact ih.raise b

/-! ## What a pass reads and adds -/

section Pass

variable (ipAddr : String → Bool)

/-- The steps of a pass, seen by the bans that it has read: what it adds is from their
union. -/
inductive PassStep : List SharedBan → (q : Stmt) → q.Result → List SharedBan → Prop where
  | listed (read : List SharedBan) (m : Member) (ds : List Decision) :
      PassStep read (.list m) (.ok ds) (read ++ bansOf ipAddr ds)
  | unreachable (read : List SharedBan) (m : Member) (e : String) :
      PassStep read (.list m) (.error e) read
  | added {read : List SharedBan} (m : Member) {b : SharedBan} (res : Unit) :
      b ∈ read.foldl raise [] → PassStep read (.add m b) res read
  | finished (read : List SharedBan) (m : Member) (res : Except String Unit) :
      PassStep read (.finish m) res read

theorem gather_follows (fleet : List Member) (perServer : List (String × List SharedBan))
    (log : String) :
    (gather ipAddr fleet perServer log).Follows (PassStep ipAddr)
      (fun read r => r.1.flatMap Prod.snd = read) (perServer.flatMap Prod.snd) := by
  induction fleet generalizing perServer log with
  | nil => exact rfl
  | cons m rest ih =>
      intro res
      cases res with
      | error e => exact ⟨_, .unreachable _ m e, ih perServer _⟩
      | ok ds =>
          refine ⟨_, .listed _ m ds, ?_⟩
          have grown := ih (perServer ++ [(m.key, bansOf ipAddr ds)]) log
          rw [List.flatMap_append, List.flatMap_singleton] at grown
          exact grown

theorem addAll_follows (m : Member) {read missing : List SharedBan}
    (known : ∀ b ∈ missing, b ∈ read.foldl raise []) :
    (addAll m missing).Follows (PassStep ipAddr) (fun read' _ => read' = read) read := by
  induction missing with
  | nil => exact fun res => ⟨_, .finished _ m res, rfl⟩
  | cons b rest ih =>
      obtain ⟨here, there⟩ := List.forall_mem_cons.mp known
      exact fun res => ⟨_, .added m res here, ih there⟩

theorem distribute_follows {plan : List (String × List SharedBan)} {read : List SharedBan}
    (known : ∀ server ∈ plan, ∀ b ∈ server.2, b ∈ read.foldl raise []) (fleet : List Member)
    (propagated : Nat) (log : String) :
    (distribute plan fleet propagated log).Follows (PassStep ipAddr)
      (fun read' _ => read' = read) read := by
  induction fleet generalizing propagated log with
  | nil => exact rfl
  | cons m rest ih =>
      rw [distribute]
      split
      · exact ih _ _
      · exact ih _ _
      · rename_i missing _ found
        have planned : (m.key, missing) ∈ plan := by
          obtain ⟨before, after, cut, -⟩ := List.lookup_eq_some_iff.mp found
          exact List.mem_reverse.mp (by simp [cut])
        rw [Prog.follows_bind]
        refine (addAll_follows ipAddr m (known _ planned)).mono ?_
        rintro read' (e | ⟨⟩) rfl
        · exact ih _ _
        · exact ih _ _

theorem mem_planFleetAdditions {perServer : List (String × List SharedBan)}
    {server : String × List SharedBan} (mem : server ∈ planFleetAdditions perServer)
    {b : SharedBan} (here : b ∈ server.2) : b ∈ unionBans perServer := by
  obtain ⟨s, -, rfl⟩ := List.mem_map.mp mem
  have sorted := List.mem_of_mem_take here
  rw [List.mem_insertionSort] at sorted
  exact (List.mem_filter.mp sorted).1

theorem fleetSyncGiven_follows (fleet : List Member) :
    (fleetSyncGiven ipAddr fleet).Follows (PassStep ipAddr) (fun _ _ => True) [] := by
  rw [fleetSyncGiven, Prog.follows_bind]
  refine (gather_follows ipAddr fleet [] "").mono ?_
  rintro read ⟨perServer, log⟩ rfl
  rw [Prog.follows_bind]
  refine (distribute_follows ipAddr (fun server mem b here => ?_) fleet 0 log).mono
    fun _ _ _ => trivial
  exact mem_planFleetAdditions mem here

end Pass

/-! ## The expiry of bans -/

section Runs

variable (ipAddr : String → Bool) {ι : Type} [DecidableEq ι]

/-- A ban that a pass shares. -/
def Ban.shared (b : Ban) : Bool :=
  b.origin != "CAPI" && b.action == "ban" && validIpOrCidr ipAddr b.ip

/-- What a pass takes from a listing of the host: the addresses, with the seconds that
remain. -/
def Fleet.shown (f : Fleet) (host : String) : List (String × Nat) :=
  ((f.bans host).filter fun b => decide (f.now < b.expires) && b.shared ipAddr).map fun b =>
    (b.ip, b.expires - f.now)

/-- What a pass has read in a run. -/
def readings (h : List (Event ι Stmt Fleet)) (i : ι) : List (String × Nat) :=
  h.flatMap fun e =>
    match e.q with
    | .list m => if e.thread = i ∧ e.before.fault m.host = none then e.before.shown ipAddr m.host
        else []
    | _ => []

/-- The longest that remained on an address, among what the pass has read. -/
def longest (h : List (Event ι Stmt Fleet)) (i : ι) (ip : String) : Nat :=
  (((readings ipAddr h i).filter fun r => r.1 = ip).map Prod.snd).foldr max 0

/-- No ban that is shared is in the range that the code takes as permanent, 100,000 hours
and more. -/
def Fleet.Temporary (f : Fleet) : Prop :=
  ∀ host, ∀ b ∈ f.bans host, b.shared ipAddr = true → b.expires ≤ f.now + 359999940

/-- An original ban on the address. -/
def Fleet.Bans (f : Fleet) (ip : String) (b : Ban) : Prop :=
  ∃ host, b ∈ f.bans host ∧ b.action = "ban" ∧ b.ip = ip

/-- No ban outlives the latest original one by more than five minutes, and five minutes
after that one no ban is left. -/
structure NotProlonged (start f : Fleet) : Prop where
  expires : ∀ ip b, f.Bans ip b → ∃ b₀, start.Bans ip b₀ ∧ b.expires ≤ b₀.expires + 300
  gone : ∀ ip, (∀ b₀, start.Bans ip b₀ → b₀.expires + 300 ≤ f.now) →
    ∀ b, f.Bans ip b → b.expires ≤ f.now

/-- An addition that is taken comes before the latest original ban has expired, if at most
five minutes remained on what the pass had read, and otherwise early enough for the whole
minutes that remained. -/
def Timely (start : Fleet) (past : List (Event ι Stmt Fleet)) (e : Event ι Stmt Fleet) : Prop :=
  ∀ m x, e.q = .add m x → e.before.takes m.host x = true →
    ∃ b₀, start.Bans x.ip b₀ ∧
      (longest ipAddr past e.thread x.ip ≤ 300 ∧ e.before.now ≤ b₀.expires ∨
        300 < longest ipAddr past e.thread x.ip ∧
          e.before.now + (longest ipAddr past e.thread x.ip + 59) / 60 * 60 ≤ b₀.expires + 300)

/-- What a pass shares for an address with so many seconds left. -/
def share (r : String × Nat) : SharedBan := ⟨r.1, wholeMinutes r.2, false⟩

theorem shown_le {f : Fleet} (temporary : f.Temporary ipAddr) {host : String} {r : String × Nat}
    (mem : r ∈ f.shown ipAddr host) : r.2 ≤ 359999940 := by
  obtain ⟨b, here, rfl⟩ := List.mem_map.mp mem
  obtain ⟨row, kept⟩ := List.mem_filter.mp here
  have bound := temporary host b row ((Bool.and_eq_true _ _).mp kept).2
  simp only
  omega

theorem bansOf_decisions {f : Fleet} (temporary : f.Temporary ipAddr) (host : String) :
    bansOf ipAddr (f.decisions host) = (f.shown ipAddr host).map share := by
  have rows := temporary host
  rw [bansOf, Fleet.decisions, Fleet.shown]
  generalize f.bans host = l at rows ⊢
  induction l with
  | nil => rfl
  | cons b rest ih =>
      obtain ⟨here, there⟩ := List.forall_mem_cons.mp rows
      have tail := ih there
      by_cases live : f.now < b.expires
      · rw [List.filter_cons_of_pos (by simpa using live), List.map_cons]
        by_cases kept : b.shared ipAddr = true
        · have bound := here kept
          have text : parseDurationMins (goDuration (b.expires - f.now)) =
              some (wholeMinutes (b.expires - f.now), false) :=
            parseDurationMins_goDuration (by omega) (by omega)
          obtain ⟨isBan, valid⟩ := (Bool.and_eq_true _ _).mp kept
          rw [List.filter_cons, if_pos isBan, List.filter_cons, if_pos valid, List.filterMap_cons]
          simp only [text, Option.map_some, tail, live, kept, decide_true, Bool.and_self,
            List.filter_cons_of_pos, List.map_cons, share]
        · have dropped : (b :: rest).filter (fun b => decide (f.now < b.expires) &&
              b.shared ipAddr) =
              rest.filter fun b => decide (f.now < b.expires) && b.shared ipAddr :=
            List.filter_cons_of_neg (by simp [kept])
          rw [dropped, ← tail, List.filter_cons]
          by_cases isBan : (b.origin != "CAPI" && b.action == "ban") = true
          · have invalid : ¬ validIpOrCidr ipAddr b.ip = true := fun valid =>
              kept ((Bool.and_eq_true _ _).mpr ⟨isBan, valid⟩)
            rw [if_pos isBan, List.filter_cons, if_neg invalid]
          · rw [if_neg isBan]
      · rw [List.filter_cons_of_neg (by simpa using live), tail,
          List.filter_cons_of_neg (by simp [live])]

/-- The longest time of an address in a list. -/
theorem le_foldr_max {l : List Nat} {n : Nat} (mem : n ∈ l) : n ≤ l.foldr max 0 := by
  induction l with
  | nil => cases mem
  | cons a rest ih =>
      rw [List.foldr_cons]
      obtain rfl | later := List.mem_cons.mp mem
      · exact le_max_left _ _
      · exact (ih later).trans (le_max_right _ _)

theorem foldr_max_mem {l : List Nat} (some_ : l ≠ []) : l.foldr max 0 ∈ l := by
  induction l with
  | nil => exact absurd rfl some_
  | cons a rest ih =>
      rw [List.foldr_cons]
      by_cases last : rest = []
      · simp [last]
      · obtain le | le := le_total a (rest.foldr max 0)
        · rw [max_eq_right le]
          exact List.mem_cons_of_mem _ (ih last)
        · rw [max_eq_left le]
          exact List.mem_cons_self

/-- An addition is for the longest time that the pass has read on its address. -/
theorem added_eq {h : List (Event ι Stmt Fleet)} {i : ι} {x : SharedBan}
    (mem : x ∈ ((readings ipAddr h i).map share).foldl raise []) :
    x = ⟨x.ip, wholeMinutes (longest ipAddr h i x.ip), false⟩ ∧
      ∃ r ∈ readings ipAddr h i, r.1 = x.ip ∧ r.2 = longest ipAddr h i x.ip := by
  have union := isUnion_foldl_raise ((readings ipAddr h i).map share)
  have perm : x.perm = false := by
    cases isPerm : x.perm with
    | false => rfl
    | true =>
        obtain ⟨b, there, -, bad⟩ := union.perm x mem isPerm
        obtain ⟨r, -, rfl⟩ := List.mem_map.mp there
        cases bad
  have times : ∀ r ∈ readings ipAddr h i, r.1 = x.ip →
      r.2 ∈ ((readings ipAddr h i).filter fun r => r.1 = x.ip).map Prod.snd := fun r there same =>
    List.mem_map_of_mem (List.mem_filter.mpr ⟨there, by simpa using same⟩)
  obtain ⟨b, there, sameIp, mins⟩ := union.sound x mem
  obtain ⟨r, read, rfl⟩ := List.mem_map.mp there
  have here := times r read sameIp
  have top := foldr_max_mem (List.ne_nil_of_mem here)
  obtain ⟨r', found, eq⟩ := List.mem_map.mp top
  obtain ⟨read', same'⟩ := List.mem_filter.mp found
  have same' : r'.1 = x.ip := by simpa using same'
  obtain ⟨x', member, ip', le⟩ := union.complete (share r') (List.mem_map_of_mem read')
  have unique : x' = x := List.inj_on_of_nodup_map union.nodup member mem (ip'.trans same')
  subst unique
  have upper : x'.mins ≤ wholeMinutes (longest ipAddr h i x'.ip) := by
    rw [← mins]
    exact wholeMinutes_mono (le_foldr_max here)
  have lower : wholeMinutes (longest ipAddr h i x'.ip) ≤ x'.mins := by
    rw [longest, ← eq]
    exact le
  refine ⟨?_, r', read', same', eq⟩
  obtain ⟨ip, m, p⟩ := x'
  simp only at perm upper lower ⊢
  rw [perm, le_antisymm upper lower]

/-- What holds at every event of a history with one more event at its end. -/
theorem forall_cut_concat {α : Type} {P : List α → α → Prop} {h : List α} {a : α} :
    (∀ past e rest, h ++ [a] = past ++ e :: rest → P past e) ↔
      (∀ past e rest, h = past ++ e :: rest → P past e) ∧ P h a := by
  constructor
  · intro all
    refine ⟨fun past e rest cut => all past e (rest ++ [a]) ?_, all h a [] rfl⟩
    rw [cut, List.append_assoc, List.cons_append]
  · rintro ⟨before, last⟩ past e rest cut
    rcases List.eq_nil_or_concat' rest with rfl | ⟨rest', x, rfl⟩
    · obtain ⟨rfl, same⟩ := List.append_inj' cut rfl
      cases same
      exact last
    · rw [← List.cons_append, ← List.append_assoc] at cut
      exact before past e rest' (List.append_inj' cut rfl).1

/-- What the state is after some commands: every pass is known by what it has read, and the
bans are bounded exactly when the additions so far were timely. -/
structure PoolInvariant (start : Fleet) (h : List (Event ι Stmt Fleet)) (ph : ι → List SharedBan)
    (f : Fleet) : Prop where
  read : ∀ i, ph i = (readings ipAddr h i).map share
  short : ∀ i, ∀ r ∈ readings ipAddr h i, r.2 ≤ 359999940
  temporary : f.Temporary ipAddr
  bounded : (∀ ip b, f.Bans ip b → ∃ b₀, start.Bans ip b₀ ∧ b.expires ≤ b₀.expires + 300) ↔
    ∀ past e rest, h = past ++ e :: rest → Timely ipAddr start past e

theorem readings_concat (h : List (Event ι Stmt Fleet)) (e : Event ι Stmt Fleet) (i : ι) :
    readings ipAddr (h ++ [e]) i = readings ipAddr h i ++ readings ipAddr [e] i := by
  rw [readings, List.flatMap_append, readings, readings]

theorem readings_of_not_list {e : Event ι Stmt Fleet} (other : ∀ m, e.q ≠ .list m) (i : ι) :
    readings ipAddr [e] i = [] := by
  unfold readings
  rw [List.flatMap_singleton]
  split
  · rename_i m eq
    exact absurd eq (other m)
  · rfl

theorem timely_of_not_add {start : Fleet} {h : List (Event ι Stmt Fleet)}
    {e : Event ι Stmt Fleet} (other : ∀ m x, e.q ≠ .add m x) : Timely ipAddr start h e :=
  fun m x eq => absurd eq (other m x)

/-- A command from which nothing is read and that changes nothing. -/
theorem PoolInvariant.quiet {start f : Fleet} {h : List (Event ι Stmt Fleet)}
    {ph : ι → List SharedBan} (inv : PoolInvariant ipAddr start h ph f) {i : ι} {q : Stmt}
    (unread : ∀ j, readings ipAddr [(⟨i, q, f⟩ : Event ι Stmt Fleet)] j = [])
    (noAdd : ∀ m x, q = .add m x → f.takes m.host x = false) :
    PoolInvariant ipAddr start (h ++ [⟨i, q, f⟩]) (Function.update ph i (ph i)) f where
  read := by
    intro j
    rw [Function.update_eq_self, readings_concat, unread, List.append_nil]
    exact inv.read j
  short := by
    intro j r mem
    rw [readings_concat, unread, List.append_nil] at mem
    exact inv.short j r mem
  temporary := inv.temporary
  bounded := by
    rw [forall_cut_concat, inv.bounded]
    refine (and_iff_left fun m x eq takes => ?_).symm
    rw [noAdd m x eq] at takes
    cases takes

theorem PoolInvariant.listed {start f : Fleet} {h : List (Event ι Stmt Fleet)}
    {ph : ι → List SharedBan} (inv : PoolInvariant ipAddr start h ph f) {i : ι} {m : Member}
    (reached : f.fault m.host = none) :
    PoolInvariant ipAddr start (h ++ [⟨i, .list m, f⟩])
      (Function.update ph i (ph i ++ bansOf ipAddr (f.decisions m.host))) f := by
  have own : readings ipAddr [(⟨i, .list m, f⟩ : Event ι Stmt Fleet)] i =
      f.shown ipAddr m.host := by
    simp [readings, reached]
  have others : ∀ j, j ≠ i → readings ipAddr [(⟨i, .list m, f⟩ : Event ι Stmt Fleet)] j = [] := by
    intro j other
    simp [readings, Ne.symm other]
  constructor
  · intro j
    rw [readings_concat]
    by_cases same : j = i
    · subst same
      rw [Function.update_self, own, List.map_append, ← inv.read j,
        bansOf_decisions ipAddr inv.temporary]
    · rw [Function.update_of_ne same, others j same, List.append_nil]
      exact inv.read j
  · intro j r mem
    rw [readings_concat] at mem
    obtain old | new := List.mem_append.mp mem
    · exact inv.short j r old
    · by_cases same : j = i
      · subst same
        rw [own] at new
        exact shown_le ipAddr inv.temporary new
      · rw [others j same] at new
        cases new
  · exact inv.temporary
  · rw [forall_cut_concat, inv.bounded]
    exact (and_iff_left (timely_of_not_add ipAddr (by simp))).symm

/-- The row of an addition. -/
def SharedBan.row (x : SharedBan) (now : Nat) : Ban where
  ip := x.ip
  origin := "cscli"
  action := "ban"
  expires := now + x.seconds

theorem mem_insert {f : Fleet} {host host' : String} {x : SharedBan} {b : Ban} :
    b ∈ (f.insert host x).bans host' ↔ b ∈ f.bans host' ∨ host' = host ∧ b = x.row f.now := by
  unfold Fleet.insert SharedBan.row
  by_cases same : host' = host
  · subst same
    simp
  · simp [same]

theorem bans_insert {f : Fleet} {host ip : String} {x : SharedBan} {b : Ban} :
    (f.insert host x).Bans ip b ↔ f.Bans ip b ∨ b = x.row f.now ∧ x.ip = ip := by
  unfold Fleet.Bans
  simp only [mem_insert, or_and_right, exists_or]
  refine or_congr_right ⟨?_, ?_⟩
  · rintro ⟨_, ⟨-, rfl⟩, -, same⟩
    exact ⟨rfl, same⟩
  · rintro ⟨rfl, same⟩
    exact ⟨host, ⟨rfl, rfl⟩, rfl, same⟩

theorem seconds_le {n : Nat} (le : n ≤ 359999940) : wholeMinutes n * 60 ≤ 359999940 := by
  unfold wholeMinutes
  omega

/-- The addition is timely exactly when its row is bounded. -/
theorem timely_add_iff {start f : Fleet} {h : List (Event ι Stmt Fleet)} {i : ι} {m : Member}
    {x : SharedBan} (takes : f.takes m.host x = true)
    (length : x.seconds = wholeMinutes (longest ipAddr h i x.ip) * 60) :
    Timely ipAddr start h ⟨i, .add m x, f⟩ ↔
      ∃ b₀, start.Bans x.ip b₀ ∧ (x.row f.now).expires ≤ b₀.expires + 300 := by
  have arithmetic : ∀ b₀ : Ban, (x.row f.now).expires ≤ b₀.expires + 300 ↔
      (longest ipAddr h i x.ip ≤ 300 ∧ f.now ≤ b₀.expires ∨ 300 < longest ipAddr h i x.ip ∧
        f.now + (longest ipAddr h i x.ip + 59) / 60 * 60 ≤ b₀.expires + 300) := by
    intro b₀
    show f.now + x.seconds ≤ b₀.expires + 300 ↔ _
    rw [length, wholeMinutes]
    omega
  constructor
  · intro timely
    obtain ⟨b₀, original, bound⟩ := timely m x rfl takes
    exact ⟨b₀, original, (arithmetic b₀).mpr bound⟩
  · rintro ⟨b₀, original, bound⟩ m' x' eq -
    cases eq
    exact ⟨b₀, original, (arithmetic b₀).mp bound⟩

theorem PoolInvariant.inserted {start f : Fleet} {h : List (Event ι Stmt Fleet)}
    {ph : ι → List SharedBan} (inv : PoolInvariant ipAddr start h ph f) {i : ι} {m : Member}
    {x : SharedBan} (takes : f.takes m.host x = true) (known : x ∈ (ph i).foldl raise []) :
    PoolInvariant ipAddr start (h ++ [⟨i, .add m x, f⟩]) (Function.update ph i (ph i))
      (f.insert m.host x) := by
  rw [inv.read i] at known
  obtain ⟨shape, r, read, -, top⟩ := added_eq ipAddr known
  have length : x.seconds = wholeMinutes (longest ipAddr h i x.ip) * 60 := by
    rw [shape]
    rfl
  have quiet : ∀ j, readings ipAddr (h ++ [⟨i, .add m x, f⟩]) j = readings ipAddr h j := by
    intro j
    rw [readings_concat, readings_of_not_list ipAddr (by simp), List.append_nil]
  constructor
  · intro j
    rw [Function.update_eq_self, quiet]
    exact inv.read j
  · intro j r mem
    rw [quiet] at mem
    exact inv.short j r mem
  · intro host b mem kept
    obtain old | ⟨-, rfl⟩ := mem_insert.mp mem
    · exact inv.temporary host b old kept
    · have bound := seconds_le (top ▸ inv.short i r read)
      rw [← length] at bound
      exact Nat.add_le_add_left bound _
  · rw [forall_cut_concat, ← inv.bounded, timely_add_iff ipAddr takes length]
    constructor
    · intro all
      exact ⟨fun ip b old => all ip b (bans_insert.mpr (.inl old)),
        all x.ip _ (bans_insert.mpr (.inr ⟨rfl, rfl⟩))⟩
    · rintro ⟨old, new⟩ ip b mem
      obtain mem | ⟨rfl, rfl⟩ := bans_insert.mp mem
      · exact old ip b mem
      · exact new

theorem PoolInvariant.step {start f : Fleet} {h : List (Event ι Stmt Fleet)}
    {ph : ι → List SharedBan} (inv : PoolInvariant ipAddr start h ph f) {i : ι} {q : Stmt}
    {read : List SharedBan} (allowed : PassStep ipAddr (ph i) q (q.exec f).1 read) :
    PoolInvariant ipAddr start (h ++ [⟨i, q, f⟩]) (Function.update ph i read) (q.exec f).2 := by
  cases q with
  | list m =>
      cases reached : f.fault m.host with
      | none =>
          simp only [Stmt.exec, reached] at allowed ⊢
          cases allowed
          exact inv.listed ipAddr reached
      | some e =>
          simp only [Stmt.exec, reached] at allowed ⊢
          cases allowed
          refine inv.quiet ipAddr (fun j => ?_) (by simp)
          simp [readings, reached]
  | add m x =>
      cases allowed with
      | added _ _ known =>
          cases takes : f.takes m.host x with
          | true =>
              simp only [Stmt.exec, takes]
              exact inv.inserted ipAddr takes known
          | false =>
              simp only [Stmt.exec, takes]
              refine inv.quiet ipAddr (readings_of_not_list ipAddr (by simp)) ?_
              rintro m' x' eq
              cases eq
              exact takes
  | finish m =>
      cases allowed with
      | finished => exact inv.quiet ipAddr (readings_of_not_list ipAddr (by simp)) (by simp)

theorem PoolInvariant.change {start f : Fleet} {h : List (Event ι Stmt Fleet)}
    {ph : ι → List SharedBan} (inv : PoolInvariant ipAddr start h ph f) (c : Change) :
    PoolInvariant ipAddr start h ph (c.apply f) := by
  cases c with
  | tick seconds =>
      refine ⟨inv.read, inv.short, fun host b mem kept => ?_, inv.bounded⟩
      exact (inv.temporary host b mem kept).trans (by simp only [Change.apply]; omega)
  | network fault takes => exact ⟨inv.read, inv.short, inv.temporary, inv.bounded⟩

/-- The passes over their fleets, each thread one pass. -/
def passes (start : Fleet) (fleets : ι → List Member) :
    Pool ι Stmt Stmt.Result FleetSyncOut Fleet :=
  ⟨start, fun i => fleetSyncGiven ipAddr (fleets i)⟩

/-- The fleet after a schedule. -/
def afterPasses (start : Fleet) (fleets : ι → List Member) (ls : List (Label ι Change)) : Fleet :=
  ((passes ipAddr start fleets).run Stmt.exec Change.apply ls).shared

/-- The commands of a schedule. -/
def commands (start : Fleet) (fleets : ι → List Member) (ls : List (Label ι Change)) :
    List (Event ι Stmt Fleet) :=
  (passes ipAddr start fleets).events Stmt.exec Change.apply ls

theorem poolInvariant {start : Fleet} (temporary : start.Temporary ipAddr)
    (fleets : ι → List Member) (ls : List (Label ι Change)) :
    ∃ ph, PoolInvariant ipAddr start (commands ipAddr start fleets ls) ph
      (afterPasses ipAddr start fleets ls) := by
  have init : PoolInvariant ipAddr start ([] : List (Event ι Stmt Fleet)) (fun _ => []) start := by
    refine ⟨fun _ => rfl, fun _ r mem => absurd mem List.not_mem_nil, temporary, ?_⟩
    refine iff_of_true (fun ip b mem => ⟨b, mem, Nat.le_add_right _ _⟩) ?_
    intro past e rest cut
    simp at cut
  obtain ⟨ph, -, inv⟩ := Pool.phases Stmt.exec Change.apply
    (δ := fun _ => PassStep ipAddr)
    (I := PoolInvariant ipAddr start)
    (fun _ _ _ _ _ _ allowed inv => inv.step ipAddr allowed)
    (fun _ _ _ c inv => inv.change ipAddr c) (passes ipAddr start fleets)
    (fun i => fleetSyncGiven_follows ipAddr (fleets i)) init ls
  exact ⟨ph, inv⟩

/-- For any number of passes over any fleets, in any interleaving and with any time between
the commands: temporary bans are not prolonged exactly when every addition is timely. -/
theorem notProlonged_iff {start : Fleet} (temporary : start.Temporary ipAddr)
    (fleets : ι → List Member) (ls : List (Label ι Change)) :
    NotProlonged start (afterPasses ipAddr start fleets ls) ↔
      ∀ past e rest, commands ipAddr start fleets ls = past ++ e :: rest →
        Timely ipAddr start past e := by
  obtain ⟨ph, inv⟩ := poolInvariant ipAddr temporary fleets ls
  rw [← inv.bounded]
  refine ⟨NotProlonged.expires, fun bounded => ⟨bounded, fun ip late b mem => ?_⟩⟩
  obtain ⟨b₀, original, bound⟩ := bounded ip b mem
  exact bound.trans (late b₀ original)

end Runs

/-- Two servers. -/
def pair : List Member :=
  [⟨"linode", "1", "a", "first"⟩, ⟨"linode", "2", "b", "second"⟩]

/-- The first has banned an address for 1000 seconds. -/
def oneBan : Fleet where
  now := 0
  bans host := if host = "a" then [⟨"203.0.113.7", "crowdsec", "ban", 1000⟩] else []
  fault _ := none
  takes _ _ := true

def isSample (text : String) : Bool := text == "203.0.113.7"

theorem oneBan_temporary : oneBan.Temporary isSample := by
  intro host b mem _
  simp only [oneBan] at mem
  split at mem
  · rw [List.mem_singleton.mp mem]
    decide
  · cases mem

/-- A pass right away, and another one ten seconds after the ban has expired. -/
def lateSecondPass : List (Label Bool Change) :=
  List.replicate 4 (Label.thread false) ++
    Label.env (.tick 1010) :: List.replicate 4 (Label.thread true)

theorem notProlonged_iff_lateSecondPass :
    oneBan.Temporary isSample ∧
      (NotProlonged oneBan (afterPasses isSample oneBan (fun _ => pair) lateSecondPass) ↔
        ∀ past e rest, commands isSample oneBan (fun _ => pair) lateSecondPass = past ++ e :: rest →
          Timely isSample oneBan past e) :=
  ⟨oneBan_temporary, notProlonged_iff isSample oneBan_temporary (fun _ => pair) lateSecondPass⟩

/-- The second pass reads the copy that the first one made, with ten seconds left, and gives
the first server five minutes more: 310 seconds past the original expiry. -/
theorem lateSecondPass_prolongs :
    ¬ NotProlonged oneBan (afterPasses isSample oneBan (fun _ => pair) lateSecondPass) := by
  intro kept
  obtain ⟨b₀, ⟨host, mem, -, -⟩, bound⟩ := kept.expires "203.0.113.7"
    ⟨"203.0.113.7", "cscli", "ban", 1310⟩ ⟨"a", by decide +kernel, rfl, rfl⟩
  simp only [oneBan] at mem
  split at mem
  · rw [List.mem_singleton.mp mem] at bound
    exact absurd bound (by decide)
  · cases mem

end Sentinel.Servers
