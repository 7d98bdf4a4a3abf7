import Mathlib
import Sentinel.Vault.Store

/-!
# Replicas that exchange snapshots

Any number of vaults start empty, write locally and merge each other's snapshots, late,
repeatedly and in any order. `Cluster` keeps beside each vault and each snapshot the local
writes it reflects. The lists are bookkeeping only: no operation reads them.

A merge is a join as long as it is `Regular`: where the times of two copies agree the
copies do, and where the receiver or the sender has a tombstone, the other side has
something for the tombstone to be compared with. `merge` keeps the receiver's copy on a
tie, and it has no comparison for a tombstone that meets no item, on either side.
-/

namespace Sentinel.Vault

open Relational Lww

/-- A local write: an id with an item or a tombstone. -/
abbrev Write := ItemId × Entry Int ItemEnvelope

/-- The replicas, the snapshots in flight and the writes each of them reflects. -/
structure Cluster (ι : Type) where
  vault : ι → LocalVault
  known : ι → List Write
  snapshots : List (LocalVault × List Write)

inductive ClusterStep (ι : Type) where
  | upsert (r : ι) (env : ItemEnvelope)
  | delete (r : ι) (id : ItemId) (deletedAt : Int)
  | snapshot (r : ι)
  | merge (r : ι) (k : Nat)

namespace Cluster

variable {ι : Type} [DecidableEq ι]

/-- All replicas are empty and nothing was sent. -/
def initial : Cluster ι where
  vault := fun _ => .empty
  known := fun _ => []
  snapshots := []

/-- A replica performs a local write. -/
def write (c : Cluster ι) (r : ι) (v : LocalVault) (w : Write) : Cluster ι where
  vault := Function.update c.vault r v
  known := Function.update c.known r (w :: c.known r)
  snapshots := c.snapshots

/-- One step. Merging a snapshot that was never taken, or writing an unreadable envelope,
does nothing. -/
def step (c : Cluster ι) : ClusterStep ι → Cluster ι
  | .upsert r env =>
      match header : envelopeMeta env with
      | .error _ => c
      | .ok (id, ts) => c.write r ((c.vault r).put env id ts header) (id, .item ts env)
  | .delete r id deletedAt => c.write r ((c.vault r).delete id deletedAt) (id, .tombstone deletedAt)
  | .snapshot r => { c with snapshots := c.snapshots ++ [(c.vault r, c.known r)] }
  | .merge r k =>
      match c.snapshots[k]? with
      | none => c
      | some (sent, writes) =>
          { c with
            vault := Function.update c.vault r ((c.vault r).merge sent.toDocument).1
            known := Function.update c.known r (writes ++ c.known r) }

/-- The cluster after a run. -/
def run (c : Cluster ι) (steps : List (ClusterStep ι)) : Cluster ι := steps.foldl step c

/-- Each of two replicas has merged, directly or through others, snapshots that reflect
every local write the other one reflects. -/
def UpToDate (c : Cluster ι) (a b : ι) : Prop := ∀ w, w ∈ c.known a ↔ w ∈ c.known b

instance (c : Cluster ι) (a b : ι) : Decidable (c.UpToDate a b) :=
  decidable_of_iff ((∀ w ∈ c.known a, w ∈ c.known b) ∧ ∀ w ∈ c.known b, w ∈ c.known a)
    ⟨fun h w => ⟨h.1 w, h.2 w⟩, fun h => ⟨fun w => (h w).mp, fun w => (h w).mpr⟩⟩

/-- The two replicas hold the same envelopes, and neither holds an item the other has
deleted. -/
def Agree (c : Cluster ι) (a b : ι) : Prop :=
  (∀ id, (c.vault a).get id = (c.vault b).get id) ∧
    (∀ id, (c.vault a).get id ≠ none → (c.vault b).tombstones.find? id = none) ∧
    ∀ id, (c.vault b).get id ≠ none → (c.vault a).tombstones.find? id = none

/-- The promise: replicas that are up to date agree. -/
def Convergent (steps : List (ClusterStep ι)) : Prop :=
  ∀ a b, ((initial : Cluster ι).run steps).UpToDate a b → ((initial : Cluster ι).run steps).Agree a b

end Cluster

/-- The write is later than what it replaces, or the same. -/
def Supersedes (old : Option (Entry Int ItemEnvelope)) (new : Entry Int ItemEnvelope) : Prop :=
  rank old < rank (some new) ∨ old = some new

instance (old : Option (Entry Int ItemEnvelope)) (new : Entry Int ItemEnvelope) :
    Decidable (Supersedes old new) :=
  match old, new with
  | none, new => .isTrue (.inl (none_lt_some new))
  | some (.item _ _), .item _ _ => decidable_of_iff _ (or_congr_left item_lt_item.symm)
  | some (.item _ _), .tombstone _ => decidable_of_iff _ (or_congr_left item_lt_tombstone.symm)
  | some (.tombstone _), .item _ _ => decidable_of_iff _ (or_congr_left tombstone_lt_item.symm)
  | some (.tombstone _), .tombstone _ =>
      decidable_of_iff _ (or_congr_left tombstone_lt_tombstone.symm)

/-- The entry that a replica has for an id, when an item of that id arrives: a copy with
the same time is the same copy, and a tombstone is older. -/
def MeetsItem (mine : Option (Entry Int ItemEnvelope)) (ts : Int) (env : ItemEnvelope) : Prop :=
  match mine with
  | none => True
  | some (.item l old) => l = ts → old = env
  | some (.tombstone d) => d < ts

instance (mine : Option (Entry Int ItemEnvelope)) (ts : Int) (env : ItemEnvelope) :
    Decidable (MeetsItem mine ts env) := by
  unfold MeetsItem
  split <;> infer_instance

/-- The same when a tombstone arrives: it meets an item, or a tombstone that is not
older. -/
def MeetsTombstone (mine : Option (Entry Int ItemEnvelope)) (deletedAt : Int) : Prop :=
  match mine with
  | none => False
  | some (.item _ _) => True
  | some (.tombstone d) => deletedAt ≤ d

instance (mine : Option (Entry Int ItemEnvelope)) (deletedAt : Int) :
    Decidable (MeetsTombstone mine deletedAt) := by
  unfold MeetsTombstone
  split <;> infer_instance

/-- A merge of a snapshot in which no two copies tie and every tombstone has something to
be compared with. -/
def RegularMerge (v sent : LocalVault) : Prop :=
  (∀ r ∈ sent.items.rows, MeetsItem (v.entry r.id) r.updatedAt r.envelope) ∧
    ∀ t ∈ sent.tombstones.rows, MeetsTombstone (v.entry t.id) t.deletedAt

instance (v sent : LocalVault) : Decidable (RegularMerge v sent) :=
  inferInstanceAs (Decidable (_ ∧ _))

namespace Cluster

variable {ι : Type} [DecidableEq ι]

/-- What a step may be: a local write later than what it replaces, or a regular merge. -/
def RegularStep (c : Cluster ι) : ClusterStep ι → Prop
  | .upsert r env =>
      match envelopeMeta env with
      | .error _ => True
      | .ok (id, ts) => Supersedes ((c.vault r).entry id) (.item ts env)
  | .delete r id deletedAt => Supersedes ((c.vault r).entry id) (.tombstone deletedAt)
  | .snapshot _ => True
  | .merge r k =>
      match c.snapshots[k]? with
      | none => True
      | some s => RegularMerge (c.vault r) s.1

instance (c : Cluster ι) (s : ClusterStep ι) : Decidable (c.RegularStep s) := by
  unfold RegularStep
  split
  · split <;> infer_instance
  · infer_instance
  · infer_instance
  · split <;> infer_instance

/-- Every step of the run is regular where it happens. -/
def RegularRun (c : Cluster ι) : List (ClusterStep ι) → Prop
  | [] => True
  | s :: rest => c.RegularStep s ∧ (c.step s).RegularRun rest

instance decidableRegularRun (c : Cluster ι) :
    (steps : List (ClusterStep ι)) → Decidable (c.RegularRun steps)
  | [] => inferInstanceAs (Decidable True)
  | s :: rest =>
      have := decidableRegularRun (c.step s) rest
      inferInstanceAs (Decidable (_ ∧ _))

end Cluster

theorem receive_item {mine : Option (Entry Int ItemEnvelope)} {ts : Int} {env : ItemEnvelope}
    (meets : MeetsItem mine ts env) :
    receive mine (some (.item ts env)) = join mine (some (.item ts env)) ∧
      (rank mine = rank (some (.item ts env)) → mine = some (.item ts env)) := by
  obtain - | ⟨l, old⟩ | d := mine
  · have lower := none_lt_some (.item ts env)
    exact ⟨(join_of_lt lower).symm, fun tie => absurd tie lower.ne⟩
  · have same : l = ts → old = env := meets
    constructor
    · by_cases newer : l < ts
      · rw [join_of_lt (item_lt_item.mpr newer)]
        exact if_pos newer
      · rw [join_of_le (item_le_item.mpr (not_lt.mp newer))]
        exact if_neg newer
    · intro tie
      obtain rfl : l = ts := le_antisymm (item_le_item.mp tie.le) (item_le_item.mp tie.ge)
      rw [same rfl]
  · have older : d < ts := meets
    have lower := tombstone_lt_item (a := env).mpr older
    exact ⟨(join_of_lt lower).symm, fun tie => absurd tie lower.ne⟩

theorem receive_tombstone {mine : Option (Entry Int ItemEnvelope)} {d : Int}
    (meets : MeetsTombstone mine d) :
    receive mine (some (.tombstone d)) = join mine (some (.tombstone d)) ∧
      (rank mine = rank (some (.tombstone d : Entry Int ItemEnvelope)) →
        mine = some (.tombstone d)) := by
  obtain - | ⟨l, old⟩ | e := mine
  · cases meets
  · constructor
    · by_cases late : l ≤ d
      · rw [join_of_lt (item_lt_tombstone.mpr late)]
        exact if_pos late
      · rw [join_of_le (tombstone_le_item.mpr (not_le.mp late))]
        exact if_neg late
    · intro tie
      exact absurd (tombstone_le_item.mp tie.ge) (not_lt.mpr (item_le_tombstone.mp tie.le))
  · have older : d ≤ e := meets
    refine ⟨(join_of_le (tombstone_le_tombstone.mpr older)).symm, fun tie => ?_⟩
    rw [le_antisymm (tombstone_le_tombstone.mp tie.le) older]

/-- A regular merge joins the entries. -/
theorem RegularMerge.receive_eq {v sent : LocalVault} (regular : RegularMerge v sent)
    (id : ItemId) :
    receive (v.entry id) (sent.entry id) = join (v.entry id) (sent.entry id) ∧
      (rank (v.entry id) = rank (sent.entry id) → v.entry id = sent.entry id) := by
  obtain ⟨items, tombstones⟩ := regular
  rw [LocalVault.entry.eq_def sent]
  cases live : sent.items.find? id with
  | some r =>
      have meets := items r (Table.mem_of_find? live)
      rw [show r.id = id from Table.key_of_find? live] at meets
      exact receive_item meets
  | none =>
      cases dead : sent.tombstones.find? id with
      | none =>
          refine ⟨(join_none _).symm, fun tie => ?_⟩
          cases held : v.entry id with
          | none => rfl
          | some e =>
              rw [held] at tie
              exact absurd tie (none_lt_some e).ne'
      | some t =>
          have meets := tombstones t (Table.mem_of_find? dead)
          rw [show t.id = id from Table.key_of_find? dead] at meets
          exact receive_tombstone meets

/-- The writes of one id in a list. -/
def writesOf (writes : List Write) (id : ItemId) : Set (Entry Int ItemEnvelope) :=
  { e | (id, e) ∈ writes }

/-- A vault holds what the writes come to. -/
def Reflects (v : LocalVault) (writes : List Write) : Prop :=
  ∀ id, Leads (writesOf writes id) (v.entry id)

namespace Reflects

variable {v w : LocalVault} {writes others : List Write}

theorem empty : Reflects .empty [] := by
  intro id
  have none_ : writesOf [] id = ∅ := Set.eq_empty_of_forall_notMem fun _ => List.not_mem_nil
  rw [none_]
  exact Leads.empty

/-- A local write that supersedes the entry of its id and leaves the others alone. -/
theorem write (h : Reflects v writes) {id : ItemId} {e : Entry Int ItemEnvelope}
    (newer : Supersedes (v.entry id) e)
    (stored : ∀ i, w.entry i = if id = i then some e else v.entry i) :
    Reflects w ((id, e) :: writes) := by
  intro i
  rw [stored]
  by_cases same : id = i
  · subst same
    have all : writesOf ((id, e) :: writes) id = Insert.insert e (writesOf writes id) := by
      ext x
      simp [writesOf]
    rw [if_pos rfl, all]
    exact (h id).insert newer
  · have others : writesOf ((id, e) :: writes) i = writesOf writes i := by
      ext x
      simp [writesOf, Ne.symm same]
    rw [if_neg same, others]
    exact h i

/-- A regular merge. -/
theorem merge (h : Reflects v writes) (sent : Reflects w others) (regular : RegularMerge v w) :
    Reflects (v.merge w.toDocument).1 (others ++ writes) := by
  intro id
  obtain ⟨joins, tie⟩ := regular.receive_eq id
  have all : writesOf (others ++ writes) id = writesOf writes id ∪ writesOf others id := by
    ext x
    simp [writesOf, or_comm]
  rw [LocalVault.entry_merge_toDocument, joins, all]
  exact (h id).union (sent id) tie

/-- The entries are determined by the writes. -/
theorem entry_eq (h : Reflects v writes) (h' : Reflects w others)
    (same : ∀ x, x ∈ writes ↔ x ∈ others) (id : ItemId) : v.entry id = w.entry id := by
  have sets : writesOf writes id = writesOf others id := by
    ext x
    exact same (id, x)
  have here := h id
  rw [sets] at here
  exact here.unique (h' id)

end Reflects

namespace Cluster

variable {ι : Type} [DecidableEq ι]

/-- Replicas and snapshots hold what the writes they reflect come to. -/
structure Sound (c : Cluster ι) : Prop where
  vaults : ∀ r, Reflects (c.vault r) (c.known r)
  sent : ∀ s ∈ c.snapshots, Reflects s.1 s.2

omit [DecidableEq ι] in
theorem sound_initial : (initial : Cluster ι).Sound := ⟨fun _ => .empty, nofun⟩

theorem Sound.write {c : Cluster ι} (h : c.Sound) {r : ι} {v : LocalVault} {id : ItemId}
    {e : Entry Int ItemEnvelope} (newer : Supersedes ((c.vault r).entry id) e)
    (stored : ∀ i, v.entry i = if id = i then some e else (c.vault r).entry i) :
    (c.write r v (id, e)).Sound := by
  refine ⟨fun q => ?_, h.sent⟩
  by_cases same : q = r
  · subst same
    simp only [Cluster.write, Function.update_self]
    exact (h.vaults q).write newer stored
  · simp only [Cluster.write, Function.update_of_ne same]
    exact h.vaults q

theorem Sound.step {c : Cluster ι} (h : c.Sound) {s : ClusterStep ι} (regular : c.RegularStep s) :
    (c.step s).Sound := by
  cases s with
  | upsert r env =>
      rw [Cluster.step]
      split <;> rename_i header
      · exact h
      · rw [RegularStep, header] at regular
        exact h.write regular (LocalVault.entry_put _ header)
  | delete r id d => exact h.write regular (LocalVault.entry_delete _ id d)
  | snapshot r =>
      refine ⟨h.vaults, List.forall_mem_append.mpr ⟨h.sent, ?_⟩⟩
      exact List.forall_mem_singleton.mpr (h.vaults r)
  | merge r k =>
      rw [Cluster.step]
      split <;> rename_i found
      · exact h
      · have sent := h.sent _ (List.mem_of_getElem? found)
        refine ⟨fun q => ?_, h.sent⟩
        by_cases same : q = r
        · subst same
          simp only [Function.update_self]
          rw [RegularStep, found] at regular
          exact (h.vaults q).merge sent regular
        · simp only [Function.update_of_ne same]
          exact h.vaults q

theorem Sound.run {c : Cluster ι} (h : c.Sound) {steps : List (ClusterStep ι)}
    (regular : c.RegularRun steps) : (c.run steps).Sound := by
  induction steps generalizing c with
  | nil => exact h
  | cons s rest ih => exact ih (h.step regular.1) regular.2

end Cluster

/-- In every run of any number of replicas from empty vaults whose local writes are later
than what they replace and whose merges are regular, replicas that are up to date with
each other hold the same envelopes, and neither holds an item the other has deleted. -/
theorem replicas_convergent {ι : Type} [DecidableEq ι] (steps : List (ClusterStep ι))
    (regular : (Cluster.initial : Cluster ι).RegularRun steps) : Cluster.Convergent steps := by
  intro a b upToDate
  have sound := Cluster.sound_initial.run regular
  have same := (sound.vaults a).entry_eq (sound.vaults b) upToDate
  have items : ∀ id, (((Cluster.initial : Cluster ι).run steps).vault a).get id =
      (((Cluster.initial : Cluster ι).run steps).vault b).get id := by
    intro id
    rw [← LocalVault.live_entry, same, LocalVault.live_entry]
  have apart : ∀ (v : LocalVault) id, v.get id ≠ none → v.tombstones.find? id = none := by
    intro v id held
    exact v.exclusive id fun absent => held (by rw [LocalVault.get, absent]; rfl)
  exact ⟨items, fun id held => apart _ id (items id ▸ held),
    fun id held => apart _ id ((items id).symm ▸ held)⟩

/-- One replica writes an item, the other one takes it and deletes it, and the deletion
comes back. -/
def deletionRun : List (ClusterStep Bool) :=
  [.upsert false (sampleEnvelope 5 0), .snapshot false, .merge true 0, .delete true sampleId 10,
    .snapshot true, .merge false 1]

theorem deletionRun_agree : (Cluster.initial.run deletionRun).UpToDate false true ∧
    (Cluster.initial.run deletionRun).Agree false true := by
  have upToDate : (Cluster.initial.run deletionRun).UpToDate false true := by decide +kernel
  exact ⟨upToDate, replicas_convergent deletionRun (by decide +kernel) false true upToDate⟩

/-- Two replicas write the same id at the same time and exchange snapshots. -/
def tiedRun : List (ClusterStep Bool) :=
  [.upsert false (sampleEnvelope 5 0), .upsert true (sampleEnvelope 5 1), .snapshot false,
    .snapshot true, .merge false 1, .merge true 0]

/-- A replica replaces its item by an older one; the other one has seen both and keeps the
newer. -/
def backdatedRun : List (ClusterStep Bool) :=
  [.snapshot true, .upsert false (sampleEnvelope 10 0), .snapshot false, .merge true 1,
    .upsert false (sampleEnvelope 5 1), .snapshot false, .merge true 2, .merge false 0]

/-- Neither run converges: on a tie each replica keeps its own copy, and a local write
replaces whatever was there. -/
theorem tiedRun_not_convergent :
    ¬ Cluster.Convergent tiedRun ∧ ¬ Cluster.Convergent backdatedRun := by
  constructor
  · intro convergent
    have same := (convergent false true (by decide +kernel)).1 sampleId
    exact absurd same (by decide +kernel)
  · intro convergent
    have same := (convergent false true (by decide +kernel)).1 sampleId
    exact absurd same (by decide +kernel)

end Sentinel.Vault
