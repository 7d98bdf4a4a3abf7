import Sentinel.Servers.BanPool

/-!
# Convergence of the ban pool

Passes of `plan_fleet_additions` over a fleet whose bans change in no other way. A pass does
not change the addresses of the union, and a server that misses `n` of them misses `n - 100`
after it; so the number of passes is known from the start.
-/

namespace Sentinel.Servers

/-! ## The plan of one pass -/

/-- The entries of the union that a server does not have. -/
def missingFrom (union bans : List SharedBan) : List SharedBan :=
  union.filter fun u => !(bans.any fun b => b.ip == u.ip)

/-- What the plan adds to a server. -/
def additions (union bans : List SharedBan) : List SharedBan :=
  ((missingFrom union bans).insertionSort fun a b => a.ip ≤ b.ip).take 100

/-- A pass with every addition taken: the plan is looked up by the key of the server. -/
def pass (fleet : List (String × List SharedBan)) : List (String × List SharedBan) :=
  fleet.map fun s => (s.1, s.2 ++ ((planFleetAdditions fleet).reverse.lookup s.1).getD [])

/-- The largest number of addresses that one server is missing. -/
def mostMissing (fleet : List (String × List SharedBan)) : Nat :=
  (fleet.map fun s => (missingFrom (unionBans fleet) s.2).length).foldr max 0

/-- Some entry is on the address. -/
def Lists (bans : List SharedBan) (ip : String) : Prop := ∃ b ∈ bans, b.ip = ip

section Union

variable {l : List SharedBan} {fleet : List (String × List SharedBan)}

/-- An entry of the union is permanent if one on its address is. -/
theorem perm_of_mem_foldl_raise (l : List SharedBan) :
    ∀ x ∈ l.foldl raise [], ∀ b ∈ l, b.ip = x.ip → b.perm = true → x.perm = true := by
  induction l using List.reverseRecOn with
  | nil => simp
  | append_singleton l c ih =>
      rw [List.foldl_concat]
      have union := isUnion_foldl_raise l
      by_cases known : ∃ y ∈ l.foldl raise [], y.ip = c.ip
      · obtain ⟨y, here, same⟩ := known
        rw [raise_of_mem union.nodup here same]
        intro x mem b listed ip isPerm
        obtain ⟨o, there, rfl⟩ := List.mem_map.mp mem
        rw [SharedBan.join_ip] at ip
        obtain old | last := List.mem_append.mp listed
        · have isPerm := ih o there b old ip isPerm
          unfold SharedBan.join
          split
          · rw [isPerm, Bool.true_or]
          · exact isPerm
        · cases List.mem_singleton.mp last
          rw [SharedBan.join, if_pos ip.symm, isPerm, Bool.or_true]
      · have new : ∀ y ∈ l.foldl raise [], y.ip ≠ c.ip := fun y mem eq => known ⟨y, mem, eq⟩
        rw [raise_of_not_mem new]
        intro x mem b listed ip isPerm
        obtain old | last := List.mem_append.mp listed
        · obtain there | newest := List.mem_append.mp mem
          · exact ih x there b old ip isPerm
          · cases List.mem_singleton.mp newest
            obtain ⟨y, there, same, -⟩ := union.complete b old
            exact absurd (same.trans ip) (new y there)
        · cases List.mem_singleton.mp last
          obtain there | newest := List.mem_append.mp mem
          · exact absurd ip.symm (new x there)
          · cases List.mem_singleton.mp newest
            exact isPerm

theorem isUnion_unionBans (fleet : List (String × List SharedBan)) :
    IsUnion (fleet.flatMap Prod.snd) (unionBans fleet) := isUnion_foldl_raise _

/-- The union has the addresses of the fleet. -/
theorem lists_unionBans {ip : String} :
    Lists (unionBans fleet) ip ↔ ∃ s ∈ fleet, Lists s.2 ip := by
  constructor
  · rintro ⟨x, mem, rfl⟩
    obtain ⟨b, there, same, -⟩ := (isUnion_unionBans fleet).sound x mem
    obtain ⟨s, member, listed⟩ := List.mem_flatMap.mp there
    exact ⟨s, member, b, listed, same⟩
  · rintro ⟨s, member, b, listed, rfl⟩
    obtain ⟨x, mem, same, -⟩ :=
      (isUnion_unionBans fleet).complete b (List.mem_flatMap.mpr ⟨s, member, listed⟩)
    exact ⟨x, mem, same⟩

theorem planFleetAdditions_eq (fleet : List (String × List SharedBan)) :
    planFleetAdditions fleet = fleet.map fun s => (s.1, additions (unionBans fleet) s.2) := rfl

theorem mem_missingFrom {union bans : List SharedBan} {x : SharedBan} :
    x ∈ missingFrom union bans ↔ x ∈ union ∧ ¬ Lists bans x.ip := by
  simp [missingFrom, Lists]

theorem mem_additions {union bans : List SharedBan} {x : SharedBan}
    (mem : x ∈ additions union bans) : x ∈ union ∧ ¬ Lists bans x.ip := by
  have sorted := List.mem_of_mem_take mem
  rw [List.mem_insertionSort] at sorted
  exact mem_missingFrom.mp sorted

/-- The first entry with a key, among entries with distinct keys. -/
theorem lookup_of_mem {β : Type} {l : List (String × β)} (distinct : (l.map Prod.fst).Nodup)
    {e : String × β} (mem : e ∈ l) : l.lookup e.1 = some e.2 := by
  induction l with
  | nil => cases mem
  | cons f rest ih =>
      rw [List.map_cons, List.nodup_cons] at distinct
      rw [List.lookup_cons]
      obtain rfl | later := List.mem_cons.mp mem
      · rw [beq_self_eq_true]
      · have other : (e.1 == f.1) = false := by
          rw [beq_eq_false_iff_ne]
          intro same
          exact distinct.1 (same ▸ List.mem_map_of_mem later)
        rw [other]
        exact ih distinct.2 later

/-- With distinct keys every server gets its own additions. -/
theorem pass_eq (distinct : (fleet.map Prod.fst).Nodup) :
    pass fleet = fleet.map fun s => (s.1, s.2 ++ additions (unionBans fleet) s.2) := by
  refine List.map_congr_left fun s mem => ?_
  have keys : (((planFleetAdditions fleet).reverse).map Prod.fst).Nodup := by
    rw [List.map_reverse, List.nodup_reverse, planFleetAdditions_eq, List.map_map]
    exact distinct
  have planned : (s.1, additions (unionBans fleet) s.2) ∈ (planFleetAdditions fleet).reverse := by
    rw [List.mem_reverse, planFleetAdditions_eq]
    exact List.mem_map_of_mem mem
  rw [lookup_of_mem keys planned, Option.getD_some]

theorem pass_keys (fleet : List (String × List SharedBan)) :
    (pass fleet).map Prod.fst = fleet.map Prod.fst := by
  rw [pass, List.map_map]
  rfl

/-- The order in which a hash map lists the union has no influence on the plan. -/
theorem additions_perm {union order : List SharedBan} (nodup : (union.map SharedBan.ip).Nodup)
    (perm : order.Perm union) (bans : List SharedBan) :
    additions order bans = additions union bans := by
  have inside : ∀ x ∈ missingFrom union bans, x ∈ union := fun x mem => (mem_missingFrom.mp mem).1
  have missing : (missingFrom order bans).Perm (missingFrom union bans) := perm.filter _
  unfold additions
  congr 1
  refine List.Perm.eq_of_pairwise ?_
    (List.pairwise_insertionSort (fun a b : SharedBan => a.ip ≤ b.ip) _)
    (List.pairwise_insertionSort _ _)
    (((List.perm_insertionSort _ _).trans missing).trans (List.perm_insertionSort _ _).symm)
  intro a b first second le ge
  rw [List.mem_insertionSort] at first second
  exact List.inj_on_of_nodup_map nodup (inside a (missing.mem_iff.mp first)) (inside b second)
    (le_antisymm le ge)

/-! ## What is missing after a pass -/

/-- How much a server misses depends on the addresses of the union. -/
theorem length_missingFrom_congr {union union' : List SharedBan}
    (same : (union.map SharedBan.ip).Perm (union'.map SharedBan.ip)) (bans : List SharedBan) :
    (missingFrom union bans).length = (missingFrom union' bans).length := by
  have ips : ∀ u : List SharedBan, (missingFrom u bans).length =
      ((u.map SharedBan.ip).filter fun ip => !(bans.any fun b => b.ip == ip)).length := by
    intro u
    rw [List.filter_map, List.length_map]
    rfl
  rw [ips, ips]
  exact (same.filter _).length_eq

/-- The taken part of a list goes and the rest stays. -/
theorem missingFrom_take {l : List SharedBan} {n : Nat} (nodup : (l.map SharedBan.ip).Nodup) :
    missingFrom l (l.take n) = l.drop n := by
  have gone : missingFrom (l.take n) (l.take n) = [] := by
    refine List.filter_eq_nil_iff.mpr fun x mem => ?_
    simpa using ⟨x, mem, rfl⟩
  have stays : missingFrom (l.drop n) (l.take n) = l.drop n := by
    rw [← List.take_append_drop n l, List.map_append, List.nodup_append] at nodup
    refine List.filter_eq_self.mpr fun x mem => ?_
    simp only [Bool.not_eq_true', List.any_eq_false, beq_iff_eq]
    intro b taken same
    exact nodup.2.2 _ (List.mem_map_of_mem taken) _ (List.mem_map_of_mem mem) same
  calc missingFrom l (l.take n)
      = missingFrom (l.take n ++ l.drop n) (l.take n) := by rw [List.take_append_drop]
    _ = missingFrom (l.take n) (l.take n) ++ missingFrom (l.drop n) (l.take n) :=
        List.filter_append ..
    _ = l.drop n := by rw [gone, stays, List.nil_append]

/-- A pass takes up to a hundred of the missing addresses. -/
theorem length_missingFrom_additions {union bans : List SharedBan}
    (nodup : (union.map SharedBan.ip).Nodup) :
    (missingFrom union (bans ++ additions union bans)).length =
      (missingFrom union bans).length - 100 := by
  generalize sorted : (missingFrom union bans).insertionSort (fun a b => a.ip ≤ b.ip) = l
  have perm : l.Perm (missingFrom union bans) := sorted ▸ List.perm_insertionSort _ _
  have ips : (l.map SharedBan.ip).Nodup := by
    rw [(perm.map _).nodup_iff]
    exact nodup.sublist (List.filter_sublist.map _)
  have taken : additions union bans = l.take 100 := by
    rw [additions, sorted]
  have left : missingFrom union (bans ++ additions union bans) =
      missingFrom (missingFrom union bans) (l.take 100) := by
    rw [taken, missingFrom, missingFrom, missingFrom, List.filter_filter]
    refine List.filter_congr fun u _ => ?_
    rw [List.any_append, Bool.not_or, Bool.and_comm]
  have resorted : (missingFrom (missingFrom union bans) (l.take 100)).Perm
      (missingFrom l (l.take 100)) := perm.symm.filter _
  rw [left, resorted.length_eq, missingFrom_take ips, List.length_drop, perm.length_eq]

/-! ## Many passes -/

/-- A pass brings no address to the fleet that was not there. -/
theorem lists_pass (distinct : (fleet.map Prod.fst).Nodup) {ip : String} :
    (∃ s ∈ pass fleet, Lists s.2 ip) ↔ ∃ s ∈ fleet, Lists s.2 ip := by
  rw [pass_eq distinct]
  constructor
  · rintro ⟨s', member', b, listed, rfl⟩
    obtain ⟨s, member, rfl⟩ := List.mem_map.mp member'
    obtain old | added := List.mem_append.mp listed
    · exact ⟨s, member, b, old, rfl⟩
    · exact lists_unionBans.mp ⟨b, (mem_additions added).1, rfl⟩
  · rintro ⟨s, member, b, listed, rfl⟩
    exact ⟨_, List.mem_map_of_mem member, b, List.mem_append_left _ listed, rfl⟩

theorem unionBans_pass (distinct : (fleet.map Prod.fst).Nodup) :
    ((unionBans (pass fleet)).map SharedBan.ip).Perm ((unionBans fleet).map SharedBan.ip) := by
  rw [List.perm_ext_iff_of_nodup (isUnion_unionBans _).nodup (isUnion_unionBans _).nodup]
  intro ip
  have same : Lists (unionBans (pass fleet)) ip ↔ Lists (unionBans fleet) ip := by
    rw [lists_unionBans, lists_unionBans, lists_pass distinct]
  simpa only [List.mem_map, Lists] using same

/-- No server misses more than `n` addresses of the union. -/
def Misses (n : Nat) (fleet : List (String × List SharedBan)) : Prop :=
  ∀ s ∈ fleet, (missingFrom (unionBans fleet) s.2).length ≤ n

theorem Misses.pass {n : Nat} (h : Misses n fleet) (distinct : (fleet.map Prod.fst).Nodup) :
    Misses (n - 100) (pass fleet) := by
  intro s' member'
  rw [pass_eq distinct] at member'
  obtain ⟨s, member, rfl⟩ := List.mem_map.mp member'
  rw [length_missingFrom_congr (unionBans_pass distinct),
    length_missingFrom_additions (isUnion_unionBans fleet).nodup]
  exact Nat.sub_le_sub_right (h s member) 100

theorem misses_mostMissing (fleet : List (String × List SharedBan)) :
    Misses (mostMissing fleet) fleet :=
  fun _ member => le_foldr_max (List.mem_map_of_mem member)

/-- What `n` passes keep and what they achieve. -/
theorem iterate_pass (distinct : (fleet.map Prod.fst).Nodup) (n : Nat) :
    (pass^[n] fleet).map Prod.fst = fleet.map Prod.fst ∧
      (∀ ip, (∃ s ∈ pass^[n] fleet, Lists s.2 ip) ↔ ∃ s ∈ fleet, Lists s.2 ip) ∧
      Misses (mostMissing fleet - 100 * n) (pass^[n] fleet) := by
  induction n with
  | zero => exact ⟨rfl, fun _ => Iff.rfl, misses_mostMissing fleet⟩
  | succ n ih =>
      obtain ⟨keys, lists, misses⟩ := ih
      have apart : ((pass^[n] fleet).map Prod.fst).Nodup := keys ▸ distinct
      rw [Function.iterate_succ_apply']
      refine ⟨(pass_keys _).trans keys, fun ip => (lists_pass apart).trans (lists ip), ?_⟩
      have fewer := misses.pass apart
      rwa [Nat.sub_sub, ← Nat.mul_succ] at fewer

end Union

/-- What an entry of the plan for a server is: an address the server does not have, with the
longest duration of the fleet, and permanent if an entry of the fleet is. -/
structure Planned (fleet : List (String × List SharedBan)) (bans : List SharedBan)
    (x : SharedBan) : Prop where
  new : ¬ Lists bans x.ip
  attained : ∃ s ∈ fleet, ∃ b ∈ s.2, b.ip = x.ip ∧ b.mins = x.mins
  longest : ∀ s ∈ fleet, ∀ b ∈ s.2, b.ip = x.ip → b.mins ≤ x.mins
  perm : x.perm = true ↔ ∃ s ∈ fleet, ∃ b ∈ s.2, b.ip = x.ip ∧ b.perm = true

theorem planned_of_mem_additions {fleet : List (String × List SharedBan)} {bans : List SharedBan}
    {x : SharedBan} (mem : x ∈ additions (unionBans fleet) bans) : Planned fleet bans x := by
  obtain ⟨there, new⟩ := mem_additions mem
  have union := isUnion_unionBans fleet
  refine ⟨new, ?_, ?_, ?_, ?_⟩
  · obtain ⟨b, listed, ip, mins⟩ := union.sound x there
    obtain ⟨s, member, listed⟩ := List.mem_flatMap.mp listed
    exact ⟨s, member, b, listed, ip, mins⟩
  · intro s member b listed ip
    obtain ⟨y, there', same, le⟩ := union.complete b (List.mem_flatMap.mpr ⟨s, member, listed⟩)
    obtain rfl := List.inj_on_of_nodup_map union.nodup there' there (same.trans ip)
    exact le
  · intro isPerm
    obtain ⟨b, listed, ip, isPerm⟩ := union.perm x there isPerm
    obtain ⟨s, member, listed⟩ := List.mem_flatMap.mp listed
    exact ⟨s, member, b, listed, ip, isPerm⟩
  · rintro ⟨s, member, b, listed, ip, isPerm⟩
    exact perm_of_mem_foldl_raise _ x there b (List.mem_flatMap.mpr ⟨s, member, listed⟩) ip isPerm

/-- For every fleet with distinct keys: after as many passes as the largest number of missing
addresses needs, by the hundred, nothing is planned for any server, and every server bans just
the addresses of the first union; and in every pass what is planned for a server is new to it
and has the longest duration of the fleet. -/
theorem fleet_converges (fleet : List (String × List SharedBan))
    (distinct : (fleet.map Prod.fst).Nodup) :
    (∀ e ∈ planFleetAdditions (pass^[(mostMissing fleet + 99) / 100] fleet), e.2 = []) ∧
    (pass^[(mostMissing fleet + 99) / 100] fleet).map Prod.fst = fleet.map Prod.fst ∧
    (∀ s ∈ pass^[(mostMissing fleet + 99) / 100] fleet, ∀ ip,
      Lists s.2 ip ↔ ∃ t ∈ fleet, Lists t.2 ip) ∧
    ∀ n, ∀ s ∈ pass^[n] fleet, ∀ e ∈ planFleetAdditions (pass^[n] fleet), e.1 = s.1 →
      ∀ x ∈ e.2, Planned (pass^[n] fleet) s.2 x := by
  obtain ⟨keys, lists, misses⟩ := iterate_pass distinct ((mostMissing fleet + 99) / 100)
  have none_ : mostMissing fleet - 100 * ((mostMissing fleet + 99) / 100) = 0 := by omega
  rw [none_] at misses
  have nothing : ∀ s ∈ pass^[(mostMissing fleet + 99) / 100] fleet,
      missingFrom (unionBans (pass^[(mostMissing fleet + 99) / 100] fleet)) s.2 = [] :=
    fun s member => List.eq_nil_of_length_eq_zero (Nat.le_zero.mp (misses s member))
  refine ⟨?_, keys, ?_, ?_⟩
  · intro e planned
    rw [planFleetAdditions_eq] at planned
    obtain ⟨s, member, rfl⟩ := List.mem_map.mp planned
    rw [additions, nothing s member]
    rfl
  · intro s member ip
    rw [← lists ip]
    refine ⟨fun listed => ⟨s, member, listed⟩, fun known => ?_⟩
    obtain ⟨x, there, rfl⟩ := lists_unionBans.mpr known
    by_contra new
    have missing := mem_missingFrom.mpr ⟨there, new⟩
    rw [nothing s member] at missing
    cases missing
  · intro n s member e planned key x mem
    have apart : ((pass^[n] fleet).map Prod.fst).Nodup :=
      (iterate_pass distinct n).1 ▸ distinct
    rw [planFleetAdditions_eq] at planned
    obtain ⟨t, member', rfl⟩ := List.mem_map.mp planned
    obtain rfl := List.inj_on_of_nodup_map apart member' member key
    exact planned_of_mem_additions mem

/-- One server with 150 bans, two of them on one address, and one with none. -/
def unevenFleet : List (String × List SharedBan) :=
  [("hetzner:1", ⟨"192.0.2.1", 30, true⟩ ::
      (List.range 149).map fun i => ⟨"192.0.2." ++ toString i, 60, false⟩), ("linode:2", [])]

/-- The addresses of `unevenFleet`, each once. -/
theorem ips_unevenFleet : ((unionBans unevenFleet).map SharedBan.ip).Perm
    ((List.range 149).map fun i => "192.0.2." ++ toString i) := by
  have distinct : ((List.range 149).map fun i => "192.0.2." ++ toString i).Nodup := by
    refine List.nodup_range.map fun i j same => ?_
    exact Nat.repr_injective ((String.append_right_inj _).mp same)
  rw [List.perm_ext_iff_of_nodup (isUnion_unionBans _).nodup distinct]
  intro ip
  have first : "192.0.2.1" ∈ (List.range 149).map fun i => "192.0.2." ++ toString i :=
    List.mem_map.mpr ⟨1, List.mem_range.mpr (by omega), by decide⟩
  have union : ip ∈ (unionBans unevenFleet).map SharedBan.ip ↔
      Lists (unionBans unevenFleet) ip := by
    rw [List.mem_map, Lists]
  rw [union, lists_unionBans]
  constructor
  · rintro ⟨s, member, b, listed, rfl⟩
    obtain rfl | empty := List.mem_cons.mp member
    · obtain rfl | rest := List.mem_cons.mp listed
      · exact first
      · obtain ⟨i, small, rfl⟩ := List.mem_map.mp rest
        exact List.mem_map_of_mem small
    · cases List.mem_singleton.mp empty
      cases listed
  · intro mem
    obtain ⟨i, small, rfl⟩ := List.mem_map.mp mem
    exact ⟨_, List.mem_cons_self, _, List.mem_cons_of_mem _ (List.mem_map_of_mem small), rfl⟩

theorem mostMissing_unevenFleet : mostMissing unevenFleet = 149 := by
  have full : ∀ bans, (∀ x ∈ unionBans unevenFleet, Lists bans x.ip) →
      missingFrom (unionBans unevenFleet) bans = [] := by
    intro bans all
    refine List.eq_nil_iff_forall_not_mem.mpr fun x mem => ?_
    obtain ⟨there, new⟩ := mem_missingFrom.mp mem
    exact new (all x there)
  have none_ : missingFrom (unionBans unevenFleet) [] = unionBans unevenFleet :=
    List.filter_eq_self.mpr fun _ _ => rfl
  have length : (unionBans unevenFleet).length = 149 := by
    have same := ips_unevenFleet.length_eq
    rwa [List.length_map, List.length_map, List.length_range] at same
  have first : missingFrom (unionBans unevenFleet) (⟨"192.0.2.1", 30, true⟩ ::
      (List.range 149).map fun i => ⟨"192.0.2." ++ toString i, 60, false⟩) = [] := by
    refine full _ fun x there => ?_
    obtain ⟨s, member, listed⟩ := lists_unionBans.mp ⟨x, there, rfl⟩
    obtain rfl | empty := List.mem_cons.mp member
    · exact listed
    · cases List.mem_singleton.mp empty
      obtain ⟨b, nothing, -⟩ := listed
      cases nothing
  rw [mostMissing]
  nth_rewrite 2 [unevenFleet]
  rw [List.map_cons, List.map_singleton, List.foldr_cons, List.foldr_cons, List.foldr_nil,
    first, none_, length]
  rfl

theorem fleet_converges_uneven :
    (mostMissing unevenFleet + 99) / 100 = 2 ∧
      ∀ e ∈ planFleetAdditions (pass^[2] unevenFleet), e.2 = [] := by
  have converges := fleet_converges unevenFleet (by decide)
  rw [mostMissing_unevenFleet] at converges
  exact ⟨by rw [mostMissing_unevenFleet], converges.1⟩

end Sentinel.Servers
