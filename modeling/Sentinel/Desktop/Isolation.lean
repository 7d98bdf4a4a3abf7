import Sentinel.Desktop.Runs
import Sentinel.Lib.Ranking

/-!
# What a page learns of other items

Two vaults with the same items for an origin answer the requests of that origin alike, whatever
else they hold. The store lists items by their time and, within one time, as they were first
stored, so this order belongs to what the vaults have to share.
-/

namespace Sentinel.Desktop

open Vault Atomic Ranking Relational

/-- The origin that a search, a request for fields or a request for a code names. -/
def askedOrigin (env : NmEnvelope) : Option String :=
  match env.kind with
  | .vaultSearch =>
      (payloadOf VaultSearchRequest.parse env).toOption.map VaultSearchRequest.origin
  | .vaultFieldsGet =>
      (payloadOf VaultFieldsGetRequest.parse env).toOption.map VaultFieldsGetRequest.origin
  | .vaultTotpGet => (payloadOf TotpGetRequest.parse env).toOption.map TotpGetRequest.origin
  | _ => none

section Views

variable (c : HostSuite) (vk : Key) (origin : String)

def openRow (r : ItemRow) : Option Item := (openItem c.toCrypto vk.bytes r.envelope).toOption

/-- An item that matches the origin, with the id and the time it is stored under. -/
def matchingRow (r : ItemRow) : Option (ItemId × Int × Item) :=
  (openRow c vk r).bind fun it =>
    if originMatches c.parseUrl it.urls origin then some (r.id, r.updatedAt, it) else none

/-- The items of the origin, in the order they were first stored. -/
def matchingRows (v : LocalVault) : List (ItemId × Int × Item) :=
  v.items.rows.filterMap (matchingRow c vk origin)

/-- Two vaults with the same ids in which all items open, and that agree on the items of the
origin and their times. -/
structure AgreeOn (v₁ v₂ : LocalVault) : Prop where
  ids : ∀ id, (v₁.items.find? id).isSome = (v₂.items.find? id).isSome
  opens₁ : ∀ id r, v₁.items.find? id = some r → ∃ it, openRow c vk r = some it
  opens₂ : ∀ id r, v₂.items.find? id = some r → ∃ it, openRow c vk r = some it
  items : ∀ id r₁ r₂ it₁ it₂, v₁.items.find? id = some r₁ → v₂.items.find? id = some r₂ →
    openRow c vk r₁ = some it₁ → openRow c vk r₂ = some it₂ →
    originMatches c.parseUrl it₁.urls origin = true ∨
      originMatches c.parseUrl it₂.urls origin = true →
    it₁ = it₂ ∧ r₁.updatedAt = r₂.updatedAt

/-- Items of the origin with the same time were first stored in the same order. -/
def SameOrder (v₁ v₂ : LocalVault) : Prop :=
  ∀ a b, a.2.1 = b.2.1 → [a, b].Sublist (matchingRows c vk origin v₁) →
    [a, b].Sublist (matchingRows c vk origin v₂)

variable {c vk origin}

theorem matchingRow_eq_some {r : ItemRow} {x : ItemId × Int × Item} :
    matchingRow c vk origin r = some x ↔ ∃ it, openRow c vk r = some it ∧
      originMatches c.parseUrl it.urls origin = true ∧ x = (r.id, r.updatedAt, it) := by
  rw [matchingRow, Option.bind_eq_some_iff]
  refine exists_congr fun it => and_congr_right fun _ => ?_
  by_cases here : originMatches c.parseUrl it.urls origin = true
  · rw [if_pos here]
    simp [here, eq_comm]
  · rw [if_neg here]
    simp [here]

theorem nodup_matchingRows (v : LocalVault) : (matchingRows c vk origin v).Nodup := by
  have distinct : v.items.rows.Pairwise fun r₁ r₂ => r₁.id ≠ r₂.id :=
    List.pairwise_map.mp v.items.nodup
  refine distinct.filterMap _ fun r₁ r₂ other x₁ first x₂ second same => ?_
  obtain ⟨it₁, -, -, rfl⟩ := matchingRow_eq_some.mp first
  obtain ⟨it₂, -, -, rfl⟩ := matchingRow_eq_some.mp second
  exact other (congrArg Prod.fst same)

/-- An item of the origin in one vault is one in the other. -/
theorem AgreeOn.mem {v₁ v₂ : LocalVault} (agree : AgreeOn c vk origin v₁ v₂)
    {x : ItemId × Int × Item} (mem : x ∈ matchingRows c vk origin v₁) :
    x ∈ matchingRows c vk origin v₂ := by
  obtain ⟨r₁, row₁, found⟩ := List.mem_filterMap.mp mem
  obtain ⟨it₁, open₁, here, rfl⟩ := matchingRow_eq_some.mp found
  have find₁ := Table.find?_of_mem row₁
  have some₂ := agree.ids r₁.id
  rw [find₁] at some₂
  obtain ⟨r₂, find₂⟩ := Option.isSome_iff_exists.mp some₂.symm
  obtain ⟨it₂, open₂⟩ := agree.opens₂ _ _ find₂
  obtain ⟨rfl, time⟩ := agree.items _ _ _ _ _ find₁ find₂ open₁ open₂ (.inl here)
  refine List.mem_filterMap.mpr ⟨r₂, Table.mem_of_find? find₂, matchingRow_eq_some.mpr ?_⟩
  exact ⟨it₁, open₂, here, by rw [Table.key_of_find? find₂, time]⟩

theorem AgreeOn.symm {v₁ v₂ : LocalVault} (agree : AgreeOn c vk origin v₁ v₂) :
    AgreeOn c vk origin v₂ v₁ where
  ids id := (agree.ids id).symm
  opens₁ := agree.opens₂
  opens₂ := agree.opens₁
  items id r₁ r₂ it₁ it₂ find₁ find₂ open₁ open₂ either := by
    obtain ⟨item, time⟩ := agree.items id r₂ r₁ it₂ it₁ find₂ find₁ open₂ open₁ either.symm
    exact ⟨item.symm, time.symm⟩

/-! ## The search -/

/-- The items of the origin, as the store lists them. -/
def matchingList (c : HostSuite) (vk : Key) (origin : String) (v : LocalVault) :
    List (ItemId × Int × Item) :=
  (v.items.rows.insertionSort fun a b => b.updatedAt ≤ a.updatedAt).filterMap
    (matchingRow c vk origin)

theorem opened_filter (w : World) :
    (opened c vk w).filter (fun it => originMatches c.parseUrl it.urls origin) =
      (matchingList c vk origin w.vault).map fun x => x.2.2 := by
  rw [opened, LocalVault.listEnvelopes, matchingList, List.filterMap_map, List.filter_filterMap,
    List.map_filterMap]
  refine List.filterMap_congr fun r _ => ?_
  change (openRow c vk r).filter _ = ((openRow c vk r).bind _).map _
  cases openRow c vk r with
  | none => rfl
  | some it => by_cases here : originMatches c.parseUrl it.urls origin = true <;> simp [here]

theorem matchingRow_time (r : ItemRow) (x : ItemId × Int × Item)
    (found : matchingRow c vk origin r = some x) : x.2.1 = r.updatedAt := by
  obtain ⟨it, -, -, rfl⟩ := matchingRow_eq_some.mp found
  rfl

/-- The list is determined by what the vaults share. -/
theorem matchingList_eq {v₁ v₂ : LocalVault} (agree : AgreeOn c vk origin v₁ v₂)
    (order : SameOrder c vk origin v₁ v₂) :
    matchingList c vk origin v₁ = matchingList c vk origin v₂ := by
  have sorted : ∀ v, (matchingList c vk origin v).Pairwise fun a b => b.2.1 ≤ a.2.1 := by
    intro v
    have rows := @pairwise_insertionSort_desc _ _ _ ItemRow.updatedAt v.items.rows
    refine rows.filterMap _ fun r₁ r₂ le x₁ first x₂ second => ?_
    rw [matchingRow_time r₁ x₁ first, matchingRow_time r₂ x₂ second]
    exact le
  have levels : ∀ v k, level (fun x : ItemId × Int × Item => x.2.1) k (matchingList c vk origin v) =
      level (fun x => x.2.1) k (matchingRows c vk origin v) := by
    intro v k
    rw [matchingList, matchingRows, level_filterMap matchingRow_time,
      level_filterMap matchingRow_time]
    exact congrArg _ (level_insertionSort k)
  refine eq_of_levels (sorted v₁) (sorted v₂) fun k => ?_
  rw [levels, levels]
  refine eq_of_same_order ((nodup_matchingRows v₁).filter _) ((nodup_matchingRows v₂).filter _) ?_ ?_
  · intro a
    rw [mem_level, mem_level]
    exact and_congr_left fun _ => ⟨agree.mem, agree.symm.mem⟩
  · intro a b sub
    obtain ⟨memA, timeA⟩ := mem_level.mp (sub.mem List.mem_cons_self)
    obtain ⟨memB, timeB⟩ := mem_level.mp (sub.mem (List.mem_cons_of_mem _ List.mem_cons_self))
    have moved := order a b (timeA.trans timeB.symm) (sub.trans List.filter_sublist)
    have kept := moved.filter fun x => decide (x.2.1 = k)
    rwa [List.filter_cons, if_pos (decide_eq_true timeA), List.filter_cons,
      if_pos (decide_eq_true timeB), List.filter_nil] at kept

end Views

/-! ## Answers -/

section Answers

variable {c : HostSuite} {vk : Key} {env : NmEnvelope} {origin : String} {w₁ w₂ : World}

theorem ok_of_toOption {ε α : Type} {x : Except ε α} {a : α} (value : x.toOption = some a) :
    x = .ok a := by
  cases x <;> cases value
  rfl

@[simp] theorem answer_pure {α : Type} (a : α) (os : List Outcome) (w : World) :
    (observe (pure a) os w).answer = some (.ok a) := by
  cases os <;> rfl

theorem answer_sys_cons {α : Type} (q : Stmt) (f : q.Result → Command α) (o : Outcome)
    (os : List Outcome) (w : World) : (observe (sys q >>= f) (o :: os) w).answer =
      (observe (f (exec q o w).1) os (exec q o w).2).answer := rfl

/-- A program that only reads the clock answers alike everywhere. -/
theorem answer_of_clock {α : Type} {p : Command α} (clock : p.Uses fun q => q = .clock)
    (os : List Outcome) : (observe p os w₁).answer = (observe p os w₂).answer := by
  induction p generalizing os with
  | done r => cases os <;> rfl
  | stmt q k ih =>
      obtain ⟨rfl, later⟩ := clock
      cases os with
      | nil => rfl
      | cons o os => exact ih _ (later _) os

theorem itemTotpCode_clock (item : Item) : (itemTotpCode c item).Uses fun q => q = .clock := by
  rw [itemTotpCode]
  cases item.login.bind Login.totp with
  | none => trivial
  | some uri =>
      simp only
      cases TotpSecret.parse c.toTotpEngine uri with
      | error e => trivial
      | ok secret => exact Routine.Uses.bind (Routine.Uses.call rfl) fun _ => trivial

theorem releasedFields_clock (item : Item) (names : List String) (out : List (String × Json)) :
    (releasedFields c item names out).Uses fun q => q = .clock := by
  fun_induction releasedFields c item names out with
  | case1 out => trivial
  | case2 rest out ih => exact ih
  | case3 rest out ih => exact ih
  | case4 rest out ih => exact (itemTotpCode_clock item).bind ih
  | case5 _ _ _ _ _ _ ih => exact ih

/-- What `lookup` finds in a vault. -/
def lookedUp (c : HostSuite) (vk : Key) (v : LocalVault) (uid : ItemId) :
    Except (NmErrorCode × String) Item :=
  match v.get uid with
  | none => .error (.notFound, "no such item")
  | some stored => (openItem c.toCrypto vk.bytes stored).mapError fun _ => (.internal, "decrypt failed")

theorem answer_lookup (f : Except (NmErrorCode × String) Item → Command NmEnvelope) (id : String)
    (os : List Outcome) (w : World) : (observe (lookup c vk id >>= f) os w).answer =
      match c.parseUuid id, os with
      | none, os => (observe (f (.error (.badRequest, "bad item id"))) os w).answer
      | some _, [] => none
      | some uid, _ :: os => (observe (f (lookedUp c vk w.vault uid)) os w).answer := by
  rw [lookup]
  cases c.parseUuid id with
  | none => rfl
  | some uid =>
      cases os with
      | nil => rfl
      | cons o os =>
          dsimp only
          have read : exec (.vaultGet uid) o w = (w.vault.get uid, w) := rfl
          rw [Routine.bind_assoc, answer_sys_cons, read, lookedUp]
          cases w.vault.get uid <;> rfl

/-- Two vaults that agree find nothing, or an item each, which is the same if one of them
matches the origin. -/
theorem AgreeOn.lookedUp {v₁ v₂ : LocalVault} (agree : AgreeOn c vk origin v₁ v₂) (uid : ItemId) :
    (∃ e, Desktop.lookedUp c vk v₁ uid = .error e ∧ Desktop.lookedUp c vk v₂ uid = .error e) ∨
      ∃ it₁ it₂, Desktop.lookedUp c vk v₁ uid = .ok it₁ ∧ Desktop.lookedUp c vk v₂ uid = .ok it₂ ∧
        (originMatches c.parseUrl it₁.urls origin = true ∨
          originMatches c.parseUrl it₂.urls origin = true → it₁ = it₂) := by
  have read : ∀ {v : LocalVault} {r it}, v.items.find? uid = some r → openRow c vk r = some it →
      Desktop.lookedUp c vk v uid = .ok it := by
    intro v r it found opened_
    rw [Desktop.lookedUp, LocalVault.get, found, Option.map_some]
    rw [openRow] at opened_
    dsimp only
    cases value : openItem c.toCrypto vk.bytes r.envelope with
    | error e =>
        rw [value] at opened_
        cases opened_
    | ok it' =>
        rw [value] at opened_
        cases opened_
        rfl
  have same := agree.ids uid
  cases find₁ : v₁.items.find? uid with
  | none =>
      rw [find₁] at same
      have find₂ : v₂.items.find? uid = none := Option.not_isSome_iff_eq_none.mp (by simp [← same])
      refine .inl ⟨(.notFound, "no such item"), ?_, ?_⟩
      · rw [Desktop.lookedUp, LocalVault.get, find₁]
        rfl
      · rw [Desktop.lookedUp, LocalVault.get, find₂]
        rfl
  | some r₁ =>
      rw [find₁] at same
      obtain ⟨r₂, find₂⟩ := Option.isSome_iff_exists.mp same.symm
      obtain ⟨it₁, open₁⟩ := agree.opens₁ _ _ find₁
      obtain ⟨it₂, open₂⟩ := agree.opens₂ _ _ find₂
      refine .inr ⟨it₁, it₂, read find₁ open₁, read find₂ open₂, fun either => ?_⟩
      exact (agree.items _ _ _ _ _ find₁ find₂ open₁ open₂ either).1

/-- A request that gates the item it looks up by the origin, and then only reads the clock,
answers alike. -/
theorem gated_answers (agree : AgreeOn c vk origin w₁.vault w₂.vault) (id : String)
    (release : Item → Command NmEnvelope) (clock : ∀ it, (release it).Uses fun q => q = .clock)
    (os : List Outcome) :
    let program : Command NmEnvelope := lookup c vk id >>= fun found =>
      match found with
      | .error e => pure (errorReply env e.1 e.2)
      | .ok item =>
          if originMatches c.parseUrl item.urls origin then release item
          else pure (errorReply env .badOrigin "origin does not match this item")
    (observe program os w₁).answer = (observe program os w₂).answer := by
  intro program
  rw [answer_lookup, answer_lookup]
  cases c.parseUuid id with
  | none => simp only [answer_pure]
  | some uid =>
      cases os with
      | nil => rfl
      | cons o os =>
          dsimp only
          obtain ⟨e, first, second⟩ | ⟨it₁, it₂, first, second, same⟩ := agree.lookedUp uid
          · rw [first, second]
            simp only [answer_pure]
          · rw [first, second]
            dsimp only
            by_cases here : originMatches c.parseUrl it₁.urls origin = true
            · rw [← same (.inl here), if_pos here]
              exact answer_of_clock (clock it₁) os
            · have there : ¬ originMatches c.parseUrl it₂.urls origin = true := fun there =>
                here (same (.inr there) ▸ there)
              rw [if_neg here, if_neg there, answer_pure, answer_pure]

theorem search_answers {req : VaultSearchRequest}
    (agree : AgreeOn c vk req.origin w₁.vault w₂.vault)
    (order : SameOrder c vk req.origin w₁.vault w₂.vault)
    (parsed : payloadOf VaultSearchRequest.parse env = .ok req) (os : List Outcome) :
    (observe (search c vk env) os w₁).answer = (observe (search c vk env) os w₂).answer := by
  have found : searchItems c (opened c vk w₁) req = searchItems c (opened c vk w₂) req := by
    rw [searchItems, searchItems, opened_filter, opened_filter, matchingList_eq agree order]
  rw [search, parsed]
  dsimp only
  rw [loadItems, Routine.bind_assoc]
  cases os with
  | nil => rfl
  | cons o os =>
      have read : ∀ w, exec .listEnvelopes o w = (w.vault.listEnvelopes, w) := fun _ => rfl
      rw [answer_sys_cons, answer_sys_cons, read, read]
      change (observe (pure (okReply env.id .vaultSearch (.object [("items", .array
        ((searchItems c (opened c vk w₁) req).zipIdx.map fun hit =>
          searchResult req.origin hit.2 hit.1))]))) os w₁).answer = _
      rw [found, answer_pure]
      exact (answer_pure _ os w₂).symm

theorem fields_answers {req : VaultFieldsGetRequest}
    (agree : AgreeOn c vk req.origin w₁.vault w₂.vault)
    (parsed : payloadOf VaultFieldsGetRequest.parse env = .ok req) (os : List Outcome) :
    (observe (fields c vk env) os w₁).answer = (observe (fields c vk env) os w₂).answer := by
  rw [fields, parsed]
  refine gated_answers agree req.id (fun item => do
    let out ← releasedFields c item req.fields []
    pure (okReply env.id .vaultFieldsGet (.object [("fields", .object out)]))) (fun it => ?_) os
  exact (releasedFields_clock it req.fields []).bind fun _ => trivial

theorem totp_answers {req : TotpGetRequest}
    (agree : AgreeOn c vk req.origin w₁.vault w₂.vault)
    (parsed : payloadOf TotpGetRequest.parse env = .ok req) (os : List Outcome) :
    (observe (totp c vk env) os w₁).answer = (observe (totp c vk env) os w₂).answer := by
  rw [totp, parsed]
  refine gated_answers agree req.id _ (fun it => ?_) os
  refine (itemTotpCode_clock it).bind fun code => ?_
  cases code <;> trivial

end Answers

/-- A host answers a request of an origin from the items of this origin alone, and their order in
the store; and without a key it answers `LOCKED`, with no payload. -/
theorem answers_agree (c : HostSuite) :
    (∀ (vk : Key) (env : NmEnvelope) (origin : String) (w₁ w₂ : World),
      askedOrigin env = some origin → AgreeOn c vk origin w₁.vault w₂.vault →
      (env.kind = .vaultSearch → SameOrder c vk origin w₁.vault w₂.vault) →
      ∀ os, (observe (handle c (some vk) env) os w₁).answer =
        (observe (handle c (some vk) env) os w₂).answer) ∧
    ∀ (env : NmEnvelope) (w : World) (os : List Outcome),
      env.kind = .vaultSearch ∨ env.kind = .vaultFieldsGet ∨ env.kind = .vaultTotpGet →
        ∃ reply, (observe (handle c none env) os w).answer = some (.ok reply) ∧
          reply.IsLocked ∧ reply.payload = none := by
  constructor
  · intro vk env origin w₁ w₂ asked agree order os
    unfold askedOrigin at asked
    rw [handle]
    cases kind : env.kind with
    | vaultSearch =>
        rw [kind] at asked order
        obtain ⟨req, parsed, rfl⟩ := Option.map_eq_some_iff.mp asked
        exact search_answers agree (order rfl) (ok_of_toOption parsed) os
    | vaultFieldsGet =>
        rw [kind] at asked
        obtain ⟨req, parsed, rfl⟩ := Option.map_eq_some_iff.mp asked
        exact fields_answers agree (ok_of_toOption parsed) os
    | vaultTotpGet =>
        rw [kind] at asked
        obtain ⟨req, parsed, rfl⟩ := Option.map_eq_some_iff.mp asked
        exact totp_answers agree (ok_of_toOption parsed) os
    | _ =>
        rw [kind] at asked
        cases asked
  · intro env w os kind
    have asks : env.kind.asksCredential = true := by
      obtain kind | kind | kind := kind <;> rw [kind] <;> rfl
    rw [handle_none asks]
    exact ⟨NmEnvelope.locked env.id, answer_pure _ os w, rfl, rfl⟩

/-! ## The order of one time -/

/-- Items with different times have the same order everywhere. -/
theorem SameOrder.of_times {c : HostSuite} {vk : Key} {origin : String} {v₁ v₂ : LocalVault}
    (times : ∀ a ∈ matchingRows c vk origin v₁, ∀ b ∈ matchingRows c vk origin v₁,
      a.2.1 = b.2.1 → a = b) : SameOrder c vk origin v₁ v₂ := by
  intro a b same sub
  have equal := times a (sub.mem List.mem_cons_self) b
    (sub.mem (List.mem_cons_of_mem _ List.mem_cons_self)) same
  subst equal
  exact absurd sub (not_sublist_swap (nodup_matchingRows v₁) sub)

/-- Vaults with the same rows in another order agree. -/
theorem AgreeOn.of_perm {c : HostSuite} {vk : Key} {origin : String} {v₁ v₂ : LocalVault}
    (perm : v₁.items.rows.Perm v₂.items.rows)
    (opens : ∀ r ∈ v₁.items.rows, ∃ it, openRow c vk r = some it) :
    AgreeOn c vk origin v₁ v₂ := by
  have same : ∀ id, v₁.items.find? id = v₂.items.find? id := by
    intro id
    refine Option.ext fun r => ?_
    rw [Table.find?_eq_some_iff, Table.find?_eq_some_iff, perm.mem_iff]
  refine ⟨fun id => by rw [same], ?_, ?_, ?_⟩
  · exact fun id r found => opens r (Table.mem_of_find? found)
  · exact fun id r found => opens r (perm.mem_iff.mpr (Table.mem_of_find? found))
  · intro id r₁ r₂ it₁ it₂ found₁ found₂ open₁ open₂ _
    rw [same, found₂] at found₁
    cases found₁
    rw [open₁] at open₂
    cases open₂
    exact ⟨rfl, rfl⟩

/-- Rows of one id that open, to the same item and time if one of them matches the origin. -/
def RowsAgree (c : HostSuite) (vk : Key) (origin : String) (r₁ r₂ : ItemRow) : Prop :=
  r₁.id = r₂.id ∧ ∃ it₁ it₂, openRow c vk r₁ = some it₁ ∧ openRow c vk r₂ = some it₂ ∧
    (originMatches c.parseUrl it₁.urls origin = true ∨
      originMatches c.parseUrl it₂.urls origin = true → it₁ = it₂ ∧ r₁.updatedAt = r₂.updatedAt)

/-- Rows that agree position by position are found alike. -/
theorem find?_of_forall₂ {c : HostSuite} {vk : Key} {origin : String} {l₁ l₂ : List ItemRow}
    (rows : List.Forall₂ (RowsAgree c vk origin) l₁ l₂) (id : ItemId) :
    Option.Rel (RowsAgree c vk origin) (l₁.find? fun r => decide (r.id = id))
      (l₂.find? fun r => decide (r.id = id)) := by
  induction rows with
  | nil => exact .none
  | @cons r₁ r₂ _ _ here _ ih =>
      rw [List.find?_cons, List.find?_cons, ← here.1]
      by_cases own : r₁.id = id
      · simpa [own] using Option.Rel.some here
      · simpa [own] using ih

theorem AgreeOn.of_forall₂ {c : HostSuite} {vk : Key} {origin : String} {v₁ v₂ : LocalVault}
    (rows : List.Forall₂ (RowsAgree c vk origin) v₁.items.rows v₂.items.rows) :
    AgreeOn c vk origin v₁ v₂ := by
  have pair : ∀ id, Option.Rel (RowsAgree c vk origin) (v₁.items.find? id) (v₂.items.find? id) :=
    find?_of_forall₂ rows
  constructor
  · intro id
    have agree := pair id
    generalize v₁.items.find? id = first, v₂.items.find? id = second at agree
    cases agree <;> rfl
  · intro id r found
    have agree := pair id
    rw [found] at agree
    generalize v₂.items.find? id = second at agree
    cases agree with
    | some here =>
        obtain ⟨-, it, -, opens, -⟩ := here
        exact ⟨it, opens⟩
  · intro id r found
    have agree := pair id
    rw [found] at agree
    generalize v₁.items.find? id = first at agree
    cases agree with
    | some here =>
        obtain ⟨-, -, it, -, opens, -⟩ := here
        exact ⟨it, opens⟩
  · intro id r₁ r₂ it₁ it₂ found₁ found₂ open₁ open₂ either
    have agree := pair id
    rw [found₁, found₂] at agree
    cases agree with
    | some here =>
        obtain ⟨-, it₁', it₂', open₁', open₂', same⟩ := here
        rw [open₁] at open₁'
        rw [open₂] at open₂'
        cases open₁'
        cases open₂'
        exact same either

def twinId (n : UInt8) : ItemId := ⟨List.replicate 16 n, by simp⟩

/-- Two logins of one time. -/
def twinItem (n : UInt8) (title : String) : Item :=
  { newLogin (twinId n) title 0 with urls := [⟨"https://example.com", .domain⟩] }

/-- A login of another origin. -/
def strangerItem (title : String) : Item :=
  { newLogin (twinId 3) title 0 with urls := [⟨"https://other.org", .domain⟩] }

def loginJson (id title url : String) : Bytes :=
  Api.utf8 ("\x7b\"id\":\"" ++ id ++ "\",\"type\":\"login\",\"title\":\"" ++ title ++
    "\",\"tags\":[],\"urls\":[\x7b\"url\":\"" ++ url ++ "\",\"mode\":\"domain\"\x7d]," ++
    "\"custom_fields\":[],\"login\":\x7b\x7d,\"created_at\":0,\"updated_at\":0," ++
    "\"password_changed_at\":0\x7d")

def twinJsonA : Bytes :=
  loginJson "01010101-0101-0101-0101-010101010101" "a" "https://example.com"

def twinJsonB : Bytes :=
  loginJson "02020202-0202-0202-0202-020202020202" "b" "https://example.com"

def strangerJson (title : String) : Bytes :=
  loginJson "03030303-0303-0303-0303-030303030303" title "https://other.org"

def twinSuite : HostSuite :=
  Records.hostSuite { items :=
    [(twinItem 1 "a", twinJsonA), (twinItem 2 "b", twinJsonB),
     (strangerItem "x", strangerJson "x"), (strangerItem "y", strangerJson "y")] }

def twinEnvelope (n : UInt8) (json : Bytes) : ItemEnvelope :=
  ⟨itemHeader (twinId n) 0 ++ (nonceOf 5).bytes ++
    twinSuite.aeadSeal [] (itemHeader (twinId n) 0) (nonceOf 5) json⟩

def storing (envs : List ItemEnvelope) : World :=
  { freshComputer.world with
    vault := envs.foldl (fun vault env => (vault.upsert env).toOption.getD vault) .empty }

def twinWorld : World := storing [twinEnvelope 1 twinJsonA, twinEnvelope 2 twinJsonB]

def twinWorld' : World := storing [twinEnvelope 2 twinJsonB, twinEnvelope 1 twinJsonA]

def twinSearch : NmEnvelope where
  id := "1"
  kind := .vaultSearch
  payload := some (.object [("query", .string ""), ("origin", .string "https://example.com")])

def strangerWorld (title : String) : World :=
  storing [twinEnvelope 1 twinJsonA, twinEnvelope 3 (strangerJson title)]

/-- What a row holds once it is opened. -/
def rowView (r : ItemRow) : ItemId × Int × Option Item :=
  (r.id, r.updatedAt, openRow twinSuite sampleKey r)

theorem strangerWorld_rows (title : String) (known : title = "x" ∨ title = "y") :
    ∃ first second, (strangerWorld title).vault.items.rows = [first, second] ∧
      rowView first = (twinId 1, 0, some (twinItem 1 "a")) ∧
      rowView second = (twinId 3, 0, some (strangerItem title)) := by
  have views : (strangerWorld title).vault.items.rows.map rowView =
      [(twinId 1, 0, some (twinItem 1 "a")), (twinId 3, 0, some (strangerItem title))] := by
    obtain rfl | rfl := known <;> decide +kernel
  obtain ⟨first, rest, rows, view, views⟩ := List.map_eq_cons_iff.mp views
  obtain ⟨second, more, rfl, view', views⟩ := List.map_eq_cons_iff.mp views
  cases List.map_eq_nil_iff.mp views
  exact ⟨first, second, rows, view, view'⟩

theorem strangers_agree : AgreeOn twinSuite sampleKey "https://example.com"
    (strangerWorld "x").vault (strangerWorld "y").vault := by
  obtain ⟨a, x, rows, viewA, viewX⟩ := strangerWorld_rows "x" (.inl rfl)
  obtain ⟨a', y, rows', viewA', viewY⟩ := strangerWorld_rows "y" (.inr rfl)
  simp only [rowView, Prod.mk.injEq] at viewA viewX viewA' viewY
  refine AgreeOn.of_forall₂ ?_
  rw [rows, rows']
  refine .cons ⟨viewA.1.trans viewA'.1.symm, _, _, viewA.2.2, viewA'.2.2, fun _ => ?_⟩
    (.cons ⟨viewX.1.trans viewY.1.symm, _, _, viewX.2.2, viewY.2.2, fun either => ?_⟩ .nil)
  · exact ⟨rfl, viewA.2.1.trans viewA'.2.1.symm⟩
  · -- the other origin matches neither
    exact absurd either (by decide)

theorem strangers_matchingRows : matchingRows twinSuite sampleKey "https://example.com"
    (strangerWorld "x").vault = [(twinId 1, 0, twinItem 1 "a")] := by
  decide +kernel

/-- Vaults that differ in an item of another origin answer a search alike. -/
theorem answers_agree_stranger :
    strangerItem "x" ≠ strangerItem "y" ∧
    (observe (handle twinSuite (some sampleKey) twinSearch) fineOutcomes
        (strangerWorld "x")).answer =
      (observe (handle twinSuite (some sampleKey) twinSearch) fineOutcomes
        (strangerWorld "y")).answer := by
  have order : SameOrder twinSuite sampleKey "https://example.com" (strangerWorld "x").vault
      (strangerWorld "y").vault := by
    refine SameOrder.of_times fun a memA b memB _ => ?_
    rw [strangers_matchingRows, List.mem_singleton] at memA memB
    rw [memA, memB]
  exact ⟨by decide, (answers_agree twinSuite).1 sampleKey twinSearch "https://example.com" _ _ rfl
    strangers_agree (fun _ => order) fineOutcomes⟩

/-- The first id that a search finds. -/
def firstId (answer : Option (Except Failure NmEnvelope)) : Option String :=
  match answer with
  | some (.ok { payload := some (.object [("items", .array (.object (_ :: (_, .string id) :: _) :: _))]), .. }) =>
      some id
  | _ => none

/-- A search without a query finds the listed items of the origin. -/
theorem twinSearch_finds {w : World} {x y : Item} (listed : opened twinSuite sampleKey w = [x, y])
    (here : originMatches twinSuite.parseUrl x.urls "https://example.com" = true)
    (there : originMatches twinSuite.parseUrl y.urls "https://example.com" = true)
    (urls : x.urls ≠ []) (time : y.updatedAt ≤ x.updatedAt) :
    firstId (observe (handle twinSuite (some sampleKey) twinSearch) fineOutcomes w).answer =
      some (uuidText x.id) := by
  have empty : twinSuite.lowercase (Api.trim "") = "" := by decide +kernel
  have found : searchItems twinSuite (opened twinSuite sampleKey w)
      ⟨"", "https://example.com"⟩ = [x, y] := by
    rw [listed, searchItems, List.filter_cons, if_pos here, List.filter_cons, if_pos there,
      List.filter_nil, List.mergeSort_of_pairwise (List.pairwise_pair.mpr (decide_eq_true time))]
    simp [empty]
  obtain ⟨u, us, first⟩ := List.exists_cons_of_ne_nil urls
  change firstId (some (.ok (okReply "1" .vaultSearch (.object [("items", .array
    ((searchItems twinSuite (opened twinSuite sampleKey w) ⟨"", "https://example.com"⟩).zipIdx.map
      fun hit => searchResult "https://example.com" hit.2 hit.1))])))) = _
  rw [found]
  change firstId (some (.ok (okReply "1" .vaultSearch (.object [("items", .array
    [searchResult "https://example.com" 0 x, searchResult "https://example.com" 1 y])])))) = _
  rw [searchResult, first]
  rfl

/-- Two vaults with the same items, stored in another order, answer a search in another order. -/
theorem twins_differ : ¬ ∀ (c : HostSuite) (vk : Key) (env : NmEnvelope) (origin : String)
    (w₁ w₂ : World), askedOrigin env = some origin → AgreeOn c vk origin w₁.vault w₂.vault →
    ∀ os, (observe (handle c (some vk) env) os w₁).answer =
      (observe (handle c (some vk) env) os w₂).answer := by
  intro alike
  have rows : twinWorld.vault.items.rows.Perm twinWorld'.vault.items.rows := by decide +kernel
  have opens : ∀ r ∈ twinWorld.vault.items.rows, ∃ it, openRow twinSuite sampleKey r = some it := by
    have all : (twinWorld.vault.items.rows.all fun r => (openRow twinSuite sampleKey r).isSome) =
        true := by decide +kernel
    exact fun r mem => Option.isSome_iff_exists.mp (List.all_eq_true.mp all r mem)
  have same := congrArg firstId (alike twinSuite sampleKey twinSearch "https://example.com" twinWorld
    twinWorld' rfl (AgreeOn.of_perm rows opens) fineOutcomes)
  have listed : opened twinSuite sampleKey twinWorld = [twinItem 1 "a", twinItem 2 "b"] := by
    decide +kernel
  have listed' : opened twinSuite sampleKey twinWorld' = [twinItem 2 "b", twinItem 1 "a"] := by
    decide +kernel
  rw [twinSearch_finds listed (by decide) (by decide) (by decide) le_rfl,
    twinSearch_finds listed' (by decide) (by decide) (by decide) le_rfl] at same
  exact absurd same (by decide +kernel)

end Sentinel.Desktop
