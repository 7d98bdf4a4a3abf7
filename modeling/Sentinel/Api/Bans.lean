import Sentinel.Api.Monitor
import Sentinel.Api.Requests

/-!
# An operator's ban

Requests of all routes run interleaved, statement by statement. `maybe_autoban` sets a ban
with an end by the same upsert as an operator's ban without one, and it does so several
statements after its request was let through. A permanent ban therefore stays as long as no
request that its guard admitted before the ban performs that upsert after it;
`lateAutoban_lifts` is the run where one does.
-/

namespace Sentinel.Api

open Atomic Handler Relational

/-- The address is banned. -/
def Db.Bans (db : Db) (addr : Ip) : Prop :=
  ∃ b, db.bannedIps.find? addr = some b ∧ b.bannedUntil.all (fun t => decide (db.clock < t)) = true

/-- The address is banned without an end. -/
def Db.BansForever (db : Db) (addr : Ip) : Prop :=
  ∃ b, db.bannedIps.find? addr = some b ∧ b.bannedUntil = none

instance (db : Db) (addr : Ip) : Decidable (db.Bans addr) :=
  decidable_of_iff ((db.bannedIps.find? addr).any
      (fun b => b.bannedUntil.all fun t => decide (db.clock < t)) = true) <| by
    unfold Db.Bans
    cases db.bannedIps.find? addr <;> simp

theorem Db.BansForever.bans {db : Db} {addr : Ip} (h : db.BansForever addr) : db.Bans addr := by
  obtain ⟨b, found, endless⟩ := h
  exact ⟨b, found, by rw [endless]; rfl⟩

theorem isBanned_iff {env : Env} {db : Db} {addr : Ip} :
    (Stmt.exec env (.isBanned addr) db).1 = .ok true ↔ db.Bans addr := by
  simp only [Stmt.exec, Except.ok.injEq, List.any_eq_true, Bool.and_eq_true, decide_eq_true_eq]
  constructor
  · rintro ⟨b, mem, rfl, lasts⟩
    exact ⟨b, Table.find?_of_mem mem, lasts⟩
  · rintro ⟨b, found, lasts⟩
    exact ⟨b, Table.mem_of_find? found, Table.key_of_find? found, lasts⟩

namespace Stmt

/-- The bans of the other addresses stay. -/
theorem exec_find?_bannedIps {env : Env} {q : Stmt} {addr : Ip} (h : q.operatesOn addr = false)
    (h' : q.autobans addr = false) (db : Db) :
    (exec env q db).2.bannedIps.find? addr = db.bannedIps.find? addr := by
  have written : ∀ ip reason bannedUntil, ip ≠ addr →
      (db.banned ip reason bannedUntil).bannedIps.find? addr = db.bannedIps.find? addr := by
    intro ip reason bannedUntil other
    rw [Db.banned, Table.find?_insertOr, if_neg other]
  cases q with
  | autoban ip reason mins =>
      simp only [exec]
      split
      · exact written _ _ _ (of_decide_eq_false h')
      · rfl
  | banFor ip mins =>
      simp only [exec]
      split
      · exact written _ _ _ (of_decide_eq_false h)
      · rfl
  | banForever ip => exact written _ _ _ (of_decide_eq_false h)
  | unban ip =>
      have other : ip ≠ addr := of_decide_eq_false h
      simp only [exec, Table.find?_deleteWhere]
      cases found : db.bannedIps.find? addr with
      | none => rfl
      | some b =>
          have key : b.ip = addr := Table.key_of_find? found
          simp [key, other.symm]
  | _ => first
    | rfl
    | (simp only [exec, Db.upsertAccount, Db.addAccount]
       split <;> first | rfl | (split <;> rfl))

end Stmt

section Run

variable {ι : Type} (env : Env)

/-- The guard of the request has found the address free. -/
def Admitted (h : List (Event ι Stmt Db)) (i : ι) (addr : Ip) : Prop :=
  ∃ e ∈ h, e.thread = i ∧ e.q = .isBanned addr ∧ ¬ e.before.Bans addr

variable {env} {target : Option Ip} {h h' : List (Event ι Stmt Db)} {i : ι} {addr : Ip}

theorem Admitted.append (admitted : Admitted h i addr) : Admitted (h ++ h') i addr := by
  obtain ⟨e, mem, own, reads, free⟩ := admitted
  exact ⟨e, List.mem_append_left _ mem, own, reads, free⟩

/-- What ties the phases of the requests to the history. -/
structure BanInvariant (h : List (Event ι Stmt Db)) (ph : ι → BanPhase) : Prop where
  passed : ∀ i addr, (ph i).address = some addr → Admitted h i addr
  autobans : ∀ past (e : Event ι Stmt Db) rest, h = past ++ e :: rest →
    ∀ addr, e.q.autobans addr = true →
    Admitted past e.thread addr

theorem BanInvariant.step [DecidableEq ι] {ph : ι → BanPhase} {x : Db} {q : Stmt} {b : BanPhase}
    (inv : BanInvariant h ph) (step : BanStep env target (ph i) q (Stmt.exec env q x).1 b) :
    BanInvariant (h ++ [⟨i, q, x⟩]) (Function.update ph i b) := by
  have next : (∀ addr, b.address = some addr → Admitted (h ++ [⟨i, q, x⟩]) i addr) ∧
      ∀ addr, q.autobans addr = true → Admitted h i addr := by
    have old : ∀ addr, (ph i).address = some addr → Admitted h i addr := inv.passed i
    generalize ph i = a at step old
    generalize result : (Stmt.exec env q x).1 = res at step
    cases step with
    | quiet a q res other calm =>
        refine ⟨fun addr passed => (old addr passed).append, fun addr bans => ?_⟩
        cases q <;> first | cases bans | cases other
    | operate addr q res about operates =>
        refine ⟨fun addr passed => (by cases passed), fun addr bans => ?_⟩
        cases q <;> first | cases bans | cases operates
    | block addr => exact ⟨fun addr passed => (by cases passed), fun addr bans => (by cases bans)⟩
    | pass addr res free =>
        refine ⟨fun addr' passed => ?_, fun addr' bans => (by cases bans)⟩
        cases passed
        refine ⟨⟨i, .isBanned addr, x⟩, by simp, rfl, rfl, fun bans => free ?_⟩
        rw [← result]
        exact isBanned_iff.mpr bans
    | report addr account kind detail res attempt =>
        exact ⟨fun addr' passed => (old addr' passed).append, fun addr' bans => (by cases bans)⟩
    | few a addr res from_ below =>
        refine ⟨fun addr' passed => ?_, fun addr' bans => (by cases bans)⟩
        cases passed
        exact (old addr (by rcases from_ with rfl | rfl <;> rfl)).append
    | count a addr fails from_ reached =>
        refine ⟨fun addr' passed => ?_, fun addr' bans => (by cases bans)⟩
        cases passed
        exact (old addr (by rcases from_ with rfl | rfl <;> rfl)).append
    | owner addr fails =>
        exact ⟨fun addr' passed => (old addr' passed).append, fun addr' bans => (by cases bans)⟩
    | noOwner addr fails res unseen =>
        exact ⟨fun addr' passed => (old addr' passed).append, fun addr' bans => (by cases bans)⟩
    | note addr ip detail res =>
        exact ⟨fun addr' passed => (old addr' passed).append, fun addr' bans => (by cases bans)⟩
    | ban addr fails res =>
        refine ⟨fun addr' passed => (old addr' passed).append, fun addr' bans => ?_⟩
        have same : addr = addr' := of_decide_eq_true bans
        exact old addr' (congrArg some same)
  constructor
  · intro j addr passed
    by_cases same : j = i
    · subst same
      rw [Function.update_self] at passed
      exact next.1 addr passed
    · rw [Function.update_of_ne same] at passed
      exact (inv.passed j addr passed).append
  · intro past e rest cut addr bans
    rcases List.eq_nil_or_concat' rest with rfl | ⟨rest', f, rfl⟩
    · obtain ⟨rfl, last⟩ := List.append_inj' cut rfl
      cases last
      exact next.2 addr bans
    · rw [← List.cons_append, ← List.append_assoc] at cut
      obtain ⟨rfl, -⟩ := List.append_inj' cut rfl
      exact inv.autobans past e rest' rfl addr bans

theorem exec_banForever (e : Event ι Stmt Db) (bans : e.q = .banForever addr) :
    (Stmt.exec env e.q e.before).2.BansForever addr := by
  rw [bans]
  simp only [Stmt.exec, Db.BansForever, Db.banned, Table.find?_insertOr, if_true]
  refine ⟨_, rfl, ?_⟩
  cases e.before.bannedIps.find? addr <;> rfl

variable [DecidableEq ι]

/-- An automatic ban comes from a request that found its address free. -/
theorem autobans_admitted (db : Db) (reqs : ι → Request) (ls : List (Label ι Nat))
    {past rest : List (Event ι Stmt Db)} {e : Event ι Stmt Db}
    (cut : history env db (routed env reqs) ls = past ++ e :: rest)
    (bans : e.q.autobans addr = true) : Admitted past e.thread addr := by
  obtain ⟨ph, -, inv⟩ := serve_phases env db (routed env reqs) (δ := fun i => BanStep env ((reqs i).target env))
    (I := fun h ph _ => BanInvariant h ph)
    (fun h ph x i q b step inv => inv.step step) (fun _ _ _ _ inv => inv)
    (fun i => handle_bans env (reqs i))
    ⟨fun i addr passed => (by cases passed), fun past e rest cut => (by simp at cut)⟩ ls
  exact inv.autobans past e rest cut addr bans

/-- A permanent ban stays where no statement writes the address's row. -/
theorem bansForever_since {db : Db} {requests : ι → Handler Response} {ls : List (Label ι Nat)}
    {past rest : List (Event ι Stmt Db)} {e : Event ι Stmt Db}
    (cut : history env db requests ls = past ++ e :: rest) (bans : e.q = .banForever addr)
    (unchanged : ∀ f ∈ rest, f.q.operatesOn addr = false)
    (none_ : ∀ f ∈ rest, f.q.autobans addr = false) :
    (∀ f ∈ rest, f.before.BansForever addr) ∧
      (serve env db requests ls).shared.BansForever addr := by
  refine history_since cut (J := fun x => x.BansForever addr) (fun n x lasting => lasting)
    (exec_banForever e bans) fun f mem x lasting => ?_
  unfold Db.BansForever
  rw [Stmt.exec_find?_bannedIps (unchanged f mem) (none_ f mem)]
  exact lasting

/-- On every schedule of any requests: after an operator's permanent ban of an address, and
until the next statement by which an operator bans the address or lifts its ban, the address
is banned, provided that no request admitted before the ban sets its automatic ban after. -/
theorem permanentBan_stays (env : Env) (db : Db) (reqs : ι → Request) (ls : List (Label ι Nat))
    (addr : Ip) (past rest : List (Event ι Stmt Db)) (e : Event ι Stmt Db)
    (cut : history env db (routed env reqs) ls = past ++ e :: rest) (bans : e.q = .banForever addr)
    (unchanged : ∀ f ∈ rest, f.q.operatesOn addr = false)
    (settled : ∀ f ∈ rest, f.q.autobans addr = true → ¬ Admitted past f.thread addr) :
    (∀ f ∈ rest, f.before.Bans addr) ∧ (serve env db (routed env reqs) ls).shared.Bans addr := by
  -- no request can have come through its guard since the ban, so none sets an automatic one
  have none_ : ∀ pre post, rest = pre ++ post → ∀ f ∈ pre, f.q.autobans addr = false := by
    intro pre
    induction pre using List.reverseRecOn with
    | nil => simp
    | append_singleton pre f ih =>
        intro post split_
        rw [List.append_assoc, List.singleton_append] at split_
        have before := ih (f :: post) split_
        refine List.forall_mem_append.mpr ⟨before, List.forall_mem_singleton.mpr ?_⟩
        by_contra autobans
        rw [Bool.not_eq_false] at autobans
        have cut' : history env db (routed env reqs) ls = (past ++ e :: pre) ++ f :: post := by
          rw [cut, split_, List.append_assoc, List.cons_append]
        obtain ⟨g, mem, own, reads, free⟩ := autobans_admitted db reqs ls cut' autobans
        rw [List.mem_append, List.mem_cons] at mem
        obtain earlier | rfl | since := mem
        · have later : f ∈ rest := by rw [split_]; simp
          exact settled f later autobans ⟨g, earlier, own, reads, free⟩
        · rw [bans] at reads
          cases reads
        · obtain ⟨ls', -, -, -, short, -, -⟩ := Pool.exists_cut _ _ _ ls cut'
          have lasting := (bansForever_since short bans
            (fun f mem => unchanged f (by rw [split_]; simp [mem])) before).1 g since
          exact free lasting.bans
  obtain ⟨before, now⟩ := bansForever_since cut bans unchanged
    (none_ rest [] (List.append_nil rest).symm)
  exact ⟨fun f mem => (before f mem).bans, now.bans⟩

end Run

/-- A history around one of its events. -/
theorem history_around {α : Type} {h : List α} {n : Nat} {e : α} (at_ : h[n]? = some e) :
    h = h.take n ++ e :: h.drop (n + 1) := by
  obtain ⟨inside, rfl⟩ := List.getElem?_eq_some_iff.mp at_
  rw [List.getElem_cons_drop, List.take_append_drop]

/-- A server with a bootstrap token that bans after one failure for an hour; the only address
it can parse is `::1`. -/
def strictServer : Env :=
  { Env.bare with
    bootstrapToken := some "right", autobanThreshold := 1
    parseIp := fun s => if s = "::1" then some 1 else none }

/-- The device of the operator, signed in. -/
def operatorDb : Db :=
  { accounts := ownAccounts, devices := ownDesktop
    issued := [{ sub := 10, dev := 11, iat := 0, exp := 600, tok := .access }] }

/-- Wrong bootstrap tokens from `::1`, and the operator's ban of `::1`. -/
def attackAndBan : Fin 3 → Request
  | 1 => .securityBan (some { sub := 10, dev := 11, iat := 0, exp := 600, tok := .access }) "::1" none
  | _ => .authBootstrap ⟨none, some "::1"⟩ ⟨"wrong", ⟨"pc", "linux"⟩⟩

local instance neZeroAttacks : NeZero 3 := ⟨by decide⟩

/-- The first attack has ended before the ban and the second begins after it; then two hours
pass. -/
def banAfterwards : List (Label (Fin 3) Nat) :=
  List.replicate 7 (Label.thread 0) ++ List.replicate 3 (Label.thread 1) ++
    List.replicate 2 (Label.thread 2) ++ [Label.env 7200000000]

theorem banAfterwards_stays :
    (serve strictServer operatorDb (routed strictServer attackAndBan) banAfterwards).shared.Bans 1 := by
  obtain ⟨e, at_, bans⟩ : ∃ e : Event (Fin 3) Stmt Db, (history strictServer operatorDb
      (routed strictServer attackAndBan) banAfterwards)[9]? = some e ∧ e.q = .banForever 1 :=
    ⟨_, rfl, rfl⟩
  have quiet : ∀ f ∈ (history strictServer operatorDb (routed strictServer attackAndBan)
      banAfterwards).drop 10, f.q.operatesOn 1 = false ∧ f.q.autobans 1 = false := by
    decide +kernel
  refine (permanentBan_stays strictServer operatorDb attackAndBan banAfterwards 1 _ _ e
    (history_around at_) bans (fun f mem => (quiet f mem).1)
    fun f mem sets => ?_).2
  rw [(quiet f mem).2] at sets
  cases sets

/-- The ban comes between the count of the first attack and its own ban. -/
def banBetween : List (Label (Fin 3) Nat) :=
  List.replicate 5 (Label.thread 0) ++ List.replicate 3 (Label.thread 1) ++
    List.replicate 2 (Label.thread 0) ++ [Label.env 7200000000]

/-- Two hours after the permanent ban the address is free. -/
theorem lateAutoban_lifts :
    (∃ (past rest : List (Event (Fin 3) Stmt Db)) (e : Event (Fin 3) Stmt Db),
        history strictServer operatorDb (routed strictServer attackAndBan) banBetween =
          past ++ e :: rest ∧ e.q = .banForever 1 ∧ ∀ f ∈ rest, f.q.operatesOn 1 = false) ∧
      ¬ (serve strictServer operatorDb (routed strictServer attackAndBan)
        banBetween).shared.Bans 1 := by
  refine ⟨?_, by decide +kernel⟩
  obtain ⟨e, at_, bans⟩ : ∃ e : Event (Fin 3) Stmt Db, (history strictServer operatorDb
      (routed strictServer attackAndBan) banBetween)[7]? = some e ∧ e.q = .banForever 1 :=
    ⟨_, rfl, rfl⟩
  refine ⟨_, _, e, history_around at_, bans, ?_⟩
  decide +kernel

end Sentinel.Api
