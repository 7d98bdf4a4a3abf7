import Sentinel.Api.Sessions

/-!
# Enrollment codes are used once

Any number of `enroll_code_mint` and `auth_enroll` calls run interleaved, with codes of the
callers' choice, while the clock advances. A code is consumed by one conditional `UPDATE`,
so of all calls that bring it one at most gets the account back, and only that call inserts
a device.

`EnrollPhase` is how far a call has come. `EnrollInvariant` ties the phases to the table: a
call that has redeemed a code stands for its used row, two calls never for the same, and
every row was inserted on behalf of a device that is approved.
-/

namespace Sentinel.Api

open Atomic Handler Relational

/-- The two calls of the enrollment flow. -/
inductive EnrollCall where
  | mint (caller : Caller) (bearer : Option AccessClaims)
  | enroll (caller : Caller) (req : EnrollReq)

namespace EnrollCall

def handler (env : Env) : EnrollCall → Handler Response
  | mint caller bearer => enrollCodeMint env caller bearer
  | enroll caller req => authEnroll env caller req

/-- The code a call brings, without the blanks around it. -/
def code : EnrollCall → Option String
  | mint .. => none
  | enroll _ req => some (trim req.code)

end EnrollCall

/-- How far a call has come: a mint has found its device approved, an enrollment has got an
account for its code, or has inserted the device. -/
inductive EnrollPhase where
  | start
  | approved
  | redeemed (account : Uuid)
  | created (account : Uuid)
  deriving DecidableEq

/-- The account that the call got for its code. -/
def EnrollPhase.account : EnrollPhase → Option Uuid
  | redeemed account | created account => some account
  | _ => none

namespace Stmt

/-- Statements that write codes or devices. -/
def writesEnrollment : Stmt → Bool
  | .insertEnrollCode .. | .consumeEnrollCode _ => true
  | q => q.writesDevices

theorem exec_enrollCodes {env : Env} {q : Stmt} (h : q.writesEnrollment = false) (db : Db) :
    (exec env q db).2.enrollCodes = db.enrollCodes := by
  cases q <;> first
    | rfl
    | cases h; done
    | (simp only [exec, Db.upsertAccount, Db.addAccount]; split <;> first | rfl | (split <;> rfl))

theorem writesDevices_of_writesEnrollment {q : Stmt} (h : q.writesEnrollment = false) :
    q.writesDevices = false := by
  cases q <;> first | rfl | cases h

end Stmt

/-- What one statement of a call can be, phase by phase. -/
inductive EnrollStep (env : Env) (call : EnrollCall) :
    EnrollPhase → (q : Stmt) → Except SqlError q.Result → EnrollPhase → Prop
  | quiet (a : EnrollPhase) (q : Stmt) (res : Except SqlError q.Result)
      (spares : q.writesEnrollment = false) : EnrollStep env call a q res a
  | approve {caller : Caller} {claims : AccessClaims}
      (minting : call = .mint caller (some claims)) :
      EnrollStep env call .start (.deviceStatus claims.dev) (.ok (some .approved)) .approved
  | insert {caller : Caller} {claims : AccessClaims} {code : String}
      (minting : call = .mint caller (some claims))
      (res : Except SqlError Time) :
      EnrollStep env call .approved (.insertEnrollCode claims.sub (hashRefresh env code)) res
        .approved
  | redeem {code : String} {account : Uuid} (brings : call.code = some code) :
      EnrollStep env call .start (.consumeEnrollCode (hashRefresh env code)) (.ok (some account))
        (.redeemed account)
  | refused {code : String} {res : Except SqlError (Option Uuid)} (brings : call.code = some code)
      (nothing : ∀ account, res ≠ .ok (some account)) :
      EnrollStep env call .start (.consumeEnrollCode (hashRefresh env code)) res .start
  | create {account : Uuid} {name : String} {platform : Platform} (device : Uuid) :
      EnrollStep env call (.redeemed account) (.insertDevice account name platform .approved)
        (.ok device) (.created account)
  | failed {account : Uuid} {name : String} {platform : Platform} (e : SqlError) :
      EnrollStep env call (.redeemed account) (.insertDevice account name platform .approved)
        (.error e) (.redeemed account)

section Follows

variable {env : Env} {call : EnrollCall} {a : EnrollPhase} {α β : Type}

/-- A block that writes neither codes nor devices. -/
theorem follows_passed (post : α → Prop) {h : Handler α} {f : α → Handler β}
    (within : h.Within (fun q => q.writesEnrollment = false) post)
    (rest : ∀ x, post x → (f x).Follows (EnrollStep env call) (fun _ _ => True) a) :
    (h >>= f).Follows (EnrollStep env call) (fun _ _ => True) a := by
  rw [follows_bind]
  exact within.follows (fun q res spares => .quiet a q res spares) rest fun _ => trivial

theorem follows_of_passed (post : α → Prop) {h : Handler α}
    (within : h.Within (fun q => q.writesEnrollment = false) post) :
    h.Follows (EnrollStep env call) (fun _ _ => True) a :=
  within.follows (fun q res spares => .quiet a q res spares) (fun _ _ => trivial) fun _ => trivial

theorem writesEnrollment_of_isMonitor {q : Stmt} (h : q.isMonitor = true) :
    q.writesEnrollment = false := by
  cases q <;> first | rfl | cases h

theorem writesEnrollment_of_isTokenCheck {q : Stmt} (h : q.isTokenCheck = true) :
    q.writesEnrollment = false := by
  cases q <;> first | rfl | cases h

theorem signIn_followsEnroll (account : Uuid) (name : String) (platform : Platform)
    (ip detail : String) :
    (signIn env account name platform ip detail).Follows (EnrollStep env call) (fun _ _ => True)
      (.redeemed account) := by
  rw [signIn, follows_bind, follows_sql]
  refine ⟨fun device => ⟨_, .create device, ?_⟩, fun e => ⟨_, .failed e, trivial⟩⟩
  rw [follows_andThen_ok]
  refine follows_of_passed (fun _ => True) ?_
  simp only [mintSession, nowSecs, issueAccess, issue, mintRefresh, record, within_bind, within_sql,
    within_sqlIgnore, within_pure]
  simp [Stmt.writesEnrollment, Stmt.writesDevices]

theorem authEnroll_follows (caller : Caller) (req : EnrollReq) :
    (authEnroll env caller req).Follows (EnrollStep env (.enroll caller req)) (fun _ _ => True)
      .start := by
  refine follows_passed _ ((guard_within env caller .authEnroll 10 60).mono
    (fun _ => writesEnrollment_of_isMonitor) fun _ h => h) fun ip _ => ?_
  refine follows_passed (fun _ => True) ?_ fun platform _ => ?_
  · unfold validDevice
    split <;> simp
  rw [follows_bind, follows_sql]
  refine ⟨fun account => ?_, fun e => ⟨_, .refused rfl (by simp), trivial⟩⟩
  cases account with
  | none =>
      refine ⟨.start, .refused rfl (by simp), ?_⟩
      rw [follows_andThen_ok]
      refine follows_of_passed (fun _ => True) ?_
      simp only [record, within_bind, within_sqlIgnore]
      exact ⟨rfl, (maybeAutoban_within env ip).mono (fun _ => writesEnrollment_of_isMonitor)
        fun _ _ => (within_throw _).mpr trivial⟩
  | some account => exact ⟨_, .redeem rfl, signIn_followsEnroll account _ platform ip "enroll"⟩

theorem enrollCodeMint_follows (caller : Caller) (bearer : Option AccessClaims) :
    (enrollCodeMint env caller bearer).Follows (EnrollStep env (.mint caller bearer))
      (fun _ _ => True) .start := by
  refine follows_passed _ ((verifyWithKind_within bearer .access).mono
    (fun _ => writesEnrollment_of_isTokenCheck) fun _ h => h) ?_
  rintro auth ⟨claims, rfl, -, rfl⟩
  have later : ∀ b : EnrollPhase, b = .approved →
      (do rateLimit env caller (.enrollMint claims.sub) 10 3600
          let minted ← mintRefresh env
          let expires ← sql (.insertEnrollCode claims.sub minted.hash)
          pure (Response.enrollCode minted.token (unixTimestamp expires)) :
            Handler Response).Follows (EnrollStep env (.mint caller (some claims)))
        (fun _ _ => True) b := by
    rintro b rfl
    refine follows_passed (fun _ => True) ?_ fun _ _ => ?_
    · simp [rateLimit, Stmt.writesEnrollment, Stmt.writesDevices]
    refine follows_passed (fun m => m.hash = hashRefresh env m.token) ?_ fun minted own => ?_
    · simp [mintRefresh, Stmt.writesEnrollment, Stmt.writesDevices]
    rw [own, follows_bind, follows_sql]
    exact ⟨fun expires => ⟨_, .insert rfl _, trivial⟩, fun e => ⟨_, .insert rfl _, trivial⟩⟩
  simp only [requireApprovedDevice, follows_bind, follows_sql]
  refine ⟨fun status => ?_, fun e => ⟨.start, .quiet _ _ _ rfl, trivial⟩⟩
  by_cases approved : status = some .approved
  · subst approved
    refine ⟨.approved, .approve rfl, ?_⟩
    simpa [follows_bind] using later .approved rfl
  · refine ⟨.start, .quiet _ _ _ rfl, ?_⟩
    cases status with
    | none => simp
    | some status =>
        have other : ¬ status = .approved := fun same => approved (congrArg some same)
        simp [other]

theorem EnrollCall.follows (env : Env) (call : EnrollCall) :
    (call.handler env).Follows (EnrollStep env call) (fun _ _ => True) .start := by
  cases call with
  | mint caller bearer => exact enrollCodeMint_follows caller bearer
  | enroll caller req => exact authEnroll_follows caller req

end Follows

section Run

variable {ι : Type} (env : Env) (calls : ι → EnrollCall)

/-- The event stores a code for an account, on behalf of a device that is approved. -/
def Mints (e : Event ι Stmt Db) (account : Uuid) (code : String) : Prop :=
  e.q = .insertEnrollCode account (hashRefresh env code) ∧
  (∃ expires, (Stmt.exec env (.insertEnrollCode account (hashRefresh env code)) e.before).1 =
    .ok expires) ∧
  ∃ caller claims row, calls e.thread = .mint caller (some claims) ∧ claims.sub = account ∧
    e.before.devices.find? claims.dev = some row ∧ row.status = .approved

/-- The event inserts an approved device. -/
def Creates (e : Event ι Stmt Db) (account device : Uuid) : Prop :=
  ∃ name platform, e.q = .insertDevice account name platform .approved ∧
    (Stmt.exec env (.insertDevice account name platform .approved) e.before).1 = .ok device

/-- The event gets an account for a code. -/
def Accepts (e : Event ι Stmt Db) (hash : Bytes) (account : Uuid) : Prop :=
  e.q = .consumeEnrollCode hash ∧
    (Stmt.exec env (.consumeEnrollCode hash) e.before).1 = .ok (some account)

/-- What single use means for the history of a run. -/
structure SingleUse (h : List (Event ι Stmt Db)) : Prop where
  /-- A device comes from a code that its call brought and that was minted for its account
  by an approved device. -/
  minted : ∀ e ∈ h, ∀ account device, Creates env e account device → ∃ code,
    (calls e.thread).code = some code ∧ ∃ m ∈ h, Mints env calls m account code
  /-- Two devices come from two codes. -/
  distinct : ∀ past mid rest e e', h = past ++ e :: (mid ++ e' :: rest) →
    ∀ account device account' device', Creates env e account device →
      Creates env e' account' device' → (calls e.thread).code ≠ (calls e'.thread).code
  /-- A code is accepted while it is unused and before it expires. -/
  inTime : ∀ e ∈ h, ∀ hash account, Accepts env e hash account →
    ∃ c ∈ e.before.enrollCodes.rows, c.codeHash = hash ∧ c.account = account ∧ c.usedAt = none ∧
      e.before.clock < c.expiresAt

/-- The threads that inserted a device, in order. -/
def creators (h : List (Event ι Stmt Db)) : List ι :=
  h.filterMap fun e =>
    match e.q with
    | .insertDevice account name platform status =>
        match (Stmt.exec env (.insertDevice account name platform status) e.before).1 with
        | .ok _ => some e.thread
        | .error _ => none
    | _ => none

/-- The invariant of a run. -/
structure EnrollInvariant (h : List (Event ι Stmt Db)) (ph : ι → EnrollPhase) (db : Db) : Prop where
  hashes : ∀ c ∈ db.enrollCodes.rows, ∀ c' ∈ db.enrollCodes.rows, c.codeHash = c'.codeHash → c = c'
  stored : ∀ c ∈ db.enrollCodes.rows, ∃ code, c.codeHash = hashRefresh env code ∧
    ∃ m ∈ h, Mints env calls m c.account code
  approved : ∀ i caller claims, ph i = .approved → calls i = .mint caller (some claims) →
    ∃ row, db.devices.find? claims.dev = some row ∧ row.status = .approved
  redeemed : ∀ i account, (ph i).account = some account → ∃ code, (calls i).code = some code ∧
    ∃ c ∈ db.enrollCodes.rows, c.codeHash = hashRefresh env code ∧ c.account = account ∧
      c.usedAt ≠ none
  apart : ∀ i j account account', i ≠ j → (ph i).account = some account →
    (ph j).account = some account' → (calls i).code ≠ (calls j).code
  created : ∀ i ∈ creators env h, ∃ account, ph i = .created account
  once : (creators env h).Nodup
  minted : ∀ e ∈ h, ∀ account device, Creates env e account device → ∃ code,
    (calls e.thread).code = some code ∧ ∃ m ∈ h, Mints env calls m account code

variable {env calls} {h : List (Event ι Stmt Db)} {ph : ι → EnrollPhase} {x : Db}

theorem creators_append (h h' : List (Event ι Stmt Db)) :
    creators env (h ++ h') = creators env h ++ creators env h' := List.filterMap_append

theorem creates_of_mem_creators {e : Event ι Stmt Db} {i : ι} (mem : i ∈ creators env [e]) :
    i = e.thread ∧ e.q.writesDevices = true := by
  obtain ⟨e', mem', eq⟩ := List.mem_filterMap.mp mem
  rw [List.mem_singleton] at mem'
  subst mem'
  split at eq <;> rename_i q
  · split at eq
    · cases eq
      exact ⟨rfl, by rw [q]; rfl⟩
    · cases eq
  · cases eq

theorem mem_creators {e : Event ι Stmt Db} {account device : Uuid}
    (creates : Creates env e account device) : creators env [e] = [e.thread] := by
  obtain ⟨i, q, before⟩ := e
  obtain ⟨name, platform, rfl, ok⟩ := creates
  simp [creators, ok]

/-- What was minted stays minted as the history grows. -/
theorem EnrollInvariant.stored_mono (inv : EnrollInvariant env calls h ph x)
    (e : Event ι Stmt Db) {c : EnrollCode} (mem : c ∈ x.enrollCodes.rows) :
    ∃ code, c.codeHash = hashRefresh env code ∧ ∃ m ∈ h ++ [e], Mints env calls m c.account code := by
  obtain ⟨code, hash, m, there, mints⟩ := inv.stored c mem
  exact ⟨code, hash, m, List.mem_append_left _ there, mints⟩

theorem EnrollInvariant.minted_mono (inv : EnrollInvariant env calls h ph x) {e : Event ι Stmt Db}
    (last : ∀ account device, Creates env e account device → ∃ code,
      (calls e.thread).code = some code ∧ ∃ m ∈ h, Mints env calls m account code) :
    ∀ e' ∈ h ++ [e], ∀ account device, Creates env e' account device → ∃ code,
      (calls e'.thread).code = some code ∧ ∃ m ∈ h ++ [e], Mints env calls m account code := by
  intro e' mem account device creates
  have grown : ∀ {code}, (∃ m ∈ h, Mints env calls m account code) →
      ∃ m ∈ h ++ [e], Mints env calls m account code := by
    rintro code ⟨m, there, mints⟩
    exact ⟨m, List.mem_append_left _ there, mints⟩
  rw [List.mem_append, List.mem_singleton] at mem
  obtain before | rfl := mem
  · obtain ⟨code, brings, minted⟩ := inv.minted e' before account device creates
    exact ⟨code, brings, grown minted⟩
  · obtain ⟨code, brings, minted⟩ := last account device creates
    exact ⟨code, brings, grown minted⟩

theorem accepts_inTime {e : Event ι Stmt Db} {hash : Bytes} {account : Uuid}
    (accepts : Accepts env e hash account) :
    ∃ c ∈ e.before.enrollCodes.rows, c.codeHash = hash ∧ c.account = account ∧ c.usedAt = none ∧
      e.before.clock < c.expiresAt := by
  obtain ⟨-, answer⟩ := accepts
  simp only [Stmt.exec, Except.ok.injEq, Option.map_eq_some_iff] at answer
  obtain ⟨c, found, rfl⟩ := answer
  have fits := List.find?_some found
  simp only [decide_eq_true_eq] at fits
  exact ⟨c, List.mem_of_find?_eq_some found, fits.1, rfl, fits.2⟩

/-- A statement that adds nothing to the codes, the devices or the history's facts. -/
theorem EnrollInvariant.grow (inv : EnrollInvariant env calls h ph x) {e : Event ι Stmt Db}
    {ph' : ι → EnrollPhase} {y : Db} (rows : y.enrollCodes.rows = x.enrollCodes.rows)
    (devices : y.devices = x.devices) (none_ : creators env [e] = [])
    (accounts : ∀ i, (ph' i).account = (ph i).account)
    (kept : ∀ i account, ph i = .created account → ph' i = .created account)
    (approved : ∀ i caller claims, ph' i = .approved → calls i = .mint caller (some claims) →
      ∃ row, x.devices.find? claims.dev = some row ∧ row.status = .approved) :
    EnrollInvariant env calls (h ++ [e]) ph' y where
  hashes := rows ▸ inv.hashes
  stored c mem := inv.stored_mono e (rows ▸ mem)
  approved := devices ▸ approved
  redeemed i account done := by
    rw [accounts] at done
    rw [rows]
    exact inv.redeemed i account done
  apart i j account account' other here there := by
    rw [accounts] at here there
    exact inv.apart i j account account' other here there
  created i mem := by
    rw [creators_append, none_, List.append_nil] at mem
    obtain ⟨account, now⟩ := inv.created i mem
    exact ⟨account, kept i account now⟩
  once := by
    rw [creators_append, none_, List.append_nil]
    exact inv.once
  minted := inv.minted_mono fun account device creates => by
    rw [mem_creators creates] at none_
    cases none_

theorem creators_of_not_writes {e : Event ι Stmt Db} (spares : e.q.writesDevices = false) :
    creators env [e] = [] := by
  rw [List.eq_nil_iff_forall_not_mem]
  intro i mem
  rw [(creates_of_mem_creators mem).2] at spares
  cases spares

/-- Storing a code: its digest is new. -/
theorem exec_insertEnrollCode (env : Env) (account : Uuid) (hash : Bytes) (x : Db) :
    (∃ c : EnrollCode, c.account = account ∧ c.codeHash = hash ∧
      (∀ c' ∈ x.enrollCodes.rows, c'.codeHash ≠ hash) ∧
      (∃ expires, (Stmt.exec env (.insertEnrollCode account hash) x).1 = .ok expires) ∧
      (Stmt.exec env (.insertEnrollCode account hash) x).2.devices = x.devices ∧
      (Stmt.exec env (.insertEnrollCode account hash) x).2.enrollCodes.rows =
        x.enrollCodes.rows ++ [c]) ∨
    (Stmt.exec env (.insertEnrollCode account hash) x).2 = x := by
  simp only [Stmt.exec]
  split <;> rename_i fits
  · split <;> rename_i inserted
    · refine .inl ⟨_, rfl, rfl, ?_, ⟨_, rfl⟩, rfl, Table.rows_of_insert inserted⟩
      simp only [Bool.and_eq_true, Bool.not_eq_true', List.any_eq_false, decide_eq_true_eq] at fits
      exact fits.2
    · exact .inr rfl
  · exact .inr rfl

/-- Consuming a code: its row was open, and no other is touched. -/
theorem exec_consumeEnrollCode {env : Env} {hash : Bytes} {account : Uuid} {x : Db}
    (answer : (Stmt.exec env (.consumeEnrollCode hash) x).1 = .ok (some account)) :
    ∃ c ∈ x.enrollCodes.rows, c.codeHash = hash ∧ c.account = account ∧ c.usedAt = none ∧
      ∃ f : EnrollCode → EnrollCode,
        (Stmt.exec env (.consumeEnrollCode hash) x).2.enrollCodes.rows =
          x.enrollCodes.rows.map f ∧
        (∀ r, (f r).codeHash = r.codeHash ∧ (f r).account = r.account) ∧
        (∀ r, r.usedAt ≠ none → f r = r) ∧ (f c).usedAt ≠ none := by
  simp only [Stmt.exec, Except.ok.injEq, Option.map_eq_some_iff] at answer
  obtain ⟨c, found, rfl⟩ := answer
  have fits := List.find?_some found
  simp only [decide_eq_true_eq] at fits
  refine ⟨c, List.mem_of_find?_eq_some found, fits.1, rfl, fits.2.1, _, rfl, ?_, ?_, ?_⟩
  · intro r
    split <;> exact ⟨rfl, rfl⟩
  · intro r used
    simp [used]
  · simp [fits]

theorem exec_consumeEnrollCode_refused {env : Env} {hash : Bytes} {x : Db}
    (nothing : ∀ account, (Stmt.exec env (.consumeEnrollCode hash) x).1 ≠ .ok (some account)) :
    (Stmt.exec env (.consumeEnrollCode hash) x).2.enrollCodes.rows = x.enrollCodes.rows := by
  simp only [Stmt.exec] at nothing ⊢
  cases found : x.enrollCodes.rows.find? fun c =>
      decide (c.codeHash = hash ∧ c.usedAt = none ∧ x.clock < c.expiresAt) with
  | some c =>
      rw [found] at nothing
      exact absurd rfl (nothing c.account)
  | none =>
      have closed := List.find?_eq_none.mp found
      refine (List.map_congr_left fun c mem => ?_).trans (List.map_id _)
      exact if_neg (closed c mem)

/-- A code is stored. -/
theorem EnrollInvariant.insert (inv : EnrollInvariant env calls h ph x) {i : ι} {caller : Caller}
    {claims : AccessClaims} {code : String} (now : ph i = .approved)
    (minting : calls i = .mint caller (some claims)) :
    EnrollInvariant env calls
      (h ++ [⟨i, .insertEnrollCode claims.sub (hashRefresh env code), x⟩]) ph
      (Stmt.exec env (.insertEnrollCode claims.sub (hashRefresh env code)) x).2 := by
  have none_ : creators env
      [⟨i, .insertEnrollCode claims.sub (hashRefresh env code), x⟩] = [] :=
    creators_of_not_writes rfl
  obtain ⟨c, account, hash, fresh, ok, devices, rows⟩ | same :=
    exec_insertEnrollCode env claims.sub (hashRefresh env code) x
  · have mints : Mints env calls ⟨i, .insertEnrollCode claims.sub (hashRefresh env code), x⟩
        claims.sub code := by
      obtain ⟨row, found, approved⟩ := inv.approved i caller claims now minting
      exact ⟨rfl, ok, caller, claims, row, minting, rfl, found, approved⟩
    refine
      { hashes := ?_, stored := ?_, approved := devices ▸ inv.approved, redeemed := ?_
        apart := inv.apart, created := ?_, once := ?_, minted := ?_ }
    · rw [rows]
      intro a here b there same
      rw [List.mem_append, List.mem_singleton] at here there
      obtain here | rfl := here <;> obtain there | rfl := there
      · exact inv.hashes a here b there same
      · exact absurd (same.trans hash) (fresh a here)
      · exact absurd (same.symm.trans hash) (fresh b there)
      · rfl
    · rw [rows]
      refine List.forall_mem_append.mpr ⟨fun a mem => inv.stored_mono _ mem, ?_⟩
      rw [List.forall_mem_singleton, account]
      exact ⟨code, hash, _, List.mem_append_right _ (List.mem_singleton_self _), mints⟩
    · intro j account' done
      obtain ⟨code', brings, a, mem, rest⟩ := inv.redeemed j account' done
      exact ⟨code', brings, a, rows ▸ List.mem_append_left _ mem, rest⟩
    · rw [creators_append, none_, List.append_nil]
      exact inv.created
    · rw [creators_append, none_, List.append_nil]
      exact inv.once
    · refine inv.minted_mono fun account device creates => ?_
      rw [mem_creators creates] at none_
      cases none_
  · rw [same]
    exact inv.grow rfl rfl none_ (fun _ => rfl) (fun _ _ h => h) inv.approved

theorem find?_insertDevice (env : Env) (account : Uuid) (name : String) (platform : Platform)
    (status : DeviceStatus) {id : Uuid} {row : Device} (found : x.devices.find? id = some row) :
    (Stmt.exec env (.insertDevice account name platform status) x).2.devices.find? id =
      some row := by
  simp only [Stmt.exec]
  split
  · split <;> rename_i inserted
    · have other : x.supply ≠ id := by
        rintro rfl
        rw [Table.insert_eq_none_iff.mpr (by simp [found])] at inserted
        cases inserted
      rw [Table.find?_of_insert inserted, if_neg other, found]
    · exact found
  · exact found

theorem EnrollInvariant.singleUse (inv : EnrollInvariant env calls h ph x) :
    SingleUse env calls h where
  minted := inv.minted
  distinct := by
    rintro past mid rest e e' rfl account device account' device' first second
    have once := inv.once
    have split : creators env (past ++ e :: (mid ++ e' :: rest)) =
        creators env past ++ (e.thread :: (creators env mid ++ (e'.thread :: creators env rest))) := by
      have cons : ∀ (e : Event ι Stmt Db) t, creators env (e :: t) =
          creators env [e] ++ creators env t := fun e t => creators_append [e] t
      rw [creators_append, cons e, creators_append, cons e', mem_creators first,
        mem_creators second]
      rfl
    have here : e.thread ∈ creators env (past ++ e :: (mid ++ e' :: rest)) := by
      rw [split]
      simp
    have there : e'.thread ∈ creators env (past ++ e :: (mid ++ e' :: rest)) := by
      rw [split]
      simp
    have other : e.thread ≠ e'.thread := by
      rw [split] at once
      have tail := (List.nodup_append.mp once).2.1
      rw [List.nodup_cons] at tail
      rintro same
      exact tail.1 (by simp [same])
    obtain ⟨a, done⟩ := inv.created _ here
    obtain ⟨a', done'⟩ := inv.created _ there
    exact inv.apart _ _ a a' other (by rw [done]; rfl) (by rw [done']; rfl)
  inTime e _ hash account accepts := accepts_inTime accepts

variable [DecidableEq ι]

theorem update_account {i : ι} {b : EnrollPhase} (same : b.account = (ph i).account) (j : ι) :
    (Function.update ph i b j).account = (ph j).account := by
  by_cases eq : j = i
  · subst eq
    rw [Function.update_self, same]
  · rw [Function.update_of_ne eq]

/-- A code is redeemed. -/
theorem EnrollInvariant.redeem (inv : EnrollInvariant env calls h ph x) {i : ι} {code : String}
    {account : Uuid} (now : ph i = .start) (brings : (calls i).code = some code)
    (answer : (Stmt.exec env (.consumeEnrollCode (hashRefresh env code)) x).1 =
      .ok (some account)) :
    EnrollInvariant env calls (h ++ [⟨i, .consumeEnrollCode (hashRefresh env code), x⟩])
      (Function.update ph i (.redeemed account))
      (Stmt.exec env (.consumeEnrollCode (hashRefresh env code)) x).2 := by
  have none_ : creators env [⟨i, .consumeEnrollCode (hashRefresh env code), x⟩] = [] :=
    creators_of_not_writes rfl
  obtain ⟨c, mem, hash, own, unused, f, rows, keeps, used, taken⟩ := exec_consumeEnrollCode answer
  -- whoever redeemed before stands for a used row, and this one was not
  have others : ∀ j account', j ≠ i → (ph j).account = some account' →
      (calls i).code ≠ (calls j).code := by
    intro j account' _ done same
    obtain ⟨code', brings', c', mem', hash', -, used'⟩ := inv.redeemed j account' done
    rw [brings, brings', Option.some.injEq] at same
    subst same
    rw [inv.hashes c' mem' c mem (hash'.trans hash.symm)] at used'
    exact used' unused
  refine
    { hashes := ?_, stored := ?_, approved := ?_, redeemed := ?_, apart := ?_, created := ?_
      once := ?_, minted := ?_ }
  · rw [rows]
    intro a here b there same
    obtain ⟨r, row, rfl⟩ := List.mem_map.mp here
    obtain ⟨r', row', rfl⟩ := List.mem_map.mp there
    rw [(keeps r).1, (keeps r').1] at same
    rw [inv.hashes r row r' row' same]
  · rw [rows]
    intro a here
    obtain ⟨r, row, rfl⟩ := List.mem_map.mp here
    rw [(keeps r).1, (keeps r).2]
    exact inv.stored_mono _ row
  · intro j caller claims phase minting
    by_cases eq : j = i
    · subst eq
      rw [Function.update_self] at phase
      cases phase
    · rw [Function.update_of_ne eq] at phase
      exact inv.approved j caller claims phase minting
  · intro j account' done
    rw [rows]
    by_cases eq : j = i
    · subst eq
      rw [Function.update_self] at done
      cases done
      exact ⟨code, brings, f c, List.mem_map_of_mem mem, (keeps c).1.trans hash,
        (keeps c).2.trans own, taken⟩
    · rw [Function.update_of_ne eq] at done
      obtain ⟨code', brings', c', mem', hash', own', used'⟩ := inv.redeemed j account' done
      exact ⟨code', brings', c', used c' used' ▸ List.mem_map_of_mem mem', hash', own', used'⟩
  · intro j k account' account'' other here there
    by_cases left : j = i
    · subst left
      rw [Function.update_of_ne (Ne.symm other)] at there
      exact others k account'' (Ne.symm other) there
    · rw [Function.update_of_ne left] at here
      by_cases right : k = i
      · subst right
        exact (others j account' other here).symm
      · rw [Function.update_of_ne right] at there
        exact inv.apart j k account' account'' other here there
  · intro j done
    rw [creators_append, none_, List.append_nil] at done
    obtain ⟨account', created⟩ := inv.created j done
    have eq : j ≠ i := by
      rintro rfl
      rw [now] at created
      cases created
    exact ⟨account', by rw [Function.update_of_ne eq, created]⟩
  · rw [creators_append, none_, List.append_nil]
    exact inv.once
  · refine inv.minted_mono fun account device creates => ?_
    rw [mem_creators creates] at none_
    cases none_

/-- A device is inserted for a redeemed code. -/
theorem EnrollInvariant.create (inj : Function.Injective (hashRefresh env))
    (inv : EnrollInvariant env calls h ph x) {i : ι} {account device : Uuid} {name : String}
    {platform : Platform} (now : ph i = .redeemed account)
    (answer : (Stmt.exec env (.insertDevice account name platform .approved) x).1 = .ok device) :
    EnrollInvariant env calls (h ++ [⟨i, .insertDevice account name platform .approved, x⟩])
      (Function.update ph i (.created account))
      (Stmt.exec env (.insertDevice account name platform .approved) x).2 := by
  have creates : Creates env ⟨i, .insertDevice account name platform .approved, x⟩ account
      device := ⟨name, platform, rfl, answer⟩
  have one : creators env [⟨i, .insertDevice account name platform .approved, x⟩] = [i] :=
    mem_creators creates
  have codes : (Stmt.exec env (.insertDevice account name platform .approved) x).2.enrollCodes =
      x.enrollCodes := by
    simp only [Stmt.exec]
    split
    · split <;> rfl
    · rfl
  have accounts := @update_account _ ph _ i (.created account)
    (by rw [now]; rfl)
  have first : i ∉ creators env h := by
    intro mem
    obtain ⟨account', created⟩ := inv.created i mem
    rw [now] at created
    cases created
  refine
    { hashes := codes ▸ inv.hashes, stored := ?_, approved := ?_, redeemed := ?_, apart := ?_
      created := ?_, once := ?_, minted := ?_ }
  · rw [codes]
    exact fun c mem => inv.stored_mono _ mem
  · intro j caller claims phase minting
    by_cases eq : j = i
    · subst eq
      rw [Function.update_self] at phase
      cases phase
    · rw [Function.update_of_ne eq] at phase
      obtain ⟨row, found, approved⟩ := inv.approved j caller claims phase minting
      exact ⟨row, find?_insertDevice env account name platform .approved found, approved⟩
  · intro j account' done
    rw [accounts] at done
    rw [codes]
    exact inv.redeemed j account' done
  · intro j k account' account'' other here there
    rw [accounts] at here there
    exact inv.apart j k account' account'' other here there
  · rw [creators_append, one]
    intro j mem
    rw [List.mem_append, List.mem_singleton] at mem
    obtain before | rfl := mem
    · have eq : j ≠ i := by
        rintro rfl
        exact first before
      obtain ⟨account', created⟩ := inv.created j before
      exact ⟨account', by rw [Function.update_of_ne eq, created]⟩
    · exact ⟨account, Function.update_self ..⟩
  · rw [creators_append, one, List.nodup_append]
    refine ⟨inv.once, List.nodup_singleton i, ?_⟩
    intro j mem k last
    rw [List.mem_singleton.mp last]
    rintro rfl
    exact first mem
  · refine inv.minted_mono ?_
    rintro account' device' ⟨name', platform', same, -⟩
    cases same
    obtain ⟨code, brings, c, mem, hash, own, -⟩ := inv.redeemed i account (by rw [now]; rfl)
    obtain ⟨code', hash', m, there, mints⟩ := inv.stored c mem
    obtain rfl : code = code' := inj (hash.symm.trans hash')
    exact ⟨code, brings, m, there, own ▸ mints⟩

theorem EnrollInvariant.step (inj : Function.Injective (hashRefresh env))
    (inv : EnrollInvariant env calls h ph x) {i : ι} {q : Stmt} {b : EnrollPhase}
    (step : EnrollStep env (calls i) (ph i) q (Stmt.exec env q x).1 b) :
    EnrollInvariant env calls (h ++ [⟨i, q, x⟩]) (Function.update ph i b)
      (Stmt.exec env q x).2 := by
  generalize phase : ph i = a at step
  generalize answer : (Stmt.exec env q x).1 = res at step
  cases step with
  | quiet _ _ _ spares =>
      rw [← phase, Function.update_eq_self]
      have devices := Stmt.writesDevices_of_writesEnrollment spares
      exact inv.grow (by rw [Stmt.exec_enrollCodes spares]) (Stmt.exec_devices devices x)
        (creators_of_not_writes devices) (fun _ => rfl) (fun _ _ h => h) inv.approved
  | approve minting =>
      rename_i caller claims
      refine inv.grow rfl rfl (creators_of_not_writes rfl)
        (update_account (by rw [phase]; rfl)) ?_ ?_
      · intro j account created
        have eq : j ≠ i := by
          rintro rfl
          rw [phase] at created
          cases created
        rw [Function.update_of_ne eq, created]
      · intro j caller' claims' now minting'
        by_cases eq : j = i
        · subst eq
          rw [minting] at minting'
          cases minting'
          simp only [Stmt.exec, Except.ok.injEq, Option.map_eq_some_iff] at answer
          obtain ⟨row, found, approved⟩ := answer
          exact ⟨row, found, approved⟩
        · rw [Function.update_of_ne eq] at now
          exact inv.approved j caller' claims' now minting'
  | insert minting =>
      rw [← phase, Function.update_eq_self]
      exact inv.insert phase minting
  | redeem brings => exact inv.redeem phase brings answer
  | refused brings nothing =>
      rw [← phase, Function.update_eq_self]
      have same := @exec_consumeEnrollCode_refused env _ _ fun account eq =>
        nothing account (answer.symm.trans eq)
      exact inv.grow same rfl (creators_of_not_writes rfl) (fun _ => rfl) (fun _ _ h => h)
        inv.approved
  | create device => exact inv.create inj phase answer
  | failed e =>
      rename_i account name platform
      rw [← phase, Function.update_eq_self]
      have none_ : creators env [⟨i, .insertDevice account name platform .approved, x⟩] = [] := by
        simp [creators, answer]
      have same : (Stmt.exec env (.insertDevice account name platform .approved) x).2 = x := by
        revert answer
        simp only [Stmt.exec]
        split
        · split
          · intro answer
            cases answer
          · exact fun _ => rfl
        · exact fun _ => rfl
      rw [same]
      exact inv.grow rfl rfl none_ (fun _ => rfl) (fun _ _ h => h) inv.approved

end Run

theorem utf8_injective : Function.Injective utf8 := by
  intro s t same
  have bytes : s.toUTF8 = t.toUTF8 := by
    apply ByteArray.ext
    exact Array.toList_inj.mp same
  exact String.toByteArray_inj.mp bytes

/-- In every interleaving of mints and enrollments on a server without codes: each device
that an enrollment inserts comes from a code of its own, minted for the device's account by
an approved device, and a code is accepted only before it expires. -/
theorem enrollCodes_singleUse {ι : Type} [DecidableEq ι] (env : Env)
    (inj : Function.Injective (hashRefresh env)) (db : Db) (noCodes : db.enrollCodes.rows = [])
    (calls : ι → EnrollCall) (ls : List (Label ι Nat)) :
    SingleUse env calls (history env db (fun i => (calls i).handler env) ls) := by
  have start : EnrollInvariant env calls [] (fun _ => .start) db :=
    { hashes := by simp [noCodes]
      stored := by simp [noCodes]
      approved := by rintro i caller claims ⟨⟩
      redeemed := by rintro i account ⟨⟩
      apart := by rintro i j account account' - ⟨⟩
      created := by simp [creators]
      once := List.nodup_nil
      minted := by simp }
  obtain ⟨ph, -, inv⟩ := serve_phases env db (fun i => (calls i).handler env)
    (δ := fun i => EnrollStep env (calls i))
    (I := fun h ph x => EnrollInvariant env calls h ph x)
    (fun h ph x i q b step inv => inv.step inj step)
    (fun h ph x n inv => { inv with })
    (fun i => (calls i).follows env) start ls
  exact inv.singleUse

/-- A server whose code digest is the code itself. -/
def plainCodes : Env :=
  { Env.bare with
    random := fun draw _ => List.replicate draw 0
    urlSafe := fun b => String.ofList (b.map fun _ => 'A')
    sha256 := id }

/-- The claims of the desktop. -/
def desktopClaims : AccessClaims := ⟨10, 11, 0, 600, .access⟩

/-- The desktop mints a code, and two phones bring it. -/
def twoPhones : Fin 3 → EnrollCall
  | 0 => .mint ⟨none, none⟩ (some desktopClaims)
  | 1 => .enroll ⟨none, none⟩ ⟨" A ", ⟨"phone", "ios"⟩⟩
  | 2 => .enroll ⟨none, none⟩ ⟨"A", ⟨"tablet", "ios"⟩⟩

local instance neZeroPhones : NeZero 3 := ⟨by decide⟩

/-- The mint first, then the phones in turns. -/
def inTurns : List (Label (Fin 3) Nat) :=
  List.replicate 6 (Label.thread 0) ++
    (List.replicate 12 [Label.thread 1, Label.thread 2]).flatten

def desktopDb : Db :=
  { accounts := ownAccounts, devices := ownDesktop, issued := [desktopClaims] }

theorem enrollCodes_singleUse_twoPhones :
    SingleUse plainCodes twoPhones
      (history plainCodes desktopDb (fun i => (twoPhones i).handler plainCodes) inTurns) := by
  refine enrollCodes_singleUse plainCodes ?_ desktopDb rfl twoPhones inTurns
  intro s t same
  exact utf8_injective same

end Sentinel.Api
