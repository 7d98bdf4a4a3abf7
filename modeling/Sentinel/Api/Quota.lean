import Sentinel.Api.Transfers

/-!
# The storage quota of file transfers

`transfer_create` reads the bytes of the account's live transfers in one statement and
inserts the new transfer in a later one. Nothing but an insertion makes the sum grow: the
other calls delete or expire rows, and the clock only takes rows out of it. So the quota
holds as long as no transfer of the account is inserted between the two statements of
another `transfer_create`, and `overlappingCreates_exceed` shows that it does not hold
otherwise.
-/

namespace Sentinel.Api

open Atomic Handler Relational

/-! ### The sum and the statements -/

/-- What a row contributes to the sum at a time. -/
def FileTransfer.liveWeight (account : Uuid) (clock : Time) (t : FileTransfer) : Int :=
  if t.account = account ∧ t.state ≠ .expired ∧ clock < t.expiresAt then t.ciphertext.length else 0

theorem FileTransfer.liveWeight_nonneg (account : Uuid) (clock : Time) (t : FileTransfer) :
    0 ≤ t.liveWeight account clock := by
  unfold liveWeight
  split <;> omega

theorem Db.liveBytes_eq (db : Db) (account : Uuid) :
    db.liveBytes account =
      (db.fileTransfers.rows.map (FileTransfer.liveWeight account db.clock)).sum := by
  unfold Db.liveBytes
  induction db.fileTransfers.rows with
  | nil => rfl
  | cons t rows ih =>
      rw [List.map_cons, List.sum_cons, ← ih, FileTransfer.liveWeight]
      by_cases live : t.account = account ∧ t.state ≠ .expired ∧ db.clock < t.expiresAt
      · rw [List.filter_cons_of_pos (by simpa using live), if_pos live, List.map_cons, List.sum_cons]
      · rw [List.filter_cons_of_neg (by simpa using live), if_neg live, zero_add]

section Sum

variable {env : Env} {db db' : Db} {account : Uuid}

theorem liveBytes_le_of_eq (rows : db'.fileTransfers = db.fileTransfers)
    (clock : db'.clock = db.clock) : db'.liveBytes account ≤ db.liveBytes account := by
  rw [Db.liveBytes_eq, Db.liveBytes_eq, rows, clock]

theorem liveBytes_le_of_deleteWhere {p : FileTransfer → Bool}
    (rows : db'.fileTransfers = db.fileTransfers.deleteWhere p) (clock : db'.clock = db.clock) :
    db'.liveBytes account ≤ db.liveBytes account := by
  rw [Db.liveBytes_eq, Db.liveBytes_eq, rows, clock]
  apply List.Sublist.sum_le_sum (List.filter_sublist.map _)
  intro n mem
  obtain ⟨t, -, rfl⟩ := List.mem_map.mp mem
  exact t.liveWeight_nonneg account db.clock

/-- A new state takes rows out of the sum or leaves them in. -/
theorem liveBytes_le_of_updateWhere {p : FileTransfer → Bool} {s : TransferState}
    (rows : db'.fileTransfers = db.fileTransfers.updateWhere p
      (fun t => { t with state := s }) (fun _ => rfl))
    (clock : db'.clock = db.clock)
    (lighter : s = .expired ∨ ∀ t, p t = true → t.state ≠ .expired) :
    db'.liveBytes account ≤ db.liveBytes account := by
  rw [Db.liveBytes_eq, Db.liveBytes_eq, rows, clock, Table.updateWhere, List.map_map]
  apply List.sum_le_sum
  intro t _
  by_cases chosen : p t = true
  · rw [Function.comp_apply, if_pos chosen]
    obtain rfl | live := lighter
    · have none_ : ({ t with state := .expired } : FileTransfer).liveWeight account db.clock = 0 := by
        simp [FileTransfer.liveWeight]
      rw [none_]
      exact t.liveWeight_nonneg account db.clock
    · unfold FileTransfer.liveWeight
      simp only [live t chosen, ne_eq, not_false_eq_true, true_and]
      split <;> split <;> first | omega | tauto
  · rw [Function.comp_apply, if_neg chosen]

/-- The clock takes rows out of the sum. -/
theorem liveBytes_tick (n : Nat) : (tick n db).liveBytes account ≤ db.liveBytes account := by
  rw [Db.liveBytes_eq, Db.liveBytes_eq]
  apply List.sum_le_sum
  intro t _
  unfold FileTransfer.liveWeight
  by_cases later : t.account = account ∧ t.state ≠ .expired ∧ (tick n db).clock < t.expiresAt
  · have now : db.clock < t.expiresAt := by
      refine lt_of_le_of_lt ?_ later.2.2
      exact Int.le_add_of_nonneg_right (Int.natCast_nonneg n)
    rw [if_pos later, if_pos ⟨later.1, later.2.1, now⟩]
  · rw [if_neg later]
    exact t.liveWeight_nonneg account db.clock

/-- The statement inserts a transfer of the account. -/
def Stmt.insertsFor (account : Uuid) : Stmt → Bool
  | .insertTransfer owner .. => decide (owner = account)
  | _ => false

theorem liveBytes_insertTransfer_le {sender : Uuid} {recipient : Option Uuid} {size : Int}
    {ct : Bytes} {ttl : Int} {once permanent : Bool} (owner : Uuid) :
    (Stmt.exec env (.insertTransfer owner sender recipient size ct ttl once permanent)
        db).2.liveBytes account ≤
      db.liveBytes account + if owner = account then (ct.length : Int) else 0 := by
  have slack : db.liveBytes account ≤
      db.liveBytes account + if owner = account then (ct.length : Int) else 0 := by
    split <;> omega
  simp only [Stmt.exec]
  split
  · split <;> rename_i inserted
    · rw [Db.liveBytes_eq, Db.liveBytes_eq, Table.rows_of_insert inserted, List.map_append,
        List.sum_append]
      simp only [List.map_cons, List.map_nil, List.sum_cons, List.sum_nil, FileTransfer.liveWeight]
      by_cases own : owner = account
      · simp only [own, true_and, if_true]
        split <;> omega
      · simp [own]
    · exact slack
  · exact slack

/-- Only an insertion makes the sum grow. -/
theorem Stmt.liveBytes_le {q : Stmt} (h : q.insertsFor account = false) :
    (Stmt.exec env q db).2.liveBytes account ≤ db.liveBytes account := by
  cases q with
  | insertTransfer owner sender recipient size ct ttl once permanent =>
      have other : owner ≠ account := of_decide_eq_false h
      refine (liveBytes_insertTransfer_le owner).trans ?_
      rw [if_neg other, add_zero]
  | consumeTransfer id => exact liveBytes_le_of_deleteWhere rfl rfl
  | deleteTransfer id owner device => exact liveBytes_le_of_deleteWhere rfl rfl
  | expireTransfer id =>
      exact liveBytes_le_of_updateWhere rfl rfl (.inl rfl)
  | expireTransfers owner =>
      exact liveBytes_le_of_updateWhere rfl rfl (.inl rfl)
  | markDelivered id =>
      refine liveBytes_le_of_updateWhere rfl rfl (.inr fun t chosen => ?_)
      have pending : t.state = .pending := (of_decide_eq_true chosen).2
      simp [pending]
  | _ =>
      refine liveBytes_le_of_eq ?_ ?_ <;> first
        | rfl
        | (simp only [Stmt.exec, Db.upsertAccount, Db.addAccount]
           split <;> first | rfl | (split <;> rfl))

end Sum

/-! ### The calls -/

/-- A call on the transfers of an account. -/
inductive QuotaCall where
  | create (caller : Caller) (bearer : Option AccessClaims) (req : TransferCreateReq)
  | existing (call : TransferCall)

def QuotaCall.handler (env : Env) : QuotaCall → Handler Response
  | create caller bearer req => transferCreate env caller bearer req
  | existing call => call.handler

/-- How far a call has come: it has read the sum for an account and found room for the size
of its file. -/
inductive QuotaPhase where
  | start
  | counted (account : Uuid) (used size : Int)
  deriving DecidableEq

/-- The statement inserts a transfer. -/
def Stmt.insertsTransfer : Stmt → Bool
  | .insertTransfer .. => true
  | _ => false

theorem Stmt.insertsFor_of_insertsTransfer {q : Stmt} (h : q.insertsTransfer = false)
    (account : Uuid) : q.insertsFor account = false := by
  cases q <;> first | rfl | cases h

/-- The statement inserts no transfer. -/
def Stmt.InsertsNone (q : Stmt) : Prop := q.insertsTransfer = false

/-- What one statement of a call can be, phase by phase. -/
inductive QuotaStep : QuotaPhase → (q : Stmt) → Except SqlError q.Result → QuotaPhase → Prop
  | quiet (a : QuotaPhase) (q : Stmt) (res : Except SqlError q.Result) (spares : q.InsertsNone) :
      QuotaStep a q res a
  | count (account : Uuid) (used size : Int) (room : used + size ≤ transferMaxPendingBytes) :
      QuotaStep .start (.liveTransferBytes account) (.ok used) (.counted account used size)
  | insert (account sender : Uuid) (used : Int) (recipient : Option Uuid) (size : Int) (ct : Bytes)
      (ttl : Int) (once permanent : Bool) (res : Except SqlError Uuid) :
      QuotaStep (.counted account used ct.length)
        (.insertTransfer account sender recipient size ct ttl once permanent) res .start

theorem verifyAccess_insertsNone (bearer : Option AccessClaims) :
    (verifyAccess bearer).Within Stmt.InsertsNone fun _ => True := by
  refine (verifyWithKind_within bearer .access).mono (fun q check => ?_) fun _ _ => trivial
  cases q <;> first | rfl | cases check

theorem expireOnDownload_insertsNone (id : Uuid) (t : FileTransfer) :
    (expireOnDownload id t).Within Stmt.InsertsNone fun _ => True := by
  unfold expireOnDownload
  split
  · simp
  · simp only [within_bind, within_sql]
    refine ⟨rfl, fun now => ?_⟩
    split
    · simp only [within_bind, within_sql, within_throw, implies_true, and_true]
      rfl
    · simp

theorem settleDownload_insertsNone (a : Auth) (id : Uuid) (t : FileTransfer) :
    (settleDownload a id t).Within Stmt.InsertsNone fun _ => True := by
  unfold settleDownload
  split
  · simp
  · split <;> exact (within_sql _).mpr ⟨rfl, fun _ => trivial⟩

theorem TransferCall.insertsNone (call : TransferCall) :
    call.handler.Within Stmt.InsertsNone fun _ => True := by
  cases call with
  | download bearer id =>
      simp only [handler, transferDownload, within_bind]
      refine (verifyAccess_insertsNone bearer).mono (fun _ h => h) fun a _ => ?_
      simp only [within_sql, within_okOr]
      refine ⟨rfl, fun _ t _ => ?_⟩
      refine (expireOnDownload_insertsNone id t).mono (fun _ h => h) fun _ _ => ?_
      rw [within_ensure]
      intro _
      refine (settleDownload_insertsNone a id t).mono (fun _ h => h) fun _ _ => ?_
      exact (within_pure _).mpr trivial
  | delete bearer id =>
      simp only [handler, transferDelete, within_bind]
      refine (verifyAccess_insertsNone bearer).mono (fun _ h => h) fun a _ => ?_
      simp only [within_sql, within_ensure, within_pure, implies_true, and_true]
      rfl
  | list bearer =>
      simp only [handler, transferList, within_bind]
      refine (verifyAccess_insertsNone bearer).mono (fun _ h => h) fun a _ => ?_
      simp only [within_sql, within_pure, implies_true, and_true]
      exact ⟨rfl, fun _ => rfl⟩

section Follows

variable {α : Type}

/-- A block that inserts no transfer. -/
theorem follows_insertsNone (post : α → Prop) {h : Handler α} {f : α → Handler Response}
    (within : h.Within Stmt.InsertsNone post)
    (rest : ∀ x, post x → (f x).Follows QuotaStep (fun _ _ => True) .start) :
    (h >>= f).Follows QuotaStep (fun _ _ => True) .start :=
  within.follows_bind (fun q res spares => .quiet _ q res spares) rest fun _ => trivial

theorem transferCreate_follows (env : Env) (caller : Caller) (bearer : Option AccessClaims)
    (req : TransferCreateReq) :
    (transferCreate env caller bearer req).Follows QuotaStep (fun _ _ => True) .start := by
  refine follows_insertsNone _ (verifyAccess_insertsNone bearer) fun a _ => ?_
  refine follows_insertsNone (fun _ => True) ?_ fun _ _ => ?_
  · simp [requireApprovedDevice, Stmt.InsertsNone, Stmt.insertsTransfer]
  refine follows_insertsNone (fun _ => True) ?_ fun _ _ => ?_
  · simp [rateLimit, Stmt.InsertsNone, Stmt.insertsTransfer]
  refine follows_insertsNone (fun _ => True) (by simp) fun ct _ => ?_
  refine follows_insertsNone (fun _ => True) (by simp) fun _ _ => ?_
  refine follows_insertsNone (fun _ => True) (by simp) fun _ _ => ?_
  refine follows_insertsNone (fun _ => True) ?_ fun _ _ => ?_
  · unfold checkRecipient
    split <;> simp [Stmt.InsertsNone, Stmt.insertsTransfer]
  rw [follows_bind, follows_sql]
  refine ⟨fun used => ?_, fun e => ⟨_, .quiet _ _ _ rfl, trivial⟩⟩
  by_cases room : used + ct.length ≤ transferMaxPendingBytes
  · refine ⟨_, .count a.account used ct.length room, ?_⟩
    simp only [follows_andThen_ok, follows_bind, follows_ensure, room, decide_true, true_implies,
      reduceCtorEq, false_implies, and_true, follows_sql]
    exact ⟨fun id => ⟨_, .insert .., trivial⟩, fun e => ⟨_, .insert .., trivial⟩⟩
  · refine ⟨_, .quiet _ _ _ rfl, ?_⟩
    simp [room]

end Follows

theorem QuotaCall.follows (env : Env) (call : QuotaCall) :
    (call.handler env).Follows QuotaStep (fun _ _ => True) .start := by
  cases call with
  | create caller bearer req => exact transferCreate_follows env caller bearer req
  | existing call =>
      exact call.insertsNone.follows (fun q res spares => .quiet _ q res spares)
        (fun _ _ => trivial) fun _ => trivial

/-! ### Runs -/

section Runs

variable {ι : Type}

/-- No transfer of the account is inserted after a call has read the sum and before the same
call inserts its own. -/
def InsertsApart (account : Uuid) (h : List (Event ι Stmt Db)) : Prop :=
  ∀ past (read : Event ι Stmt Db) mid (ins : Event ι Stmt Db) rest,
    h = past ++ read :: (mid ++ ins :: rest) → read.thread = ins.thread →
    read.q = .liveTransferBytes account → ins.q.insertsFor account = true →
    ∀ e ∈ mid, e.q.insertsFor account = false

/-- The sum that a call has read bounds the present one unless a transfer was inserted since. -/
def StillUsed (account : Uuid) (h : List (Event ι Stmt Db)) (i : ι) (used : Int) (db : Db) : Prop :=
  ∃ past, ∃ read : Event ι Stmt Db, ∃ mid, h = past ++ read :: mid ∧ read.thread = i ∧
    read.q = .liveTransferBytes account ∧
    ((∀ e ∈ mid, e.q.insertsFor account = false) → db.liveBytes account ≤ used)

/-- The invariant of a run. -/
structure QuotaInvariant (account : Uuid) (h : List (Event ι Stmt Db)) (ph : ι → QuotaPhase)
    (db : Db) : Prop where
  bounded : db.liveBytes account ≤ transferMaxPendingBytes
  room : ∀ i used size, ph i = .counted account used size → used + size ≤ transferMaxPendingBytes
  counted : ∀ i used size, ph i = .counted account used size → StillUsed account h i used db

variable {account : Uuid} {h : List (Event ι Stmt Db)} {ph : ι → QuotaPhase} {x y : Db}

theorem InsertsApart.of_append {h' : List (Event ι Stmt Db)} (apart : InsertsApart account (h ++ h')) :
    InsertsApart account h := by
  intro past read mid ins rest cut
  refine apart past read mid ins (rest ++ h') ?_
  rw [cut]
  simp only [List.append_assoc, List.cons_append]

theorem StillUsed.mono {i : ι} {used : Int} (still : StillUsed account h i used x)
    (less : y.liveBytes account ≤ x.liveBytes account) : StillUsed account h i used y := by
  obtain ⟨past, read, mid, cut, own, reads, bound⟩ := still
  exact ⟨past, read, mid, cut, own, reads, fun quiet => less.trans (bound quiet)⟩

/-- One more statement. -/
theorem StillUsed.step {i : ι} {used : Int} (still : StillUsed account h i used x)
    (e : Event ι Stmt Db)
    (less : e.q.insertsFor account = false → y.liveBytes account ≤ x.liveBytes account) :
    StillUsed account (h ++ [e]) i used y := by
  obtain ⟨past, read, mid, rfl, own, reads, bound⟩ := still
  refine ⟨past, read, mid ++ [e], by simp, own, reads, fun quiet => ?_⟩
  obtain ⟨before, last⟩ := List.forall_mem_append.mp quiet
  exact (less (last e (List.mem_singleton_self e))).trans (bound before)

/-- An insertion that nothing disturbed still has the room its call has found. -/
theorem StillUsed.bound_of_insertsApart {i : ι} {used : Int} (still : StillUsed account h i used x)
    {q : Stmt} (inserts : q.insertsFor account = true)
    (apart : InsertsApart account (h ++ [⟨i, q, x⟩])) : x.liveBytes account ≤ used := by
  obtain ⟨past, read, mid, rfl, own, reads, bound⟩ := still
  refine bound (apart past read mid ⟨i, q, x⟩ [] ?_ own reads inserts)
  simp only [List.append_assoc, List.cons_append]

theorem QuotaInvariant.update [DecidableEq ι] (inv : QuotaInvariant account h ph x) {i : ι}
    {q : Stmt} {b : QuotaPhase} (bounded : y.liveBytes account ≤ transferMaxPendingBytes)
    (less : q.insertsFor account = false → y.liveBytes account ≤ x.liveBytes account)
    (own : ∀ used size, b = .counted account used size → used + size ≤ transferMaxPendingBytes ∧
      StillUsed account (h ++ [⟨i, q, x⟩]) i used y) :
    QuotaInvariant account (h ++ [⟨i, q, x⟩]) (Function.update ph i b) y where
  bounded := bounded
  room j used size now := by
    by_cases same : j = i
    · subst same
      rw [Function.update_self] at now
      exact (own used size now).1
    · rw [Function.update_of_ne same] at now
      exact inv.room j used size now
  counted j used size now := by
    by_cases same : j = i
    · subst same
      rw [Function.update_self] at now
      exact (own used size now).2
    · rw [Function.update_of_ne same] at now
      exact (inv.counted j used size now).step _ less

theorem QuotaInvariant.step [DecidableEq ι] {env : Env} {i : ι} {q : Stmt} {b : QuotaPhase}
    (inv : QuotaInvariant account h ph x) (apart : InsertsApart account (h ++ [⟨i, q, x⟩]))
    (step : QuotaStep (ph i) q (Stmt.exec env q x).1 b) :
    QuotaInvariant account (h ++ [⟨i, q, x⟩]) (Function.update ph i b) (Stmt.exec env q x).2 := by
  have less : q.insertsFor account = false →
      (Stmt.exec env q x).2.liveBytes account ≤ x.liveBytes account := Stmt.liveBytes_le
  generalize phase : ph i = a at step
  generalize result : (Stmt.exec env q x).1 = res at step
  cases step with
  | quiet _ _ _ spares =>
      have spared := Stmt.insertsFor_of_insertsTransfer spares account
      refine inv.update ((less spared).trans inv.bounded) less fun used size now => ?_
      rw [now] at phase
      exact ⟨inv.room i used size phase, (inv.counted i used size phase).step _ less⟩
  | count owner used size room =>
      refine inv.update inv.bounded less fun used' size' now => ?_
      cases now
      refine ⟨room, h, ⟨i, _, x⟩, [], rfl, rfl, rfl, fun _ => ?_⟩
      exact (Except.ok.inj result).le
  | insert owner sender used recipient size ct ttl once permanent =>
      refine inv.update ?_ less fun _ _ now => by cases now
      refine (liveBytes_insertTransfer_le owner).trans ?_
      by_cases own : owner = account
      · subst own
        have room := inv.room i used _ phase
        have bound := (inv.counted i used _ phase).bound_of_insertsApart (by simp [Stmt.insertsFor]) apart
        rw [if_pos rfl]
        omega
      · rw [if_neg own, add_zero]
        exact inv.bounded

variable [DecidableEq ι]

/-- On every schedule of any number of calls, starting from a database within the quota: as
long as no insertion comes between the two statements of another call, the account stays
within the quota. -/
theorem transferQuota_kept (env : Env) (db : Db) (calls : ι → QuotaCall) (account : Uuid)
    (within : db.liveBytes account ≤ transferMaxPendingBytes) (ls : List (Label ι Nat))
    (apart : InsertsApart account (history env db (fun i => (calls i).handler env) ls)) :
    (serve env db (fun i => (calls i).handler env) ls).shared.liveBytes account ≤
      transferMaxPendingBytes := by
  have clock : ∀ h (ph : ι → QuotaPhase) x n,
      (InsertsApart account h → QuotaInvariant account h ph x) →
      InsertsApart account h → QuotaInvariant account h ph (tick n x) := by
    intro h ph x n inv apart
    have now := inv apart
    exact ⟨(liveBytes_tick n).trans now.bounded, now.room,
      fun i used size phase => (now.counted i used size phase).mono (liveBytes_tick n)⟩
  obtain ⟨ph, -, inv⟩ := serve_phases env db (fun i => (calls i).handler env)
    (δ := fun _ => QuotaStep)
    (I := fun h ph x => InsertsApart account h → QuotaInvariant account h ph x)
    (fun h ph x i q b step inv apart => (inv apart.of_append).step apart step) clock
    (fun i => (calls i).follows env) (fun _ => ⟨within, by simp, by simp⟩) ls
  exact (inv apart).bounded

omit [DecidableEq ι] in
/-- A history with one insertion at most. -/
theorem insertsApart_of_single {h : List (Event ι Stmt Db)}
    (single : (h.countP fun e => e.q.insertsFor account) ≤ 1) : InsertsApart account h := by
  rintro past read mid ins rest rfl own reads inserts e between
  by_contra other
  rw [Bool.not_eq_false] at other
  have first : 0 < mid.countP fun e => e.q.insertsFor account :=
    List.countP_pos_iff.mpr ⟨e, between, other⟩
  simp only [List.countP_append, List.countP_cons, inserts, if_true] at single
  omega

/-- Device 12 creates a transfer while device 13 downloads the one there is. -/
def createAndDownload : Bool → QuotaCall
  | false => .create ⟨none, none⟩
      (some { sub := 10, dev := 12, iat := 0, exp := 600, tok := .access })
      { recipientDevice := none, sizeBytes := 2, ciphertext := some [4, 5], ttlDays := none }
  | true => .existing (rivalDownloads true)

theorem createAndDownload_quota :
    (serve Env.bare openDrop (fun i => (createAndDownload i).handler Env.bare)
      ((List.replicate 6 [.thread false, .thread true]).flatten)).shared.liveBytes 10 ≤
      transferMaxPendingBytes :=
  transferQuota_kept Env.bare openDrop createAndDownload 10 (by decide +kernel) _
    (insertsApart_of_single (by decide +kernel))

end Runs

/-! ### Two calls that overlap -/

theorem verifyAccess_answers {claims : AccessClaims} {now : Time} (access : claims.tok = .access)
    (valid : unixTimestamp now - tokenLeewaySecs ≤ claims.exp) :
    (verifyAccess (some claims)).Answers [⟨.tokenIssued claims, .ok true⟩, ⟨.now, .ok now⟩]
      { account := claims.sub, device := claims.dev } := by
  have nowed : nowSecs.Answers [⟨.now, .ok now⟩] (unixTimestamp now) :=
    (answers_sql .now now).bind (answers_pure _)
  refine (answers_okOr rfl _).bind ((answers_sql (.tokenIssued claims) true).bind ?_)
  refine (answers_ensure rfl _).bind (nowed.bind ?_)
  refine (answers_ensure (decide_eq_true valid) _).bind ?_
  exact (answers_ensure (decide_eq_true access) _).bind (answers_pure _)

/-- What a `transfer_create` without recipient does up to its insertion. -/
theorem transferCreate_leads {env : Env} {caller : Caller} {claims : AccessClaims}
    {req : TransferCreateReq} {ct : Bytes} (now : Time) (used : Int)
    (file : req.ciphertext = some ct) (fits : ct ≠ [] ∧ ct.length ≤ transferMaxCiphertext)
    (size : 0 ≤ req.sizeBytes) (anyone : req.recipientDevice = none)
    (valid : unixTimestamp now - tokenLeewaySecs ≤ claims.exp) (access : claims.tok = .access)
    (room : used + ct.length ≤ transferMaxPendingBytes) :
    (transferCreate env caller (some claims) req).Leads
      [⟨.tokenIssued claims, .ok true⟩, ⟨.now, .ok now⟩,
       ⟨.deviceStatus claims.dev, .ok (some .approved)⟩,
       ⟨.limiterCheck { action := .transfer claims.sub, ip := clientIp env caller } 20
          (seconds 3600), .ok true⟩,
       ⟨.liveTransferBytes claims.sub, .ok used⟩]
      (sql (.insertTransfer claims.sub claims.dev none req.sizeBytes ct req.retention
        req.deleteOnDownload req.permanent) >>= fun id => pure (.created id) ) := by
  refine (verifyAccess_answers access valid).leads ?_
  have approved : (requireApprovedDevice claims.dev).Answers
      [⟨.deviceStatus claims.dev, .ok (some .approved)⟩] () :=
    (answers_sql (.deviceStatus claims.dev) (some .approved)).bind
      ((answers_okOr rfl _).bind (answers_ensure rfl _))
  refine approved.leads ?_
  have allowed : (rateLimit env caller (.transfer claims.sub) 20 3600).Answers
      [⟨.limiterCheck { action := .transfer claims.sub, ip := clientIp env caller } 20
          (seconds 3600), .ok true⟩] () :=
    (answers_sql (.limiterCheck _ 20 (seconds 3600)) true).bind (answers_ensure rfl _)
  refine allowed.leads ((answers_okOr file _).leads ?_)
  refine (answers_ensure (decide_eq_true fits) _).leads ?_
  refine (answers_ensure (decide_eq_true size) _).leads ?_
  rw [anyone]
  refine (answers_pure ()).leads ((answers_sql (.liveTransferBytes claims.sub) used).leads ?_)
  exact (answers_ensure (decide_eq_true room) _).leads (.nil _)

/-- Nine transfers of the same contents. -/
def nineTransfers (ct : Bytes) : FileTransfers where
  rows := [20, 21, 22, 23, 24, 25, 26, 27, 28].map fun id =>
    { id, account := 10, senderDevice := 11, recipientDevice := none, sizeBytes := 0
      ciphertext := ct, state := .pending, createdAt := 0, expiresAt := 86400000000
      deleteOnDownload := false, permanent := false }
  nodup := (by decide : [20, 21, 22, 23, 24, 25, 26, 27, 28].Nodup)

/-- Devices 12 and 13 of account 10, which has nine live transfers. -/
def almostFull (ct : Bytes) : Db :=
  { openDrop with fileTransfers := nineTransfers ct, supply := 30 }

/-- Both devices send the contents once more. -/
def rivalCreates (ct : Bytes) (second : Bool) : QuotaCall :=
  .create ⟨none, none⟩
    (some { sub := 10, dev := if second then 13 else 12, iat := 0, exp := 600, tok := .access })
    { recipientDevice := none, sizeBytes := 0, ciphertext := some ct, ttlDays := none }

/-- Both creations read the sum before either inserts. -/
def overlappingCreates : List (Label Bool Nat) :=
  List.replicate 5 (Label.thread false) ++ (List.replicate 5 (Label.thread true) ++
    [Label.thread false, Label.thread true])

theorem liveBytes_almostFull (ct : Bytes) : (almostFull ct).liveBytes 10 = 9 * ct.length := by
  simp [Db.liveBytes, almostFull, nineTransfers, openDrop]
  omega

/-- The fresh id is above all ids of transfers. -/
def FreshTransferIds (db : Db) : Prop := ∀ t ∈ db.fileTransfers.rows, t.id < db.supply

/-- An insertion for a known account and sender adds its size, and the next one can follow. -/
theorem liveBytes_insertTransfer {env : Env} {db : Db} {account sender : Uuid} {size : Int}
    {ct : Bytes} {ttl : Int} {once permanent : Bool} (lasting : 0 < ttl)
    (known : db.hasAccount account = true) (sends : db.hasDevice sender = true)
    (fresh : FreshTransferIds db) :
    let db' := (Stmt.exec env
      (.insertTransfer account sender none size ct ttl once permanent) db).2
    db'.liveBytes account = db.liveBytes account + ct.length ∧ FreshTransferIds db' ∧
      db'.hasAccount = db.hasAccount ∧ db'.hasDevice = db.hasDevice := by
  intro db'
  have live : db.clock < db.clock + days ttl := by
    have later : 0 < days ttl := by
      simp only [days, minutes, seconds]
      positivity
    exact Int.lt_add_of_pos_right _ later
  simp only [db', Stmt.exec, known, sends, Option.all_none, Bool.and_true, if_true]
  split <;> rename_i inserted
  · have rows := Table.rows_of_insert inserted
    refine ⟨?_, ?_, rfl, rfl⟩
    · rw [Db.liveBytes_eq, Db.liveBytes_eq, rows, List.map_append, List.sum_append]
      simp [FileTransfer.liveWeight, live]
    · intro t mem
      simp only [rows, List.mem_append, List.mem_singleton] at mem
      obtain old | rfl := mem
      · exact (fresh t old).trans (Nat.lt_succ_self _)
      · exact Nat.lt_succ_self _
  · have taken := Table.insert_eq_none_iff.mp inserted
    refine absurd (Table.find?_eq_none_iff.mpr fun t mem => ?_) taken
    exact (fresh t mem).ne

/-- The database after the limiter has counted a creation. -/
def limited (db : Db) : Db :=
  (Stmt.exec Env.bare (.limiterCheck { action := .transfer 10, ip := clientIp Env.bare ⟨none, none⟩ } 20
    (seconds 3600)) db).2

/-- The insertion of one of the two calls. -/
def createdBy (dev : Uuid) (ct : Bytes) : Stmt := .insertTransfer 10 dev none 0 ct 1 false false

theorem serve_overlapping (ct : Bytes) (size : ct.length = transferMaxCiphertext) :
    (serve Env.bare (almostFull ct) (fun i => (rivalCreates ct i).handler Env.bare)
      overlappingCreates).shared =
      (Stmt.exec Env.bare (createdBy 13 ct) (Stmt.exec Env.bare (createdBy 12 ct)
        (limited (limited (almostFull ct)))).2).2 := by
  have fits : ct ≠ [] ∧ ct.length ≤ transferMaxCiphertext := by
    refine ⟨?_, size.le⟩
    rintro rfl
    cases size
  have room : (almostFull ct).liveBytes 10 + ct.length ≤ transferMaxPendingBytes := by
    rw [liveBytes_almostFull, size]
    decide
  have creates : ∀ dev, ((QuotaCall.create ⟨none, none⟩
      (some { sub := 10, dev, iat := 0, exp := 600, tok := .access })
      { recipientDevice := none, sizeBytes := 0, ciphertext := some ct, ttlDays := none }).handler
        Env.bare).Leads _ _ := fun dev =>
    transferCreate_leads 0 ((almostFull ct).liveBytes 10) rfl fits le_rfl rfl
      (by decide : (0 : Int) - 60 ≤ 600) rfl room
  have first : Pool.run (Stmt.exec Env.bare) tick
      (⟨almostFull ct, fun i => (rivalCreates ct i).handler Env.bare⟩ : ServerPool Bool)
      (List.replicate 5 (.thread false)) = ⟨limited (almostFull ct), _⟩ :=
    Pool.run_steps _ _ (creates 12) rfl ⟨rfl, rfl, rfl, rfl, rfl, rfl⟩
  have second : ∀ waiting, Pool.run (Stmt.exec Env.bare) tick
      (⟨limited (almostFull ct), Function.update (fun i => (rivalCreates ct i).handler Env.bare)
        false waiting⟩ : ServerPool Bool)
      (List.replicate 5 (.thread true)) = ⟨limited (limited (almostFull ct)), _⟩ := fun _ =>
    Pool.run_steps _ _ (creates 13) rfl ⟨rfl, rfl, rfl, rfl, rfl, rfl⟩
  unfold serve overlappingCreates
  rw [Pool.run_append, first, Pool.run_append]
  refine (congrArg (fun s : ServerPool Bool =>
    (Pool.run (Stmt.exec Env.bare) tick s [.thread false, .thread true]).shared) (second _)).trans ?_
  generalize limited (limited (almostFull ct)) = db
  generalize Stmt.exec Env.bare = exec
  rfl

theorem liveBytes_createdBy {ct : Bytes} {db : Db} (known : db.hasAccount 10 = true)
    (first : db.hasDevice 12 = true) (second : db.hasDevice 13 = true)
    (fresh : FreshTransferIds db) :
    (Stmt.exec Env.bare (createdBy 13 ct) (Stmt.exec Env.bare (createdBy 12 ct)
      db).2).2.liveBytes 10 = db.liveBytes 10 + ct.length + ct.length := by
  have lasting : (0 : Int) < 1 := by decide
  obtain ⟨sum, later, accounts, devices⟩ := liveBytes_insertTransfer lasting known first fresh
  rw [← accounts] at known
  rw [← devices] at second
  rw [← sum]
  exact (liveBytes_insertTransfer lasting known second later).1

/-- A file of the largest size. -/
def largestFile : Bytes := List.replicate transferMaxCiphertext 0

/-- The account is within its quota before, and above it after. -/
theorem overlappingCreates_exceed :
    (almostFull largestFile).liveBytes 10 ≤ transferMaxPendingBytes ∧
      transferMaxPendingBytes < (serve Env.bare (almostFull largestFile)
        (fun i => (rivalCreates largestFile i).handler Env.bare)
        overlappingCreates).shared.liveBytes 10 := by
  have size : largestFile.length = transferMaxCiphertext := List.length_replicate
  generalize largestFile = ct at size ⊢
  have start : (limited (limited (almostFull ct))).liveBytes 10 = 9 * ct.length :=
    liveBytes_almostFull ct
  have fresh : FreshTransferIds (limited (limited (almostFull ct))) := by
    have small : ∀ id ∈ [20, 21, 22, 23, 24, 25, 26, 27, 28], id < 30 := by decide
    intro t mem
    obtain ⟨id, listed, rfl⟩ := List.mem_map.mp mem
    exact small id listed
  rw [serve_overlapping ct size, liveBytes_createdBy rfl rfl rfl fresh, start, liveBytes_almostFull,
    size]
  decide

end Sentinel.Api
