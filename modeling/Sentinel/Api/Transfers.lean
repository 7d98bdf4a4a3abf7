import Sentinel.Api.Interleaving

/-!
# File transfers under concurrent downloads

`transfer_download` reads the row once, decides everything from what it read, and then
deletes or marks the row by its id alone. Here any number of downloads, deletions and
listings run interleaved, statement by statement.

What is decided from the row cannot go stale except for its presence: account, sender,
recipient, contents and flags of a transfer never change. So the authorization holds and a
permanent transfer does not expire; but a transfer that is deleted on download is handed
out once for each recipient that read it before the first of them deleted it.
-/

namespace Sentinel.Api

open Atomic Handler Relational

/-- A call on existing transfers. -/
inductive TransferCall where
  | download (bearer : Option AccessClaims) (id : Uuid)
  | delete (bearer : Option AccessClaims) (id : Uuid)
  | list (bearer : Option AccessClaims)

def TransferCall.handler : TransferCall → Handler Response
  | .download bearer id => transferDownload bearer id
  | .delete bearer id => transferDelete bearer id
  | .list bearer => transferList bearer

/-- The row is this transfer, up to its state. -/
def FileTransfer.SameAs (t row : FileTransfer) : Prop := row = { t with state := row.state }

theorem FileTransfer.SameAs.refl (t : FileTransfer) : t.SameAs t := rfl

theorem FileTransfer.SameAs.trans {t u row : FileTransfer} (first : t.SameAs u)
    (second : u.SameAs row) : t.SameAs row := by
  unfold SameAs at *
  rw [second, first]

section Effects

variable {env : Env} {q : Stmt} {db : Db}

/-- Every row afterwards is a row before, and expires only if it was not permanent. -/
def TransfersShrink (db db' : Db) : Prop :=
  ∀ row ∈ db'.fileTransfers.rows, ∃ t ∈ db.fileTransfers.rows, t.SameAs row ∧
    (row.state = .expired → t.state = .expired ∨ t.permanent = false)

theorem TransfersShrink.of_eq {db' : Db} (same : db'.fileTransfers = db.fileTransfers) :
    TransfersShrink db db' := by
  intro row mem
  exact ⟨row, same ▸ mem, .refl row, .inl⟩

theorem TransfersShrink.of_deleteWhere {db' : Db} {p : FileTransfer → Bool}
    (same : db'.fileTransfers = db.fileTransfers.deleteWhere p) : TransfersShrink db db' := by
  intro row mem
  rw [same] at mem
  exact ⟨row, (List.mem_filter.mp mem).1, .refl row, .inl⟩

theorem TransfersShrink.of_updateWhere {db' : Db} {p : FileTransfer → Bool} {s : TransferState}
    (update : db'.fileTransfers = db.fileTransfers.updateWhere p
      (fun t => { t with state := s }) (fun _ => rfl))
    (allowed : s = .expired → ∀ t ∈ db.fileTransfers.rows, p t = true → t.permanent = false) :
    TransfersShrink db db' := by
  intro row mem
  rw [update] at mem
  obtain ⟨t, old, rfl⟩ := List.mem_map.mp mem
  refine ⟨t, old, ?_, ?_⟩
  · split
    · rfl
    · exact .refl t
  · split <;> rename_i chosen
    · exact fun expired => .inr (allowed expired t old chosen)
    · exact .inl

end Effects

/-- How far a download has come: the row it has read, and whether it has deleted or marked
it. -/
inductive DownloadPhase where
  | waiting
  | read (t : FileTransfer)
  | settled (t : FileTransfer)

/-- What one statement of a transfer call can be, phase by phase. -/
inductive TransferStep (c : TransferCall) :
    DownloadPhase → (q : Stmt) → Except SqlError q.Result → DownloadPhase → Prop
  | look (q : Stmt) (res : Except SqlError q.Result) (reads : q.readOnly = true) :
      TransferStep c .waiting q res .waiting
  | sweep (account : Uuid) (res : Except SqlError Unit) :
      TransferStep c .waiting (.expireTransfers account) res .waiting
  | remove (id account device : Uuid) (res : Except SqlError Nat) :
      TransferStep c .waiting (.deleteTransfer id account device) res .waiting
  | fetch (claims : AccessClaims) (id : Uuid) (t : FileTransfer)
      (call : c = .download (some claims) id) :
      TransferStep c .waiting (.transferRow id claims.sub) (.ok (some t)) (.read t)
  | clock (t : FileTransfer) (res : Except SqlError Time) : TransferStep c (.read t) .now res (.read t)
  | expire (bearer : Option AccessClaims) (id : Uuid) (t : FileTransfer)
      (call : c = .download bearer id) (temporary : t.permanent = false)
      (res : Except SqlError Unit) :
      TransferStep c (.read t) (.expireTransfer id) res .waiting
  | consume (claims : AccessClaims) (id : Uuid) (t : FileTransfer)
      (call : c = .download (some claims) id) (marked : t.deleteOnDownload = true) :
      TransferStep c (.read t) (.consumeTransfer id) (.ok ()) (.settled t)
  | consumeFailed (id : Uuid) (t : FileTransfer) (e : SqlError) :
      TransferStep c (.read t) (.consumeTransfer id) (.error e) .waiting
  | mark (claims : AccessClaims) (id : Uuid) (t : FileTransfer)
      (call : c = .download (some claims) id) (unmarked : t.deleteOnDownload = false) :
      TransferStep c (.read t) (.markDelivered id) (.ok ()) (.settled t)
  | markFailed (id : Uuid) (t : FileTransfer) (e : SqlError) :
      TransferStep c (.read t) (.markDelivered id) (.error e) .waiting

/-- The transfer a call answers with, and the phase in which it does. -/
def TransferCall.Answers (c : TransferCall) (phase : DownloadPhase)
    (answer : Except ApiError Response) : Prop :=
  ∀ sender size ct, answer = .ok (.transferBlob sender size ct) →
    ∃ claims id t, c = .download (some claims) id ∧ t.visibleTo claims.dev = true ∧
      sender = t.senderDevice ∧ size = t.sizeBytes ∧ ct = t.ciphertext ∧
      phase = if t.senderDevice = claims.dev then .read t else .settled t

theorem TransferCall.answers_error (c : TransferCall) (phase : DownloadPhase) (e : ApiError) :
    c.Answers phase (.error e) := nofun

theorem settleDownload_follows {claims : AccessClaims} {id : Uuid} {t : FileTransfer}
    (visible : t.visibleTo claims.dev = true) :
    (do settleDownload { account := claims.sub, device := claims.dev } id t
        pure (.transferBlob t.senderDevice t.sizeBytes t.ciphertext) : Handler Response).Follows
      (TransferStep (.download (some claims) id))
      (TransferCall.download (some claims) id).Answers (.read t) := by
  have answered : ∀ phase, phase = (if t.senderDevice = claims.dev then .read t else .settled t) →
      (TransferCall.download (some claims) id).Answers phase
        (.ok (.transferBlob t.senderDevice t.sizeBytes t.ciphertext)) := by
    rintro phase rfl sender size ct eq
    cases eq
    exact ⟨claims, id, t, rfl, visible, rfl, rfl, rfl, rfl⟩
  unfold settleDownload
  split <;> rename_i own
  · simp only [follows_bind, follows_pure, follows_andThen_ok]
    exact answered _ (by rw [if_pos own])
  split <;> rename_i marked
  · simp only [follows_bind, follows_sql, follows_andThen_ok, follows_andThen_error, follows_pure]
    refine ⟨fun _ => ⟨_, .consume claims id t rfl marked, answered _ (by rw [if_neg own])⟩,
      fun e => ⟨_, .consumeFailed id t e, TransferCall.answers_error _ _ _⟩⟩
  · simp only [follows_bind, follows_sql, follows_andThen_ok, follows_andThen_error, follows_pure]
    refine ⟨fun _ => ⟨_, .mark claims id t rfl (by simpa using marked),
        answered _ (by rw [if_neg own])⟩,
      fun e => ⟨_, .markFailed id t e, TransferCall.answers_error _ _ _⟩⟩

theorem transferDownload_follows (bearer : Option AccessClaims) (id : Uuid) :
    (transferDownload bearer id).Follows (TransferStep (.download bearer id))
      (TransferCall.download bearer id).Answers .waiting := by
  rw [transferDownload, follows_bind]
  refine (verifyWithKind_within _ _).follows
    (fun q res check => .look q res (Stmt.readOnly_of_isTokenCheck check)) ?_
    (TransferCall.answers_error _ _)
  rintro a ⟨claims, rfl, -, rfl⟩
  simp only [follows_andThen_ok, follows_bind, follows_sql]
  refine ⟨fun row => ?_, fun e => ⟨_, .look _ _ rfl, TransferCall.answers_error _ _ _⟩⟩
  cases row with
  | none =>
      refine ⟨_, .look _ _ rfl, ?_⟩
      simp only [follows_andThen_ok, follows_okOr, follows_bind, reduceCtorEq, false_implies,
        implies_true, true_and, follows_andThen_error, true_implies]
      exact TransferCall.answers_error _ _ _
  | some t =>
      refine ⟨_, .fetch claims id t rfl, ?_⟩
      simp only [follows_andThen_ok, follows_okOr, follows_bind, Option.some.injEq, reduceCtorEq,
        false_implies, and_true, forall_eq']
      have last : (do
          ensure (t.visibleTo claims.dev) .forbidden
          settleDownload { account := claims.sub, device := claims.dev } id t
          pure (.transferBlob t.senderDevice t.sizeBytes t.ciphertext) : Handler Response).Follows
          (TransferStep (.download (some claims) id))
          (TransferCall.download (some claims) id).Answers (.read t) := by
        rw [follows_bind, follows_ensure]
        exact ⟨settleDownload_follows, fun _ => TransferCall.answers_error _ _ _⟩
      unfold expireOnDownload
      split <;> rename_i permanent
      · exact last
      simp only [follows_bind, follows_sql, follows_andThen_ok, follows_andThen_error]
      refine ⟨fun now => ⟨_, .clock t _, ?_⟩,
        fun e => ⟨_, .clock t _, TransferCall.answers_error _ _ _⟩⟩
      split
      · simp only [follows_bind, follows_sql, follows_andThen_ok, follows_andThen_error,
          follows_throw]
        exact ⟨fun _ => ⟨_, .expire _ id t rfl (by simpa using permanent) _,
            TransferCall.answers_error _ _ _⟩,
          fun e => ⟨_, .expire _ id t rfl (by simpa using permanent) _,
            TransferCall.answers_error _ _ _⟩⟩
      · exact last

theorem TransferCall.handler_follows (c : TransferCall) :
    c.handler.Follows (TransferStep c) c.Answers .waiting := by
  cases c with
  | download bearer id => exact transferDownload_follows bearer id
  | delete bearer id =>
      rw [TransferCall.handler, transferDelete, follows_bind]
      refine (verifyWithKind_within _ _).follows
        (fun q res check => .look q res (Stmt.readOnly_of_isTokenCheck check)) ?_
        (TransferCall.answers_error _ _)
      intro a _
      simp only [follows_andThen_ok, follows_bind, follows_sql, follows_ensure, follows_pure,
        follows_andThen_error]
      exact ⟨fun n => ⟨_, .remove _ _ _ _, by rintro _ _ _ _ ⟨⟩, by rintro _ _ _ _ ⟨⟩⟩,
        fun e => ⟨_, .remove _ _ _ _, by rintro _ _ _ ⟨⟩⟩⟩
  | list bearer =>
      rw [TransferCall.handler, transferList, follows_bind]
      refine (verifyWithKind_within _ _).follows
        (fun q res check => .look q res (Stmt.readOnly_of_isTokenCheck check)) ?_
        (TransferCall.answers_error _ _)
      intro a _
      simp only [follows_andThen_ok, follows_bind, follows_sql, follows_pure,
        follows_andThen_error]
      exact ⟨fun _ => ⟨_, .sweep _ _, fun rows => ⟨_, .look _ _ rfl, by rintro _ _ _ ⟨⟩⟩,
          fun e => ⟨_, .look _ _ rfl, by rintro _ _ _ ⟨⟩⟩⟩,
        fun e => ⟨_, .sweep _ _, by rintro _ _ _ ⟨⟩⟩⟩

variable {ι : Type}

/-- Every `DELETE` of a download finds the row still there. -/
def ConsumesFindRow (h : List (Event ι Stmt Db)) : Prop :=
  ∀ e ∈ h, ∀ id, e.q = .consumeTransfer id → e.before.fileTransfers.find? id ≠ none

instance (h : List (Event ι Stmt Db)) : Decidable (ConsumesFindRow h) :=
  decidable_of_iff (∀ e ∈ h, (match e.q with
      | .consumeTransfer id => (e.before.fileTransfers.find? id).isSome
      | _ => true) = true) <| by
    refine forall₂_congr fun e _ => ?_
    cases e.q <;> simp [Option.isSome_iff_ne_none]

/-- What holds between the statements of any number of transfer calls that started from
the database `db₀`. -/
structure TransferInvariant (db₀ : Db) (calls : ι → TransferCall) (h : List (Event ι Stmt Db))
    (ph : ι → DownloadPhase) (db : Db) : Prop where
  /-- The rows are old ones, and a permanent one has not expired. -/
  origin : ∀ row ∈ db.fileTransfers.rows, ∃ t ∈ db₀.fileTransfers.rows, t.SameAs row ∧
    (t.permanent = true → t.state ≠ .expired → row.state ≠ .expired)
  /-- What a download has read is a row of its account under the id it asked for. -/
  held : ∀ i t, ph i = .read t ∨ ph i = .settled t → ∃ claims t₀,
    calls i = .download (some claims) t.id ∧ t₀ ∈ db₀.fileTransfers.rows ∧ t₀.SameAs t ∧
    t.account = claims.sub
  /-- A consumed transfer is gone. -/
  gone : ∀ i t, ph i = .settled t → t.deleteOnDownload = true → db.fileTransfers.find? t.id = none
  once : ConsumesFindRow h → ∀ i j t u, ph i = .settled t → ph j = .settled u → t.id = u.id →
    t.deleteOnDownload = true → u.deleteOnDownload = true → i = j

namespace TransferInvariant

variable {db₀ : Db} {calls : ι → TransferCall} {h : List (Event ι Stmt Db)}
variable {ph : ι → DownloadPhase} {db : Db} {env : Env}

/-- Two rows of one id come from the same transfer. -/
theorem permanent_eq (inv : TransferInvariant db₀ calls h ph db) {i : ι} {t row : FileTransfer}
    (holds : ph i = .read t) (mem : row ∈ db.fileTransfers.rows) (same : row.id = t.id) :
    row.permanent = t.permanent := by
  obtain ⟨-, t₀, -, old, sameT, -⟩ := inv.held i t (.inl holds)
  obtain ⟨r₀, oldR, sameR, -⟩ := inv.origin row mem
  have ids : r₀.id = t₀.id := by
    rw [sameR, sameT] at same
    exact same
  obtain rfl : r₀ = t₀ := List.inj_on_of_nodup_map db₀.fileTransfers.nodup oldR old ids
  rw [sameR, sameT]

theorem origin_of_shrink (inv : TransferInvariant db₀ calls h ph db) {db' : Db}
    (shrink : TransfersShrink db db') : ∀ row ∈ db'.fileTransfers.rows,
    ∃ t ∈ db₀.fileTransfers.rows, t.SameAs row ∧
      (t.permanent = true → t.state ≠ .expired → row.state ≠ .expired) := by
  intro row mem
  obtain ⟨u, now, same, expires⟩ := shrink row mem
  obtain ⟨t, old, sameT, kept⟩ := inv.origin u now
  refine ⟨t, old, sameT.trans same, fun permanent live expired => ?_⟩
  rcases expires expired with already | temporary
  · exact kept permanent live already
  · rw [sameT] at temporary
    rw [permanent] at temporary
    cases temporary

theorem gone_of_shrink (inv : TransferInvariant db₀ calls h ph db) {db' : Db}
    (shrink : TransfersShrink db db') {i : ι} {t : FileTransfer} (phase : ph i = .settled t)
    (marked : t.deleteOnDownload = true) : db'.fileTransfers.find? t.id = none := by
  have absent := Table.find?_eq_none_iff.mp (inv.gone i t phase marked)
  refine Table.find?_eq_none_iff.mpr fun row mem same => ?_
  obtain ⟨u, now, sameU, -⟩ := shrink row mem
  refine absent u now ?_
  rw [sameU] at same
  exact same

variable [DecidableEq ι]

/-- A statement after which no new download has settled. -/
theorem quiet (inv : TransferInvariant db₀ calls h ph db) {i : ι} {q : Stmt} {b : DownloadPhase}
    (shrink : TransfersShrink db (Stmt.exec env q db).2)
    (next : ∀ t, b = .read t ∨ b = .settled t → ∃ claims t₀,
      calls i = .download (some claims) t.id ∧ t₀ ∈ db₀.fileTransfers.rows ∧ t₀.SameAs t ∧
      t.account = claims.sub)
    (unsettled : ∀ t, b = .settled t → t.deleteOnDownload = false) :
    TransferInvariant db₀ calls (h ++ [⟨i, q, db⟩]) (Function.update ph i b)
      (Stmt.exec env q db).2 := by
  have old : ∀ j t, Function.update ph i b j = .settled t → t.deleteOnDownload = true →
      ph j = .settled t := by
    intro j t phase marked
    by_cases same : j = i
    · subst same
      rw [Function.update_self] at phase
      rw [unsettled t phase] at marked
      cases marked
    · rwa [Function.update_of_ne same] at phase
  constructor
  · exact inv.origin_of_shrink shrink
  · intro j t phase
    by_cases same : j = i
    · subst same
      rw [Function.update_self] at phase
      exact next t phase
    · rw [Function.update_of_ne same] at phase
      exact inv.held j t phase
  · intro j t phase marked
    exact inv.gone_of_shrink shrink (old j t phase marked) marked
  · intro finds j k t u hj hk ids markedT markedU
    exact inv.once (fun e mem => finds e (List.mem_append_left _ mem)) j k t u
      (old j t hj markedT) (old k u hk markedU) ids markedT markedU

/-- The `DELETE` of a download. -/
theorem consume (inv : TransferInvariant db₀ calls h ph db) {i : ι} {id : Uuid} {t : FileTransfer}
    (phase : ph i = .read t) (here : t.id = id) :
    TransferInvariant db₀ calls (h ++ [⟨i, .consumeTransfer id, db⟩])
      (Function.update ph i (.settled t)) (Stmt.exec env (.consumeTransfer id) db).2 := by
  have shrink : TransfersShrink db (Stmt.exec env (.consumeTransfer id) db).2 :=
    .of_deleteWhere rfl
  constructor
  · exact inv.origin_of_shrink shrink
  · intro j u phaseU
    by_cases same : j = i
    · subst same
      rw [Function.update_self] at phaseU
      rcases phaseU with eq | eq <;> cases eq
      exact inv.held j t (.inl phase)
    · rw [Function.update_of_ne same] at phaseU
      exact inv.held j u phaseU
  · intro j u phaseU marked
    by_cases same : j = i
    · subst same
      rw [Function.update_self] at phaseU
      cases phaseU
      refine Table.find?_eq_none_iff.mpr fun row mem eq => ?_
      have kept := (List.mem_filter.mp mem).2
      simp [eq.trans here] at kept
    · rw [Function.update_of_ne same] at phaseU
      exact inv.gone_of_shrink shrink phaseU marked
  · intro finds
    have found : db.fileTransfers.find? id ≠ none :=
      finds _ (List.mem_append_right _ (List.mem_singleton_self _)) id rfl
    have before := inv.once fun e mem => finds e (List.mem_append_left _ mem)
    have alone : ∀ j u, ph j = .settled u → u.deleteOnDownload = true → u.id ≠ t.id := by
      intro j u phaseU marked ids
      exact found (here ▸ ids ▸ inv.gone j u phaseU marked)
    intro j k u w hj hk ids markedU markedW
    by_cases sameJ : j = i <;> by_cases sameK : k = i
    · rw [sameJ, sameK]
    · subst sameJ
      rw [Function.update_self] at hj
      cases hj
      rw [Function.update_of_ne sameK] at hk
      exact absurd ids.symm (alone k w hk markedW)
    · subst sameK
      rw [Function.update_self] at hk
      cases hk
      rw [Function.update_of_ne sameJ] at hj
      exact absurd ids (alone j u hj markedU)
    · rw [Function.update_of_ne sameJ] at hj
      rw [Function.update_of_ne sameK] at hk
      exact before j k u w hj hk ids markedU markedW

/-- One statement of one call. -/
theorem step (inv : TransferInvariant db₀ calls h ph db) {i : ι} {q : Stmt} {b : DownloadPhase}
    (step : TransferStep (calls i) (ph i) q (Stmt.exec env q db).1 b) :
    TransferInvariant db₀ calls (h ++ [⟨i, q, db⟩]) (Function.update ph i b)
      (Stmt.exec env q db).2 := by
  generalize phase : ph i = a at step
  generalize result : (Stmt.exec env q db).1 = res at step
  cases step with
  | look q res reads =>
      refine inv.quiet (.of_eq ?_) (by simp) (by simp)
      rw [Stmt.exec_readOnly reads]
  | sweep account res =>
      refine inv.quiet (.of_updateWhere rfl fun _ t _ chosen => ?_) (by simp) (by simp)
      exact (of_decide_eq_true chosen).2.2.1
  | remove id account device res =>
      exact inv.quiet (.of_deleteWhere rfl) (by simp) (by simp)
  | fetch claims id t call =>
      refine inv.quiet (.of_eq rfl) ?_ (by simp)
      rintro u (eq | eq) <;> cases eq
      have row := Except.ok.inj result
      rw [Option.filter_eq_some_iff] at row
      obtain ⟨found, belongs⟩ := row
      obtain ⟨t₀, old, same, -⟩ := inv.origin t (Table.mem_of_find? found)
      refine ⟨claims, t₀, ?_, old, same, (of_decide_eq_true belongs).1⟩
      rw [call, show t.id = id from Table.key_of_find? found]
  | clock t res =>
      refine inv.quiet (.of_eq rfl) ?_ (by simp)
      rintro u (eq | eq) <;> cases eq
      exact inv.held i t (.inl phase)
  | expire bearer id t call temporary res =>
      obtain ⟨claims, -, asked, -⟩ := inv.held i t (.inl phase)
      obtain rfl : t.id = id := by
        rw [call] at asked
        cases asked
        rfl
      refine inv.quiet (.of_updateWhere rfl fun _ row mem chosen => ?_) (by simp) (by simp)
      rw [inv.permanent_eq phase mem (of_decide_eq_true chosen), temporary]
  | consume claims id t call marked =>
      obtain ⟨_, -, asked, -⟩ := inv.held i t (.inl phase)
      refine inv.consume phase ?_
      rw [call] at asked
      cases asked
      rfl
  | consumeFailed id t e => cases result
  | mark claims id t call unmarked =>
      refine inv.quiet (.of_updateWhere rfl nofun) ?_ ?_
      · rintro u (eq | eq) <;> cases eq
        exact inv.held i t (.inl phase)
      · rintro u eq
        cases eq
        exact unmarked
  | markFailed id t e => cases result

end TransferInvariant

section Runs

variable [DecidableEq ι] (env : Env) (db : Db) (calls : ι → TransferCall) (ls : List (Label ι Nat))

/-- The calls of the pool. -/
def transferCalls : ι → Handler Response := fun i => (calls i).handler

/-- The request has received the contents of a transfer. -/
def Received (i : ι) : Prop :=
  ∃ sender size ct, Answered env db (transferCalls calls) ls i (.ok (.transferBlob sender size ct))

/-- The promises about transfers, after a schedule. -/
structure TransfersKept : Prop where
  /-- A transfer that is deleted on download goes to one request of a recipient. -/
  once : ∀ t ∈ db.fileTransfers.rows, t.deleteOnDownload = true → ∀ i j (c d : AccessClaims),
    calls i = .download (some c) t.id → calls j = .download (some d) t.id →
    c.dev ≠ t.senderDevice → d.dev ≠ t.senderDevice →
    Received env db calls ls i → Received env db calls ls j → i = j
  /-- Contents go to the sender and the recipients only. -/
  authorized : ∀ i sender size ct,
    Answered env db (transferCalls calls) ls i (.ok (.transferBlob sender size ct)) →
    ∃ claims, ∃ t ∈ db.fileTransfers.rows, calls i = .download (some claims) t.id ∧
      sender = t.senderDevice ∧ size = t.sizeBytes ∧ ct = t.ciphertext ∧
      t.account = claims.sub ∧ (t.senderDevice = claims.dev ∨ t.recipientDevice = none ∨
        t.recipientDevice = some claims.dev)
  /-- A permanent transfer does not expire. -/
  permanent : ∀ t ∈ db.fileTransfers.rows, t.permanent = true → t.state ≠ .expired →
    ∀ row ∈ (serve env db (transferCalls calls) ls).shared.fileTransfers.rows, row.id = t.id →
      row.state ≠ .expired

theorem transfers_invariant :
    ∃ ph, (∀ i, Handler.Follows ((serve env db (transferCalls calls) ls).prog i)
      (TransferStep (calls i)) (calls i).Answers (ph i)) ∧
    TransferInvariant db calls (history env db (transferCalls calls) ls) ph
      (serve env db (transferCalls calls) ls).shared :=
  serve_phases env db (transferCalls calls)
    (fun _ _ _ _ _ _ step inv => inv.step step)
    (fun _ _ _ _ inv => ⟨inv.origin, inv.held, inv.gone, inv.once⟩)
    (fun i => (calls i).handler_follows)
    ⟨fun row mem => ⟨row, mem, .refl row, fun _ live => live⟩, by simp, by simp, by simp⟩ ls

end Runs

/-- On every schedule of any number of downloads, deletions and listings, starting from
any database: if every `DELETE` of a download finds its row, the promises hold. -/
theorem transfers_kept [DecidableEq ι] (env : Env) (db : Db) (calls : ι → TransferCall)
    (ls : List (Label ι Nat))
    (finds : ConsumesFindRow (history env db (transferCalls calls) ls)) :
    TransfersKept env db calls ls := by
  obtain ⟨ph, follows, inv⟩ := transfers_invariant env db calls ls
  have origin : ∀ t ∈ db.fileTransfers.rows, ∀ i u c, (ph i = .read u ∨ ph i = .settled u) →
      calls i = .download (some c) t.id → t.SameAs u ∧ u.id = t.id ∧ u.account = c.sub := by
    intro t mem i u c phase call
    obtain ⟨claims, t₀, asked, old, same, account⟩ := inv.held i u phase
    rw [call] at asked
    injection asked with bearer ids
    cases bearer
    have key : t.id = t₀.id := ids.trans (by rw [same])
    obtain rfl : t = t₀ := List.inj_on_of_nodup_map db.fileTransfers.nodup mem old key
    exact ⟨same, ids.symm, account⟩
  have settled : ∀ t ∈ db.fileTransfers.rows, ∀ i c, calls i = .download (some c) t.id →
      c.dev ≠ t.senderDevice → Received env db calls ls i → ∃ u, ph i = .settled u ∧
        u.id = t.id ∧ u.deleteOnDownload = t.deleteOnDownload := by
    rintro t mem i c call other ⟨sender, size, ct, answered⟩
    obtain ⟨claims, id, u, asked, -, -, -, -, phase⟩ :=
      answered.final (follows i) sender size ct rfl
    rw [call] at asked
    injection asked with bearer
    cases bearer
    have held : ph i = .read u ∨ ph i = .settled u := by
      rw [phase]
      split <;> simp
    obtain ⟨same, ids, -⟩ := origin t mem i u c held call
    have sender : u.senderDevice = t.senderDevice := by rw [same]
    rw [if_neg (by rw [sender]; exact fun eq => other eq.symm)] at phase
    exact ⟨u, phase, ids, by rw [same]⟩
  constructor
  · intro t mem marked i j c d callI callJ otherI otherJ gotI gotJ
    obtain ⟨u, phaseU, idU, markU⟩ := settled t mem i c callI otherI gotI
    obtain ⟨w, phaseW, idW, markW⟩ := settled t mem j d callJ otherJ gotJ
    exact inv.once finds i j u w phaseU phaseW (idU.trans idW.symm) (markU.trans marked)
      (markW.trans marked)
  · intro i sender size ct answered
    obtain ⟨claims, id, u, asked, visible, rfl, rfl, rfl, phase⟩ :=
      answered.final (follows i) sender size ct rfl
    have held : ph i = .read u ∨ ph i = .settled u := by
      rw [phase]
      split <;> simp
    obtain ⟨claims', t₀, asked', old, same, account⟩ := inv.held i u held
    obtain rfl : claims = claims' := by
      rw [asked] at asked'
      cases asked'
      rfl
    refine ⟨claims, t₀, old, ?_, by rw [same], by rw [same], by rw [same], ?_, ?_⟩
    · rw [asked', same]
    · rw [← account, same]
    · have seen := of_decide_eq_true visible
      rw [same] at seen
      exact seen
  · intro t mem permanent live row now same
    obtain ⟨t₀, old, sameT, kept⟩ := inv.origin row now
    have ids : t₀.id = t.id := by
      rw [sameT] at same
      exact same
    obtain rfl : t₀ = t := List.inj_on_of_nodup_map db.fileTransfers.nodup old mem ids
    exact kept permanent live

/-- Account 10 with three approved devices; device 11 has left a transfer for the others
that is deleted on download. -/
def openDrop : Db where
  accounts := ownAccounts
  devices := ⟨[11, 12, 13].map fun id =>
    { id, account := 10, name := "device", platform := .macos, status := .approved
      phonePubP256 := none, pushToken := none, approvedBy := none, createdAt := 0 }, by decide⟩
  fileTransfers := ⟨[{ id := 14, account := 10, senderDevice := 11, recipientDevice := none
                       sizeBytes := 3, ciphertext := [1, 2, 3], state := .pending, createdAt := 0
                       expiresAt := 86400000000, deleteOnDownload := true, permanent := false }],
    by decide⟩
  issued := [11, 12, 13].map fun dev => { sub := 10, dev, iat := 0, exp := 600, tok := .access }
  supply := 20

/-- Devices 12 and 13 download it. -/
def rivalDownloads : Bool → TransferCall
  | false => .download (some { sub := 10, dev := 12, iat := 0, exp := 600, tok := .access }) 14
  | true => .download (some { sub := 10, dev := 13, iat := 0, exp := 600, tok := .access }) 14

/-- One download after the other. -/
def orderlyDownloads : List (Label Bool Nat) :=
  [false, false, false, false, false, true, true, true].map .thread

/-- The first download receives the contents and the second finds nothing. -/
theorem orderlyDownloads_kept :
    Received Env.bare openDrop rivalDownloads orderlyDownloads false ∧
      Answered Env.bare openDrop (transferCalls rivalDownloads) orderlyDownloads true
        (.error .notFound) ∧
      TransfersKept Env.bare openDrop rivalDownloads orderlyDownloads :=
  ⟨⟨11, 3, [1, 2, 3], rfl⟩, rfl, transfers_kept _ _ _ _ (by decide +kernel)⟩

/-- Both downloads read the row before either deletes it. -/
def overlappingDownloads : List (Label Bool Nat) :=
  [false, false, false, true, true, true, false, false, true, true].map .thread

/-- Both downloads receive the contents. -/
theorem overlappingDownloads_not_kept :
    ¬ TransfersKept Env.bare openDrop rivalDownloads overlappingDownloads := by
  intro kept
  have first : Received Env.bare openDrop rivalDownloads overlappingDownloads false :=
    ⟨11, 3, [1, 2, 3], rfl⟩
  have second : Received Env.bare openDrop rivalDownloads overlappingDownloads true :=
    ⟨11, 3, [1, 2, 3], rfl⟩
  have same := kept.once _ (List.mem_singleton_self _) rfl false true _ _ rfl rfl (by decide)
    (by decide) first second
  cases same

end Sentinel.Api
