import Sentinel.Api.Sessions

/-!
# The key escrow

`wrapped_put` stores a blob under the account, its type and a device id or none; `wrapped_get` asks
for the account and the type alone and takes the first row the database gives. Here the calls of an
account are made one after another. Between two calls everything but the rows of `wrapped_keys` may
change, and these may come in another order.
-/

namespace Sentinel.Api

open Atomic Relational Handler

/-! ## Runs -/

inductive EscrowCall where
  | put (wt : Int) (req : WrappedPutReq)
  | get (wt : Int)
  | delete (wt : Int)

def EscrowCall.handler (bearer : Option AccessClaims) : EscrowCall → Handler Response
  | .put wt req => wrappedPut bearer wt req
  | .get wt => wrappedGet bearer wt
  | .delete wt => wrappedDelete bearer wt

structure EscrowEntry where
  call : EscrowCall
  answer : Except ApiError Response

/-- What is stored of a type after a call. -/
def EscrowEntry.update (wt : Int) (stored : Option Bytes) (e : EscrowEntry) : Option Bytes :=
  match e.answer with
  | .error _ => stored
  | .ok _ =>
      match e.call with
      | .put wt' req => if wt' = wt then req.blob else stored
      | .get _ => stored
      | .delete wt' => if wt' = wt then none else stored

/-- The blob of the last put that succeeded, if no deletion came after it. -/
def lastStored (wt : Int) (h : List EscrowEntry) : Option Bytes :=
  h.foldl (EscrowEntry.update wt) none

/-- The calls of an account that had no keys. -/
inductive EscrowRun (env : Env) (account : Uuid) : List EscrowEntry → Db → Prop
  | start {db : Db} (fresh : ∀ w ∈ db.wrappedKeys.rows, w.account ≠ account) :
      EscrowRun env account [] db
  | call {h : List EscrowEntry} {db db' : Db} (bearer : Option AccessClaims) (q : EscrowCall)
      (run : EscrowRun env account h db) (own : ∀ claims ∈ bearer, claims.sub = account)
      (order : db'.wrappedKeys.rows.Perm db.wrappedKeys.rows) :
      EscrowRun env account (h ++ [⟨q, ((q.handler bearer).perform env db').1⟩])
        ((q.handler bearer).perform env db').2

/-- The blobs of a type, in the order of the rows. -/
def WrappedKeys.blobs (t : WrappedKeys) (account : Uuid) (wt : Int) : List Bytes :=
  (t.view fun w => decide (w.account = account ∧ w.wrapperType = wt)).map WrappedKey.blob

/-- A row of the type holds what is stored. -/
def Tracked (stored : Option Bytes) (blobs : List Bytes) : Prop :=
  match stored with
  | none => blobs = []
  | some b => b ∈ blobs

/-! ## One call -/

theorem perform_verifyAccess (env : Env) (bearer : Option AccessClaims) (db : Db) :
    (verifyAccess bearer).perform env db = (.error .unauthorized, db) ∨
      ∃ claims, bearer = some claims ∧
        (verifyAccess bearer).perform env db = (.ok ⟨claims.sub, claims.dev⟩, db) := by
  cases bearer with
  | none => exact .inl rfl
  | some claims =>
      by_cases genuine : claims ∈ db.issued
      · by_cases current : unixTimestamp db.clock ≤ claims.exp + tokenLeewaySecs
        · by_cases access : claims.tok = .access
          · refine .inr ⟨claims, rfl, ?_⟩
            simp [verifyAccess, verifyWithKind, nowSecs, perform_okOr, perform_ensure, Stmt.exec,
              Except.mapError, genuine, current, access]
          · refine .inl ?_
            simp [verifyAccess, verifyWithKind, nowSecs, perform_okOr, perform_ensure, Stmt.exec,
              Except.mapError, genuine, current, access]
        · refine .inl ?_
          simp [verifyAccess, verifyWithKind, nowSecs, perform_okOr, perform_ensure, Stmt.exec,
            Except.mapError, genuine, current]
      · refine .inl ?_
        simp [verifyAccess, verifyWithKind, perform_okOr, perform_ensure, Stmt.exec,
          Except.mapError, genuine]

theorem perform_requireApprovedDevice (env : Env) (device : Uuid) (db : Db) :
    ∃ r, (requireApprovedDevice device).perform env db = (r, db) := by
  unfold requireApprovedDevice
  simp only [perform_bind, perform_sql, Stmt.exec, Except.mapError, perform_andThen_ok,
    perform_okOr]
  generalize (db.devices.find? device).map Device.status = status
  cases status with
  | none => exact ⟨_, rfl⟩
  | some st => exact ⟨_, perform_ensure _ _ _ _⟩

/-- A caller is turned away with nothing changed, or the handler goes on for its account. -/
theorem perform_admission (env : Env) (bearer : Option AccessClaims) (db : Db) :
    (∃ e, ∀ f : Auth → Handler Response, (do
        let a ← verifyAccess bearer
        requireApprovedDevice a.device
        f a).perform env db = (.error e, db)) ∨
      ∃ claims, bearer = some claims ∧ ∀ f : Auth → Handler Response, (do
        let a ← verifyAccess bearer
        requireApprovedDevice a.device
        f a).perform env db = (f ⟨claims.sub, claims.dev⟩).perform env db := by
  obtain refused | ⟨claims, rfl, passed⟩ := perform_verifyAccess env bearer db
  · refine .inl ⟨.unauthorized, fun f => ?_⟩
    rw [perform_bind, refused]
    rfl
  · obtain ⟨r, approved⟩ := perform_requireApprovedDevice env claims.dev db
    cases r with
    | error e =>
        refine .inl ⟨e, fun f => ?_⟩
        rw [perform_bind, passed, perform_andThen_ok, perform_bind, approved]
        rfl
    | ok _ =>
        refine .inr ⟨claims, rfl, fun f => ?_⟩
        rw [perform_bind, passed, perform_andThen_ok, perform_bind, approved]
        rfl

/-! ## Every call keeps the last blob -/

section Rows

variable {account : Uuid} {wt : Int} {t u : WrappedKeys}

theorem blobs_perm (order : t.rows.Perm u.rows) : (t.blobs account wt).Perm (u.blobs account wt) :=
  (order.filter _).map _

theorem Tracked.perm {stored : Option Bytes} {blobs blobs' : List Bytes}
    (tracked : Tracked stored blobs) (order : blobs'.Perm blobs) : Tracked stored blobs' := by
  cases stored with
  | none =>
      rw [Tracked] at tracked ⊢
      subst tracked
      exact order.eq_nil
  | some b => exact order.mem_iff.mpr tracked

/-- The rows of another type are not touched. -/
theorem blobs_insertOr_of_ne {r : WrappedKey} {f : WrappedKey → WrappedKey}
    (keyed : ∀ x, (fun w : WrappedKey => (w.account, w.wrapperType, w.deviceKey)) (f x) =
      (fun w : WrappedKey => (w.account, w.wrapperType, w.deviceKey)) x)
    (other : r.wrapperType ≠ wt) :
    WrappedKeys.blobs (Table.insertOr t r f keyed) account wt = t.blobs account wt := by
  refine congrArg (List.map WrappedKey.blob) (Table.SameRows.of_insertOr t keyed ?_ ?_ ?_)
  · intro x
    obtain ⟨accounts, rest⟩ := Prod.mk.inj (keyed x)
    rw [accounts, (Prod.mk.inj rest).1]
  · exact decide_eq_false fun both => other both.2
  · intro x _ same
    obtain ⟨-, rest⟩ := Prod.mk.inj same
    exact decide_eq_false fun both => other ((Prod.mk.inj rest).1.symm.trans both.2)

theorem mem_blobs_insertOr {r : WrappedKey} {f : WrappedKey → WrappedKey}
    (keyed : ∀ x, (fun w : WrappedKey => (w.account, w.wrapperType, w.deviceKey)) (f x) =
      (fun w : WrappedKey => (w.account, w.wrapperType, w.deviceKey)) x)
    (blob : ∀ x, (f x).blob = r.blob) :
    r.blob ∈ WrappedKeys.blobs (Table.insertOr t r f keyed) r.account r.wrapperType := by
  have found := Table.find?_insertOr t r f keyed (r.account, r.wrapperType, r.deviceKey)
  rw [if_pos rfl] at found
  obtain ⟨mem, key⟩ := Table.find?_eq_some_iff.mp found
  obtain ⟨accounts, rest⟩ := Prod.mk.inj key
  refine List.mem_map.mpr ⟨_, List.mem_filter.mpr ⟨mem, ?_⟩, ?_⟩
  · exact decide_eq_true ⟨accounts, (Prod.mk.inj rest).1⟩
  · cases t.find? (r.account, r.wrapperType, r.deviceKey) with
    | none => rfl
    | some x => exact blob x

theorem blobs_deleteWhere : WrappedKeys.blobs (t.deleteWhere fun w =>
    decide (w.account = account ∧ w.wrapperType = wt)) account wt = [] := by
  rw [WrappedKeys.blobs, Table.view_deleteWhere]
  refine List.map_eq_nil_iff.mpr (List.filter_eq_nil_iff.mpr fun w mem => ?_)
  have inside := (List.mem_filter.mp mem).2
  rw [inside]
  exact Bool.false_ne_true

theorem blobs_deleteWhere_of_ne {wt' : Int} (other : wt' ≠ wt) :
    WrappedKeys.blobs (t.deleteWhere fun w =>
      decide (w.account = account ∧ w.wrapperType = wt')) account wt = t.blobs account wt := by
  refine congrArg (List.map WrappedKey.blob) (Table.view_deleteWhere_of_disjoint t ?_)
  intro w _ gone
  exact decide_eq_false fun both => other ((of_decide_eq_true gone).2.symm.trans both.2)

/-- The first blob is what is stored in every order of the rows exactly when all are the same. -/
theorem head?_blobs_iff {stored : Option Bytes} (tracked : Tracked stored (u.blobs account wt)) :
    (∀ t : WrappedKeys, t.rows.Perm u.rows → (t.blobs account wt).head? = stored) ↔
      ∀ b ∈ u.blobs account wt, ∀ b' ∈ u.blobs account wt, b = b' := by
  constructor
  · intro every
    have first : ∀ b ∈ u.blobs account wt, stored = some b := by
      intro b mem
      obtain ⟨w, inside, rfl⟩ := List.mem_map.mp mem
      obtain ⟨row, here⟩ := List.mem_filter.mp inside
      have order : (w :: u.rows.erase w).Perm u.rows := (List.perm_cons_erase row).symm
      rw [← every ⟨w :: u.rows.erase w, (order.map _).nodup_iff.mpr u.nodup⟩ order]
      have first : (w :: u.rows.erase w).filter _ = _ := List.filter_cons_of_pos
        (p := fun w => decide (w.account = account ∧ w.wrapperType = wt)) here
      exact congrArg (fun rows => (rows.map WrappedKey.blob).head?) first
    intro b mem b' mem'
    exact Option.some.inj ((first b mem).symm.trans (first b' mem'))
  · intro one t order
    have there := tracked.perm (blobs_perm order)
    cases stored with
    | none =>
        rw [Tracked] at there
        rw [there]
        rfl
    | some b =>
        cases blobs : t.blobs account wt with
        | nil =>
            rw [blobs] at there
            cases there
        | cons b' rest =>
            have mem : b' ∈ u.blobs account wt := by
              refine (blobs_perm order).mem_iff.mp ?_
              rw [blobs]
              exact List.mem_cons_self
            rw [List.head?_cons, one b' mem b tracked]

end Rows

/-! ## Runs keep it -/

section Runs

variable {env : Env} {account : Uuid} {wt : Int} {h : List EscrowEntry} {db : Db}
variable {bearer : Option AccessClaims}

theorem lastStored_concat (wt : Int) (h : List EscrowEntry) (e : EscrowEntry) :
    lastStored wt (h ++ [e]) = e.update wt (lastStored wt h) := by
  rw [lastStored, List.foldl_append]
  rfl

/-- What `wrapped_get` does for an admitted caller. -/
theorem perform_wrappedBlob (a : Auth) (wt : Int) (db : Db) :
    (do let blob ← sql (.wrappedBlob a.account wt)
        let blob ← okOr blob .notFound
        pure (.wrappedKey wt blob) : Handler Response).perform env db =
      (((db.wrappedKeys.blobs a.account wt).head?.elim (.error .notFound)
        fun b => .ok (.wrappedKey wt b)), db) := by
  simp only [perform_bind, perform_sql, Stmt.exec, Except.mapError, perform_andThen_ok,
    perform_okOr]
  rw [WrappedKeys.blobs, Table.view, List.head?_map, List.head?_filter]
  cases db.wrappedKeys.rows.find? fun w =>
    decide (w.account = a.account ∧ w.wrapperType = wt) <;> rfl

/-- What `wrapped_put` does for an admitted caller. -/
theorem perform_upsertWrapped (env : Env) (a : Auth) (wt : Int) (req : WrappedPutReq) (db : Db) :
    (∃ e, (do
        ensure (decide (1 ≤ wt ∧ wt ≤ 4)) (.badRequest "wrapper_type must be 1..4")
        let blob ← okOr req.blob (.badRequest "blob_b64 not base64")
        ensure (decide (80 ≤ blob.length ∧ blob.length ≤ 512 ∧ blob.take 4 = utf8 "SNTL"))
          (.badRequest "invalid wrapped-key blob")
        sql (.upsertWrapped a.account wt req.deviceId blob)
        pure .noContent : Handler Response).perform env db = (.error e, db)) ∨
      ∃ b, req.blob = some b ∧ (do
        ensure (decide (1 ≤ wt ∧ wt ≤ 4)) (.badRequest "wrapper_type must be 1..4")
        let blob ← okOr req.blob (.badRequest "blob_b64 not base64")
        ensure (decide (80 ≤ blob.length ∧ blob.length ≤ 512 ∧ blob.take 4 = utf8 "SNTL"))
          (.badRequest "invalid wrapped-key blob")
        sql (.upsertWrapped a.account wt req.deviceId blob)
        pure .noContent : Handler Response).perform env db =
          (.ok .noContent, { db with
            wrappedKeys := db.wrappedKeys.insertOr ⟨a.account, wt, req.deviceId, b, db.clock⟩
              (fun w => { w with blob := b, createdAt := db.clock }) fun _ => rfl }) := by
  by_cases inside : 1 ≤ wt ∧ wt ≤ 4
  · cases blob : req.blob with
    | none =>
        refine .inl ⟨.badRequest "blob_b64 not base64", ?_⟩
        rw [perform_bind, perform_ensure, if_pos (decide_eq_true inside), perform_andThen_ok,
          perform_bind, perform_okOr]
        rfl
    | some b =>
        by_cases whole : 80 ≤ b.length ∧ b.length ≤ 512 ∧ b.take 4 = utf8 "SNTL"
        · by_cases known : (db.hasAccount a.account && req.deviceId.all db.hasDevice) = true
          · refine .inr ⟨b, rfl, ?_⟩
            rw [perform_bind, perform_ensure, if_pos (decide_eq_true inside), perform_andThen_ok,
              perform_bind, perform_okOr, Option.elim, perform_andThen_ok, perform_bind,
              perform_ensure, if_pos (decide_eq_true whole), perform_andThen_ok, perform_bind,
              perform_sql, Stmt.exec, if_pos known]
            rfl
          · refine .inl ⟨.internal, ?_⟩
            rw [perform_bind, perform_ensure, if_pos (decide_eq_true inside), perform_andThen_ok,
              perform_bind, perform_okOr, Option.elim, perform_andThen_ok, perform_bind,
              perform_ensure, if_pos (decide_eq_true whole), perform_andThen_ok, perform_bind,
              perform_sql, Stmt.exec, if_neg known]
            rfl
        · refine .inl ⟨.badRequest "invalid wrapped-key blob", ?_⟩
          rw [perform_bind, perform_ensure, if_pos (decide_eq_true inside), perform_andThen_ok,
            perform_bind, perform_okOr, Option.elim, perform_andThen_ok, perform_bind,
            perform_ensure, if_neg fun yes => whole (of_decide_eq_true yes)]
          rfl
  · refine .inl ⟨.badRequest "wrapper_type must be 1..4", ?_⟩
    rw [perform_bind, perform_ensure, if_neg fun yes => inside (of_decide_eq_true yes)]
    rfl

/-- One call of the account. -/
theorem tracked_call (own : ∀ claims ∈ bearer, claims.sub = account) (q : EscrowCall)
    {stored : Option Bytes} (tracked : Tracked stored (db.wrappedKeys.blobs account wt)) :
    Tracked (EscrowEntry.update wt stored ⟨q, ((q.handler bearer).perform env db).1⟩)
      (((q.handler bearer).perform env db).2.wrappedKeys.blobs account wt) := by
  obtain ⟨e, refused⟩ | ⟨claims, rfl, passed⟩ := perform_admission env bearer db
  · have unchanged : (q.handler bearer).perform env db = (.error e, db) := by
      cases q <;> exact refused _
    rw [unchanged]
    exact tracked
  · have mine : claims.sub = account := own claims rfl
    subst mine
    cases q with
    | get wt' =>
        have same : ((EscrowCall.get wt').handler (some claims)).perform env db = _ :=
          (passed _).trans (perform_wrappedBlob ⟨claims.sub, claims.dev⟩ wt' db)
        rw [same]
        cases (db.wrappedKeys.blobs claims.sub wt').head? <;> exact tracked
    | delete wt' =>
        have same : ((EscrowCall.delete wt').handler (some claims)).perform env db =
            (.ok .noContent, { db with
              wrappedKeys := db.wrappedKeys.deleteWhere fun w =>
                decide (w.account = claims.sub ∧ w.wrapperType = wt') }) := passed _
        rw [same]
        dsimp only [EscrowEntry.update]
        by_cases here : wt' = wt
        · subst here
          rw [if_pos rfl]
          exact blobs_deleteWhere
        · rw [if_neg here, blobs_deleteWhere_of_ne here]
          exact tracked
    | put wt' req =>
        obtain ⟨e, failed⟩ | ⟨b, blob, done⟩ :=
          perform_upsertWrapped env ⟨claims.sub, claims.dev⟩ wt' req db
        · have same : ((EscrowCall.put wt' req).handler (some claims)).perform env db = _ :=
            (passed _).trans failed
          rw [same]
          exact tracked
        · have same : ((EscrowCall.put wt' req).handler (some claims)).perform env db = _ :=
            (passed _).trans done
          rw [same]
          dsimp only [EscrowEntry.update]
          by_cases here : wt' = wt
          · subst here
            rw [if_pos rfl, blob]
            exact mem_blobs_insertOr (r := ⟨claims.sub, wt', req.deviceId, b, db.clock⟩) _
              fun _ => rfl
          · rw [if_neg here]
            have kept : WrappedKeys.blobs _ claims.sub wt = db.wrappedKeys.blobs claims.sub wt :=
              blobs_insertOr_of_ne (r := ⟨claims.sub, wt', req.deviceId, b, db.clock⟩)
                (f := fun w => { w with blob := b, createdAt := db.clock }) (fun _ => rfl) here
            exact (congrArg (Tracked stored) kept).mpr tracked

theorem EscrowRun.tracked (run : EscrowRun env account h db) (wt : Int) :
    Tracked (lastStored wt h) (db.wrappedKeys.blobs account wt) := by
  induction run with
  | start fresh =>
      refine List.map_eq_nil_iff.mpr (List.filter_eq_nil_iff.mpr fun w mem here => ?_)
      exact fresh w mem (of_decide_eq_true here).1
  | call bearer q run own order ih =>
      rw [lastStored_concat]
      exact tracked_call own q (ih.perm (blobs_perm order))

end Runs

/-! ## What a get returns -/

/-- The caller's token is good and its device approved. -/
structure LetIn (claims : AccessClaims) (db : Db) : Prop where
  issued : claims ∈ db.issued
  current : unixTimestamp db.clock ≤ claims.exp + tokenLeewaySecs
  access : claims.tok = .access
  approved : (db.devices.find? claims.dev).map Device.status = some .approved

theorem LetIn.perform {env : Env} {claims : AccessClaims} {db : Db} (letIn : LetIn claims db)
    (f : Auth → Handler Response) : (do
      let a ← verifyAccess (some claims)
      requireApprovedDevice a.device
      f a).perform env db = (f ⟨claims.sub, claims.dev⟩).perform env db := by
  obtain ⟨issued, current, access, approved⟩ := letIn
  have passed : (verifyAccess (some claims)).perform env db =
      (.ok ⟨claims.sub, claims.dev⟩, db) := by
    simp [verifyAccess, verifyWithKind, nowSecs, perform_okOr, perform_ensure, Stmt.exec,
      Except.mapError, issued, current, access]
  have known : (requireApprovedDevice claims.dev).perform env db = (.ok (), db) := by
    simp [requireApprovedDevice, perform_okOr, perform_ensure, Stmt.exec, Except.mapError, approved]
  rw [perform_bind, passed, perform_andThen_ok, perform_bind, known]
  rfl

/-- The blob, or `NotFound`. -/
def escrowAnswer (wt : Int) (stored : Option Bytes) : Except ApiError Response :=
  stored.elim (.error .notFound) fun b => .ok (.wrappedKey wt b)

theorem escrowAnswer_inj {wt : Int} {o o' : Option Bytes} :
    escrowAnswer wt o = escrowAnswer wt o' ↔ o = o' := by
  constructor
  · intro same
    cases o <;> cases o' <;> cases same <;> rfl
  · intro same
    rw [same]

/-- The rows of a type hold one blob. -/
def OneBlob (account : Uuid) (wt : Int) (db : Db) : Prop :=
  ∀ b ∈ db.wrappedKeys.blobs account wt, ∀ b' ∈ db.wrappedKeys.blobs account wt, b = b'

/-- After any calls of the account, a get answers the blob of the last put in every order of the
rows exactly when the rows of the type hold one blob. -/
theorem escrow_iff {env : Env} {account : Uuid} {h : List EscrowEntry} {db : Db}
    (run : EscrowRun env account h db) {claims : AccessClaims} (own : claims.sub = account)
    (letIn : LetIn claims db) (wt : Int) :
    (∀ t : WrappedKeys, t.rows.Perm db.wrappedKeys.rows →
      ((wrappedGet (some claims) wt).perform env { db with wrappedKeys := t }).1 =
        escrowAnswer wt (lastStored wt h)) ↔ OneBlob account wt db := by
  subst own
  rw [OneBlob, ← head?_blobs_iff (run.tracked wt)]
  refine forall₂_congr fun t _ => ?_
  have still : LetIn claims { db with wrappedKeys := t } := { letIn with }
  have same : (wrappedGet (some claims) wt).perform env { db with wrappedKeys := t } = _ :=
    (still.perform _).trans (perform_wrappedBlob ⟨claims.sub, claims.dev⟩ wt _)
  rw [same]
  exact escrowAnswer_inj

def escrowClaims : AccessClaims := ⟨10, 11, 0, 600, .access⟩

def escrowDb : Db :=
  { accounts := ownAccounts, devices := ownDesktop, issued := [escrowClaims] }

def escrowBlob (n : UInt8) : Bytes := utf8 "SNTL" ++ List.replicate 76 n

/-- The password's key is stored for no device. -/
def putForNone : EscrowCall := .put 4 ⟨some (escrowBlob 1), none⟩

/-- And another for the desktop. -/
def putForDesktop : EscrowCall := .put 4 ⟨some (escrowBlob 2), some 11⟩

def putOnce : Db := ((putForNone.handler (some escrowClaims)).perform Env.bare escrowDb).2

def putTwice : Db := ((putForDesktop.handler (some escrowClaims)).perform Env.bare putOnce).2

theorem escrowRun_putOnce : EscrowRun Env.bare 10 [⟨putForNone, .ok .noContent⟩] putOnce := by
  have start : EscrowRun Env.bare 10 [] escrowDb := .start fun w mem => by cases mem
  have own : ∀ claims ∈ some escrowClaims, claims.sub = 10 := by
    intro claims mem
    cases mem
    rfl
  exact start.call (some escrowClaims) putForNone own (.refl _)

theorem escrow_iff_putOnce : OneBlob 10 4 putOnce ∧
    ∀ t : WrappedKeys, t.rows.Perm putOnce.wrappedKeys.rows →
      ((wrappedGet (some escrowClaims) 4).perform Env.bare { putOnce with wrappedKeys := t }).1 =
        escrowAnswer 4 (lastStored 4 [⟨putForNone, .ok .noContent⟩]) := by
  have one : OneBlob 10 4 putOnce := by
    have blobs : putOnce.wrappedKeys.blobs 10 4 = [escrowBlob 1] := rfl
    intro b mem b' mem'
    rw [blobs, List.mem_singleton] at mem mem'
    rw [mem, mem']
  refine ⟨one, (escrow_iff escrowRun_putOnce rfl ?_ 4).mpr one⟩
  exact ⟨by decide, by decide, rfl, rfl⟩

/-- The desktop's key is stored last, and the older one is returned. -/
theorem escrow_false : ¬ ∀ (env : Env) (account : Uuid) (h : List EscrowEntry) (db : Db),
    EscrowRun env account h db → ∀ claims : AccessClaims, claims.sub = account →
      LetIn claims db → ∀ wt, ((wrappedGet (some claims) wt).perform env db).1 =
        escrowAnswer wt (lastStored wt h) := by
  intro every
  have own : ∀ claims ∈ some escrowClaims, claims.sub = 10 := by
    intro claims mem
    cases mem
    rfl
  have run : EscrowRun Env.bare 10 [⟨putForNone, .ok .noContent⟩, ⟨putForDesktop, .ok .noContent⟩]
      putTwice := escrowRun_putOnce.call (some escrowClaims) putForDesktop own (.refl _)
  have wrong : (.ok (.wrappedKey 4 (escrowBlob 1)) : Except ApiError Response) =
      .ok (.wrappedKey 4 (escrowBlob 2)) :=
    every _ _ _ _ run escrowClaims rfl ⟨by decide, by decide, rfl, rfl⟩ 4
  exact absurd (Response.wrappedKey.inj (Except.ok.inj wrong)).2 (by decide)

end Sentinel.Api
