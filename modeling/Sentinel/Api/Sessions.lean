import Sentinel.Api.Requests

/-!
# Tokens and the devices they name

Devices are never deleted and never change their account. Every route that signs a
token or starts a session has learnt the pair of account and device before: from
the device it has just inserted, from a refresh token's row, or from a genuine
token. `KnowStep` is this discipline as an automaton, and `routed_tokensSound`
carries it through every interleaving: all signed tokens and all sessions belong
to devices of their accounts.
-/

namespace Sentinel.Api

open Atomic Handler Relational

/-- The device exists and belongs to the account. -/
def DeviceOf (account device : Uuid) (db : Db) : Prop :=
  ∃ row, db.devices.find? device = some row ∧ row.account = account

namespace Stmt

/-- Statements that write the device table. -/
def writesDevices : Stmt → Bool
  | .insertDevice .. | .approveByTotp _ | .approveDevice .. | .revokeDevice .. | .pinDevice ..
  | .setPushToken .. => true
  | _ => false

variable {env : Env} {q : Stmt}

theorem exec_devices (h : q.writesDevices = false) (db : Db) :
    (exec env q db).2.devices = db.devices := by
  cases q <;> first
    | rfl
    | cases h; done
    | (simp only [exec, Db.upsertAccount, Db.addAccount]; split <;> first | rfl | (split <;> rfl))

/-- The statement that signs a token. -/
def issuesToken : Stmt → Bool
  | .issueToken _ => true
  | _ => false

theorem exec_issued (h : q.issuesToken = false) (db : Db) :
    (exec env q db).2.issued = db.issued := by
  cases q <;> first
    | rfl
    | cases h; done
    | (simp only [exec, Db.upsertAccount, Db.addAccount]; split <;> first | rfl | (split <;> rfl))

/-- What a statement does to an existing device row. -/
theorem exec_device (env : Env) (q : Stmt) {db : Db} {id : Uuid} {row : Device}
    (found : db.devices.find? id = some row) :
    ∃ row', (exec env q db).2.devices.find? id = some row' ∧ row'.account = row.account ∧
      (row'.status = row.status ∨ row'.status = .revoked ∨
        row'.status = .approved ∧ (q = .approveByTotp id ∨
          ∃ approver, q = .approveDevice approver id row.account)) := by
  have key : row.id = id := Table.key_of_find? found
  have updated : ∀ (p : Device → Bool) (f : Device → Device) (keyed : ∀ r, (f r).id = r.id)
      (db' : Db), db'.devices = db.devices.updateWhere p f keyed →
      db'.devices.find? id = some (if p row then f row else row) := by
    intro p f keyed db' eq
    rw [eq, Table.find?_updateWhere, found, Option.map_some]
  by_cases writes : q.writesDevices = true
  · cases q with
    | insertDevice account name platform status =>
        refine ⟨row, ?_, rfl, .inl rfl⟩
        simp only [exec]
        split
        · split <;> rename_i inserted
          · have other : db.supply ≠ id := by
              rintro rfl
              rw [Table.insert_eq_none_iff.mpr (by simp [found])] at inserted
              cases inserted
            rw [Table.find?_of_insert inserted, if_neg other, found]
          · exact found
        · exact found
    | approveByTotp device =>
        refine ⟨_, updated _ _ (by intro; rfl) _ rfl, ?_⟩
        split <;> rename_i selected
        · rw [decide_eq_true_eq, key] at selected
          exact ⟨rfl, .inr (.inr ⟨rfl, .inl (selected ▸ rfl)⟩)⟩
        · exact ⟨rfl, .inl rfl⟩
    | approveDevice approver target account =>
        simp only [exec]
        split
        · refine ⟨_, updated _ _ (by intro; rfl) _ rfl, ?_⟩
          split <;> rename_i selected
          · rw [decide_eq_true_eq, key] at selected
            exact ⟨rfl, .inr (.inr ⟨rfl, .inr ⟨approver, by rw [selected.1, selected.2]⟩⟩)⟩
          · exact ⟨rfl, .inl rfl⟩
        · exact ⟨row, found, rfl, .inl rfl⟩
    | revokeDevice target account =>
        refine ⟨_, updated _ _ (by intro; rfl) _ rfl, ?_⟩
        split
        · exact ⟨rfl, .inr (.inl rfl)⟩
        · exact ⟨rfl, .inl rfl⟩
    | pinDevice pubKey target account =>
        refine ⟨_, updated _ _ (by intro; rfl) _ rfl, ?_⟩
        split <;> exact ⟨rfl, .inl rfl⟩
    | setPushToken token target account =>
        refine ⟨_, updated _ _ (by intro; rfl) _ rfl, ?_⟩
        split <;> exact ⟨rfl, .inl rfl⟩
    | _ => cases writes
  · rw [exec_devices (Bool.not_eq_true _ ▸ writes)]
    exact ⟨row, found, rfl, .inl rfl⟩

end Stmt

/-- Devices are never deleted and never change their account. -/
theorem DeviceOf.exec {env : Env} {q : Stmt} {account device : Uuid} {db : Db}
    (h : DeviceOf account device db) : DeviceOf account device (Stmt.exec env q db).2 := by
  obtain ⟨row, found, account⟩ := h
  obtain ⟨row', found', same, -⟩ := Stmt.exec_device env q found
  exact ⟨row', found', same.trans account⟩

theorem deviceOf_of_insertDevice {env : Env} {account : Uuid} {name : String} {platform : Platform}
    {status : DeviceStatus} {db : Db} {id : Uuid}
    (h : (Stmt.exec env (.insertDevice account name platform status) db).1 = .ok id) :
    db.devices.find? id = none ∧
      DeviceOf account id (Stmt.exec env (.insertDevice account name platform status) db).2 := by
  simp only [Stmt.exec] at h ⊢
  split at h <;> rename_i exists_
  · rw [if_pos exists_]
    split at h <;> rename_i inserted
    · cases h
      have fresh : db.devices.find? db.supply = none := by
        by_contra taken
        rw [Table.insert_eq_none_iff.mpr taken] at inserted
        cases inserted
      have found := Table.find?_of_insert inserted db.supply
      rw [if_pos rfl] at found
      exact ⟨fresh, _, found, rfl⟩
    · cases h
  · cases h

/-- The statements that sign a token or start a session. -/
def Stmt.mints : Stmt → Bool
  | .issueToken _ | .insertRefresh .. => true
  | _ => false

/-- The pairs of account and device a request has learnt. A token or session may
only be made for one of them. -/
inductive KnowStep : List (Uuid × Uuid) → (q : Stmt) → Except SqlError q.Result →
    List (Uuid × Uuid) → Prop
  | plain {known : List (Uuid × Uuid)} (q : Stmt) (res : Except SqlError q.Result)
      (plain : q.mints = false) : KnowStep known q res known
  | inserted {known : List (Uuid × Uuid)} (account : Uuid) (name : String) (platform : Platform)
      (status : DeviceStatus) (id : Uuid) :
      KnowStep known (.insertDevice account name platform status) (.ok id) ((account, id) :: known)
  | found {known : List (Uuid × Uuid)} (hash : Bytes) (t : RefreshToken) :
      KnowStep known (.findRefresh hash) (.ok (some t)) ((t.account, t.device) :: known)
  | genuine {known : List (Uuid × Uuid)} (c : AccessClaims) :
      KnowStep known (.tokenIssued c) (.ok true) ((c.sub, c.dev) :: known)
  | sign {known : List (Uuid × Uuid)} (c : AccessClaims) (mem : (c.sub, c.dev) ∈ known)
      (res : Except SqlError Unit) : KnowStep known (.issueToken c) res known
  | session {known : List (Uuid × Uuid)} {account device : Uuid} (mem : (account, device) ∈ known)
      (hash : Bytes) (parent : Option Uuid) (expires : Time) (res : Except SqlError Unit) :
      KnowStep known (.insertRefresh account device hash parent expires) res known

theorem Stmt.mints_of_performs {r : Request} {q : Stmt} (h : r.Performs q)
    (quiet : r.mintsTokens = false) : q.mints = false := by
  cases q with
  | issueToken c =>
      rw [show r.mintsTokens = true from h] at quiet
      cases quiet
  | insertRefresh account device hash parent expires =>
      rw [show r.mintsTokens = true from h] at quiet
      cases quiet
  | _ => rfl

section Follows

variable {env : Env} {known : List (Uuid × Uuid)}

/-- A block that mints nothing: `healthz` stands for any such request. -/
theorem follows_quiet {α β : Type} {h : Handler α} {post : α → Prop} {f : α → Handler β}
    (within : h.Within Request.healthz.Performs post)
    (rest : ∀ a, post a → (f a).Follows KnowStep (fun _ _ => True) known) :
    (h >>= f).Follows KnowStep (fun _ _ => True) known := by
  rw [follows_bind]
  exact within.follows (fun q res performs => .plain q res (Stmt.mints_of_performs performs rfl))
    rest fun _ => trivial

theorem follows_rejected {kind : EventKind} {ip : String} {account : Option Uuid} {e : ApiError} :
    (do record env account kind ip none
        maybeAutoban env ip
        throw e : Handler Response).Follows KnowStep (fun _ _ => True) known :=
  rejected_within.follows (fun q res performs =>
    .plain q res (Stmt.mints_of_performs (r := .healthz) performs rfl)) (fun _ _ => trivial)
    fun _ => trivial

theorem follows_guarded {α : Type} {caller : Caller} {action : LimitAction} {max : Nat} {secs : Int}
    {f : String → Handler α} (h : ∀ ip, (f ip).Follows KnowStep (fun _ _ => True) known) :
    (guard env caller action max secs >>= f).Follows KnowStep (fun _ _ => True) known :=
  follows_quiet ((guard_within env caller action max secs).mono
    (fun _ monitor => Request.performs_of_isMonitor monitor) fun _ post => post) fun ip _ => h ip

/-- Minting for a known device. -/
theorem mintSession_followsKnown {α : Type} {account device : Uuid} (mem : (account, device) ∈ known)
    (parent : Option Uuid) {f : TokensResp → Handler α}
    (rest : ∀ t, (f t).Follows KnowStep (fun _ _ => True) known) :
    (mintSession env account device parent >>= f).Follows KnowStep (fun _ _ => True) known := by
  have within : (mintSession env account device parent).Within
      (fun q => q.mints = false ∨ (∃ c : AccessClaims, c.sub = account ∧ c.dev = device ∧
          q = .issueToken c) ∨
        ∃ hash expires, q = .insertRefresh account device hash parent expires) fun _ => True := by
    simp only [mintSession, nowSecs, issueAccess, Api.issue, mintRefresh, within_bind, within_sql,
      within_pure]
    exact ⟨.inl rfl, fun _ => ⟨.inr (.inl ⟨_, rfl, rfl, rfl⟩), fun _ => ⟨.inl rfl, fun _ =>
      ⟨.inl rfl, fun _ => ⟨.inr (.inr ⟨_, _, rfl⟩), fun _ => trivial⟩⟩⟩⟩⟩
  rw [follows_bind]
  refine within.follows ?_ (fun t _ => rest t) fun _ => trivial
  rintro q res (plain | ⟨c, rfl, rfl, rfl⟩ | ⟨hash, expires, rfl⟩)
  · exact .plain q res plain
  · exact .sign c mem res
  · exact .session mem hash parent expires res

theorem signIn_followsKnown (account : Uuid) (name : String) (platform : Platform) (ip detail : String) :
    (signIn env account name platform ip detail).Follows KnowStep (fun _ _ => True) known := by
  rw [signIn, follows_bind, follows_sql]
  refine ⟨fun id => ⟨_, .inserted account name platform .approved id, ?_⟩,
    fun e => ⟨known, .plain _ _ rfl, trivial⟩⟩
  refine mintSession_followsKnown List.mem_cons_self none fun tokens => ?_
  simp only [follows_bind, record, follows_sqlIgnore, follows_andThen_ok, follows_pure, and_true]
  exact fun res => ⟨_, .plain _ res rfl⟩

theorem authGoogle_followsKnown (caller : Caller) (req : GoogleReq) :
    (authGoogle env caller req).Follows KnowStep (fun _ _ => True) known := by
  refine follows_guarded fun ip => follows_quiet (validDevice_within req.device) fun platform _ => ?_
  split
  · exact follows_rejected
  refine follows_quiet (googleAccount_within _) fun account _ => ?_
  rw [follows_bind, follows_sql]
  refine ⟨fun id => ⟨_, .inserted account _ platform .pending id, ?_⟩,
    fun e => ⟨known, .plain _ _ rfl, trivial⟩⟩
  have flag : (sql (.totpConfirmedAt account)).Within Request.healthz.Performs fun _ => True :=
    (within_sql _).mpr ⟨trivial, fun _ => trivial⟩
  have clock : nowSecs.Within Request.healthz.Performs fun _ => True := by
    simp only [nowSecs, within_bind, within_sql, within_pure, Request.Performs, implies_true,
      and_self]
  refine follows_quiet flag fun confirmed _ => follows_quiet clock fun now _ => ?_
  simp only [issuePending, Api.issue, follows_bind, follows_sql, follows_andThen_ok, follows_pure,
    follows_andThen_error, and_true]
  have known : (account, id) ∈ (account, id) :: known := List.mem_cons_self
  exact ⟨fun _ => ⟨_, .sign _ known _⟩, fun e => ⟨_, .sign _ known _⟩⟩

theorem authBootstrap_followsKnown (caller : Caller) (req : BootstrapReq) :
    (authBootstrap env caller req).Follows KnowStep (fun _ _ => True) known := by
  refine follows_guarded fun ip => ?_
  rw [follows_bind, follows_okOr]
  refine ⟨fun expected _ => ?_, fun _ => trivial⟩
  rw [follows_andThen_ok]
  split
  · exact follows_quiet (validDevice_within req.device) fun platform _ =>
      follows_quiet bootstrapAccount_within fun account _ => signIn_followsKnown account _ platform ip _
  · exact follows_rejected

theorem authPassword_followsKnown (caller : Caller) (req : PasswordAuthReq) :
    (authPassword env caller req).Follows KnowStep (fun _ _ => True) known := by
  refine follows_guarded fun ip => follows_quiet (validDevice_within req.device) fun platform _ =>
    follows_quiet pwAuthAccount_within fun row _ => ?_
  rw [follows_bind, follows_okOr]
  refine ⟨fun proof _ => ?_, fun _ => trivial⟩
  rw [follows_andThen_ok]
  split
  · exact follows_quiet (passwordSecondFactor_within row.1 ip req.code) fun _ _ =>
      signIn_followsKnown row.1 _ platform ip _
  · exact follows_rejected

theorem authEnroll_followsKnown (caller : Caller) (req : EnrollReq) :
    (authEnroll env caller req).Follows KnowStep (fun _ _ => True) known := by
  refine follows_guarded fun ip => follows_quiet (validDevice_within req.device) fun platform _ => ?_
  rw [follows_bind, follows_sql]
  refine ⟨fun account => ⟨known, .plain _ _ rfl, ?_⟩, fun e => ⟨known, .plain _ _ rfl, trivial⟩⟩
  rw [follows_andThen_ok]
  split
  · exact follows_rejected
  · exact signIn_followsKnown _ _ platform ip _

theorem authRefresh_followsKnown (caller : Caller) (token : String) :
    (authRefresh env caller token).Follows KnowStep (fun _ _ => True) known := by
  refine follows_guarded fun ip => ?_
  rw [follows_bind, follows_sql]
  refine ⟨fun row => ?_, fun e => ⟨known, .plain _ _ rfl, trivial⟩⟩
  cases row with
  | none => exact ⟨known, .plain _ _ rfl, trivial⟩
  | some t =>
      refine ⟨_, .found _ t, ?_⟩
      rw [follows_andThen_ok]
      show Handler.Follows (if t.revokedAt.isSome then _ else _) _ _ _
      split
      · exact follows_quiet ((within_sql (.revokeChain t.account t.device)).mpr
          ⟨trivial, fun _ => trivial⟩) fun _ _ => follows_rejected
      · simp only [follows_bind, follows_sql, follows_andThen_ok, follows_andThen_error,
          follows_ensure, and_true]
        refine ⟨fun now => ⟨_, .plain _ _ rfl, fun _ => ⟨fun _ => ⟨_, .plain _ _ rfl, ?_⟩,
          fun e => ⟨_, .plain _ _ rfl⟩⟩, fun _ => trivial⟩, fun e => ⟨_, .plain _ _ rfl⟩⟩
        rw [← follows_bind]
        exact mintSession_followsKnown List.mem_cons_self _ fun _ => trivial

/-- A request past the extractor has learnt its own account and device. -/
theorem follows_verified {bearer : Option AccessClaims} {kind : TokenKind}
    {f : Auth → Handler Response}
    (h : ∀ c, bearer = some c → (f { account := c.sub, device := c.dev }).Follows KnowStep
      (fun _ _ => True) ((c.sub, c.dev) :: known)) :
    (verifyWithKind bearer kind >>= f).Follows KnowStep (fun _ _ => True) known := by
  cases bearer with
  | none => trivial
  | some c =>
      have plain : ∀ (q : Stmt) res, q.mints = false → KnowStep known q res known :=
        fun q res h => .plain q res h
      simp only [verifyWithKind, nowSecs, okOr, follows_bind, follows_pure, follows_andThen_ok,
        follows_sql, follows_andThen_error, follows_ensure, and_true]
      refine ⟨fun genuine => ?_, fun e => ⟨known, .plain _ _ rfl⟩⟩
      cases genuine with
      | false => exact ⟨known, .plain _ _ rfl, by rintro ⟨⟩, fun _ => trivial⟩
      | true =>
          refine ⟨_, .genuine c, fun _ => ⟨fun now => ⟨_, .plain _ _ rfl, fun _ => ⟨fun _ => h c rfl,
            fun _ => trivial⟩, fun _ => trivial⟩, fun e => ⟨_, .plain _ _ rfl⟩⟩, by rintro ⟨⟩⟩

theorem totpVerify_followsKnown (caller : Caller) (bearer : Option AccessClaims) (code : String) :
    (totpVerify env caller bearer code).Follows KnowStep (fun _ _ => True) known := by
  refine follows_verified fun c _ => follows_guarded fun ip =>
    follows_quiet (checkTotpCode_within c.sub ip code) fun _ _ => ?_
  rw [follows_bind, follows_sql]
  refine ⟨fun _ => ⟨_, .plain _ _ rfl, ?_⟩, fun e => ⟨_, .plain _ _ rfl, trivial⟩⟩
  rw [follows_andThen_ok, follows_bind, follows_sql]
  refine ⟨fun _ => ⟨_, .plain _ _ rfl, ?_⟩, fun e => ⟨_, .plain _ _ rfl, trivial⟩⟩
  refine mintSession_followsKnown List.mem_cons_self none fun tokens => ?_
  simp only [follows_bind, record, follows_sqlIgnore, follows_andThen_ok, follows_pure, and_true]
  exact fun res => ⟨_, .plain _ res rfl⟩

theorem handle_followsKnown (env : Env) (r : Request) :
    (handle env r).Follows KnowStep (fun _ _ => True) [] := by
  by_cases mints : r.mintsTokens = true
  · cases r with
    | authGoogle caller req => exact authGoogle_followsKnown caller req
    | authBootstrap caller req => exact authBootstrap_followsKnown caller req
    | authPassword caller req => exact authPassword_followsKnown caller req
    | authEnroll caller req => exact authEnroll_followsKnown caller req
    | authRefresh caller token => exact authRefresh_followsKnown caller token
    | totpVerify caller bearer code => exact totpVerify_followsKnown caller bearer code
    | _ => cases mints
  · refine (handle_within env r).follows (fun q res performs => .plain q res
      (Stmt.mints_of_performs performs (Bool.not_eq_true _ ▸ mints))) (fun _ _ => trivial)
      fun _ => trivial

end Follows

/-- Every signed token and every session belongs to a device of its account. -/
structure TokensSound (db : Db) : Prop where
  issued : ∀ c ∈ db.issued, DeviceOf c.sub c.dev db
  sessions : ∀ t ∈ db.refreshTokens.rows, DeviceOf t.account t.device db

theorem TokensSound.of_revokes {env : Env} {q : Stmt} {db : Db} (sound : TokensSound db)
    (rev : Revokes db (Stmt.exec env q db).2)
    (issued : (Stmt.exec env q db).2.issued = db.issued) :
    TokensSound (Stmt.exec env q db).2 := by
  constructor
  · intro c mem
    rw [issued] at mem
    exact (sound.issued c mem).exec
  · intro t mem
    obtain ⟨row, rowMem, same⟩ := rev.back t mem
    rw [same.2.1, same.2.2.1]
    exact (sound.sessions row rowMem).exec

/-- One statement of a request that has learnt `known`. -/
theorem TokensSound.step {env : Env} {q : Stmt} {db : Db} {known known' : List (Uuid × Uuid)}
    (sound : TokensSound db) (pairs : ∀ p ∈ known, DeviceOf p.1 p.2 db)
    (step : KnowStep known q (Stmt.exec env q db).1 known') :
    TokensSound (Stmt.exec env q db).2 ∧ ∀ p ∈ known', DeviceOf p.1 p.2 (Stmt.exec env q db).2 := by
  have kept : ∀ p ∈ known, DeviceOf p.1 p.2 (Stmt.exec env q db).2 := fun p mem => (pairs p mem).exec
  have quiet : q.mints = false → TokensSound (Stmt.exec env q db).2 := by
    intro plain
    refine sound.of_revokes (Stmt.exec_revokes env ?_ db) (Stmt.exec_issued ?_ db)
    · cases q <;> trivial
    · cases q <;> trivial
  generalize result : (Stmt.exec env q db).1 = res at step
  cases step with
  | plain q res plain => exact ⟨quiet plain, kept⟩
  | inserted account name platform status id =>
      exact ⟨quiet rfl, List.forall_mem_cons.mpr ⟨(deviceOf_of_insertDevice result).2, kept⟩⟩
  | found hash t =>
      have mem := List.mem_of_find?_eq_some (Except.ok.inj result)
      exact ⟨quiet rfl, List.forall_mem_cons.mpr ⟨sound.sessions t mem, kept⟩⟩
  | genuine c =>
      have mem : c ∈ db.issued := by simpa using Except.ok.inj result
      exact ⟨quiet rfl, List.forall_mem_cons.mpr ⟨sound.issued c mem, kept⟩⟩
  | sign c mem res =>
      refine ⟨⟨fun c' mem' => ?_, fun t mem' => (sound.sessions t mem').exec⟩, kept⟩
      rcases List.mem_append.mp mem' with old | new
      · exact (sound.issued c' old).exec
      · rw [List.mem_singleton.mp new]
        exact kept _ mem
  | session mem hash parent expires res =>
      refine ⟨⟨?_, ?_⟩, kept⟩
      · rw [Stmt.exec_issued rfl]
        exact fun c' mem' => (sound.issued c' mem').exec
      · rcases exec_insertRefresh env _ _ hash parent expires db with
          ⟨t, -, account, device, -, -, rows⟩ | ⟨-, unchanged⟩
        · intro t' mem'
          rw [rows] at mem'
          rcases List.mem_append.mp mem' with old | new
          · exact (sound.sessions t' old).exec
          · rw [List.mem_singleton.mp new, account, device]
            exact kept _ mem
        · rw [unchanged]
          exact sound.sessions

section Runs

variable {ι : Type} [DecidableEq ι] (env : Env) {db : Db} (reqs : ι → Request)

/-- Whatever the requests and their interleaving. -/
theorem routed_tokensSound (sound : TokensSound db) (ls : List (Label ι Nat)) :
    (∀ e ∈ history env db (routed env reqs) ls, TokensSound e.before) ∧
      TokensSound (serve env db (routed env reqs) ls).shared := by
  obtain ⟨ph, -, past, now, -⟩ := serve_phases env db (routed env reqs)
    (I := fun h ph x => (∀ e ∈ h, TokensSound e.before) ∧ TokensSound x ∧
      ∀ i, ∀ p ∈ ph i, DeviceOf p.1 p.2 x)
    (by
      rintro h ph x i q b step ⟨past, sound, known⟩
      obtain ⟨sound', known'⟩ := sound.step (known i) step
      refine ⟨List.forall_mem_append.mpr ⟨past, List.forall_mem_singleton.mpr sound⟩, sound', ?_⟩
      intro j
      by_cases same : j = i
      · subst same
        rwa [Function.update_self]
      · rw [Function.update_of_ne same]
        exact fun p mem => (known j p mem).exec)
    (fun h ph x n ⟨past, sound, known⟩ => ⟨past, ⟨sound.issued, sound.sessions⟩, known⟩)
    (fun i => handle_followsKnown env (reqs i)) ⟨by simp, sound, by simp⟩ ls
  exact ⟨past, now⟩

theorem tokensSound_empty (clock : Time) : TokensSound { clock := clock } :=
  ⟨by simp, by simp [Table.empty]⟩

end Runs

end Sentinel.Api
