import Sentinel.Api.Sessions

/-!
# Device revocation

`device_revoke` marks a device of the caller's account revoked and revokes its
refresh tokens; access and pending tokens stay valid until they expire, and each
handler has to ask `require_approved_device` itself. Ten handlers do not, and
`totp_verify` approves its bearer's device again.

The runs are interleavings of any requests from an empty database. Where no
`totp_verify` approves the device after the revocation, only a `device_approve` of an
approved device of the account does; where that does not happen either, requests
that begin after the revocation get nothing with the device's tokens, except on the
ten routes.
-/

namespace Sentinel.Api

open Atomic Handler Relational

namespace Request

/-- Routes that read or change account data without asking whether the device is
approved. -/
def unguarded : Request → Bool
  | .devicesList _ | .devicePin .. | .unlockGet .. | .pushRegister .. | .transferList _
  | .transferDownload .. | .transferDelete .. | .securitySummary _ | .securityBan ..
  | .securityUnban .. => true
  | _ => false

/-- Authenticated routes that neither read nor change vaults, wrapped keys,
transfers, unlock requests, devices or bans. -/
def noAccountData : Request → Bool
  | .totpEnroll _ | .authLogout _ | .securityEventsList .. => true
  | _ => false

end Request

def statusOf (d : Uuid) (db : Db) : Option DeviceStatus := (db.devices.find? d).map Device.status

/-- The row a refresh token is looked up by. -/
def findToken (hash : Bytes) (db : Db) : Option RefreshToken :=
  db.refreshTokens.rows.find? fun t => decide (t.tokenHash = hash)

/-- Vaults, wrapped keys, transfers, unlock requests and devices are the same, and
so are the bans unless the attack monitor sets one. -/
def SameAccountData (q : Stmt) (db db' : Db) : Prop :=
  db'.vaults = db.vaults ∧ db'.wrappedKeys = db.wrappedKeys ∧
    db'.fileTransfers = db.fileTransfers ∧ db'.unlockRequests = db.unlockRequests ∧
    db'.devices = db.devices ∧ (q.isMonitor = false → db'.bannedIps = db.bannedIps)

/-- Tokens the server has issued to the device: access and pending tokens, and the
refresh tokens stored in `db`. -/
def PresentsTokenOf (env : Env) (d : Uuid) (db : Db) (r : Request) : Prop :=
  (∃ c, r.bearer = some c ∧ c.dev = d) ∨
    ∃ caller token t, r = .authRefresh caller token ∧
      findToken (hashRefresh env token) db = some t ∧ t.device = d

namespace Stmt

/-- The statement approves the device. -/
def approves (d : Uuid) : Stmt → Bool
  | .approveByTotp device => decide (device = d)
  | .approveDevice _ id _ => decide (id = d)
  | _ => false

/-- Statements of the routes without account data, of the head of a guarded route,
and of sign-ins before they succeed. -/
def sparesAccountData : Stmt → Bool
  | .now | .tokenIssued _ | .randomBytes _ | .accountEmail _ | .setTotpSecret .. | .logoutDevice ..
  | .eventsSince .. | .limiterCheck .. | .isBanned _ | .record .. | .countFailures ..
  | .ownerSeen _ | .autoban .. | .deviceStatus _ | .lockedUntil _ | .totpSecretEnc _
  | .bumpLockout _ | .clearLockout _ | .confirmTotp _ | .findRefresh _ | .revokeChain .. => true
  | _ => false

theorem exec_sparesAccountData {env : Env} {q : Stmt} (h : q.sparesAccountData = true) (db : Db) :
    SameAccountData q db (exec env q db).2 := by
  cases q with
  | autoban ip reason mins =>
      obtain ⟨_, _, _, _, same⟩ := exec_isMonitor env (q := .autoban ip reason mins) rfl db
      rw [same]
      refine ⟨rfl, rfl, rfl, rfl, rfl, fun other => ?_⟩
      cases other
  | _ => first
    | exact ⟨rfl, rfl, rfl, rfl, rfl, fun _ => rfl⟩
    | cases h; done
    | (simp only [exec]; split <;> exact ⟨rfl, rfl, rfl, rfl, rfl, fun _ => rfl⟩)

theorem spares_of_isTokenCheck {q : Stmt} (h : q.isTokenCheck = true) :
    q.sparesAccountData = true := by
  cases q <;> trivial

theorem spares_of_isMonitor {q : Stmt} (h : q.isMonitor = true) : q.sparesAccountData = true := by
  cases q <;> trivial

end Stmt

/-- The device has a row in the account and is not approved. -/
structure Unapproved (account d : Uuid) (db : Db) : Prop where
  owned : DeviceOf account d db
  status : statusOf d db ≠ some .approved

/-- Only an approval of the device ends it. -/
theorem Unapproved.exec {env : Env} {account d : Uuid} {q : Stmt} {db : Db}
    (h : Unapproved account d db) (quiet : q.approves d = false) :
    Unapproved account d (Stmt.exec env q db).2 := by
  refine ⟨h.owned.exec, ?_⟩
  obtain ⟨row, found, -⟩ := h.owned
  obtain ⟨row', found', -, status⟩ := Stmt.exec_device env q found
  have before := h.status
  simp only [statusOf, found, found', Option.map_some, ne_eq, Option.some.injEq] at before ⊢
  rcases status with same | gone | ⟨-, rfl | ⟨approver, rfl⟩⟩
  · rwa [same]
  · rw [gone]
    rintro ⟨⟩
  · simp [Stmt.approves] at quiet
  · simp [Stmt.approves] at quiet

theorem unapproved_of_revokeDevice {env : Env} {account d : Uuid} {db : Db}
    (owned : DeviceOf account d db) :
    Unapproved account d (Stmt.exec env (.revokeDevice d account) db).2 := by
  refine ⟨owned.exec, ?_⟩
  obtain ⟨row, found, rfl⟩ := owned
  have key : row.id = d := Table.key_of_find? found
  simp [statusOf, Stmt.exec, Table.find?_updateWhere, found, key]

/-- The token's row is the device's. -/
def TokenOf (d : Uuid) (hash : Bytes) (P : RefreshToken → Prop) (db : Db) : Prop :=
  ∃ t, findToken hash db = some t ∧ t.device = d ∧ P t

section Tokens

variable {env : Env} {d : Uuid} {hash : Bytes} {db db' : Db} {P : RefreshToken → Prop}

theorem TokenOf.update (h : TokenOf d hash P db) {p : RefreshToken → Bool} {at_ : Time}
    (update : db'.refreshTokens = db.refreshTokens.updateWhere p
      (fun t => { t with revokedAt := some at_ }) (fun _ => rfl)) {P' : RefreshToken → Prop}
    (set : ∀ t, p t = true → t.device = d → P t → P' { t with revokedAt := some at_ })
    (keep : ∀ t, p t = false → t.device = d → P t → P' t) : TokenOf d hash P' db' := by
  obtain ⟨t, found, dev, holds⟩ := h
  have mapped : findToken hash db' = (findToken hash db).map fun t =>
      if p t then { t with revokedAt := some at_ } else t := by
    simp only [findToken, update, Table.updateWhere, List.find?_map]
    congr 1
    congr 1
    funext t
    simp only [Function.comp]
    split <;> rfl
  refine ⟨_, by rw [mapped, found, Option.map_some], ?_⟩
  split <;> rename_i selected
  · exact ⟨dev, set t selected dev holds⟩
  · exact ⟨dev, keep t (Bool.not_eq_true _ ▸ selected) dev holds⟩

/-- Rows keep their device, and a revocation is never taken back. -/
theorem TokenOf.exec (h : TokenOf d hash P db) (stable : ∀ t at_, P t →
    P { t with revokedAt := some at_ }) (q : Stmt) : TokenOf d hash P (Stmt.exec env q db).2 := by
  have same : (Stmt.exec env q db).2.refreshTokens = db.refreshTokens →
      TokenOf d hash P (Stmt.exec env q db).2 := by
    intro same
    obtain ⟨t, found, rest⟩ := h
    exact ⟨t, by rw [findToken, same]; exact found, rest⟩
  cases q with
  | insertRefresh account device hash' parent expires =>
      rcases exec_insertRefresh env account device hash' parent expires db with
        ⟨c, -, -, -, -, -, rows⟩ | ⟨-, unchanged⟩
      · obtain ⟨t, found, rest⟩ := h
        refine ⟨t, ?_, rest⟩
        rw [findToken, rows, List.find?_append, show db.refreshTokens.rows.find? _ = some t from found]
        rfl
      · rw [unchanged]
        exact h
  | revokeChain | revokeToken | logoutDevice | revokeDeviceTokens =>
      exact h.update rfl (fun t _ _ holds => stable t _ holds) fun _ _ _ holds => holds
  | _ => first
    | exact same rfl
    | (refine same ?_
       simp only [Stmt.exec, Db.upsertAccount, Db.addAccount]
       split <;> first | rfl | (split <;> rfl))

/-- The sweep of `device_revoke`. -/
theorem TokenOf.swept (h : TokenOf d hash (fun _ => True) db) :
    TokenOf d hash (fun t => t.revokedAt ≠ none)
      (Stmt.exec env (.revokeDeviceTokens d) db).2 := by
  refine h.update rfl (fun _ _ _ _ => nofun) fun t unselected dev _ open_ => ?_
  simp [dev, open_] at unselected

end Tokens

/-- Has the request got past the point where a revoked device is refused? -/
inductive Access where
  | refused | admitted

/-- What lets a request of the device through: an approved status, the approval by
`totp_verify`, or an unrevoked refresh token. -/
inductive AccessStep (env : Env) (d : Uuid) (r : Request) :
    Access → (q : Stmt) → Except SqlError q.Result → Access → Prop
  | spare (q : Stmt) (res : Except SqlError q.Result) (spares : q.sparesAccountData = true) :
      AccessStep env d r .refused q res .refused
  | approved : AccessStep env d r .refused (.deviceStatus d) (.ok (some .approved)) .admitted
  | verified (res : Except SqlError Unit) :
      AccessStep env d r .refused (.approveByTotp d) res .admitted
  | rotated (caller : Caller) (token : String) (t : RefreshToken)
      (refresh : r = .authRefresh caller token) (unrevoked : t.revokedAt = none) :
      AccessStep env d r .refused (.findRefresh (hashRefresh env token)) (.ok (some t)) .admitted
  | free (q : Stmt) (res : Except SqlError q.Result) : AccessStep env d r .admitted q res .admitted

/-- A request that was never let through answers an error, or has nothing to do with
account data. -/
def RefusedAnswer (r : Request) : Access → Except ApiError Response → Prop
  | .refused, answer => (∃ e, answer = .error e) ∨ r.noAccountData = true
  | .admitted, _ => True

section Follows

variable {env : Env} {d : Uuid} {r : Request}

theorem follows_admitted (h : Handler Response) :
    h.Follows (AccessStep env d r) (RefusedAnswer r) .admitted := by
  have all : h.Within (fun _ => True) fun _ => True := by
    have general : ∀ p : Prog Stmt (fun q => Except SqlError q.Result) (Except ApiError Response),
        p.Within (fun _ => True) fun _ => True := by
      intro p
      induction p with
      | done r => trivial
      | stmt q k ih => exact ⟨trivial, ih⟩
    exact Prog.Within.mono (general h) (fun _ h => h) fun _ _ _ _ => trivial
  exact all.follows (fun q res _ => .free q res) (fun _ _ => trivial) fun _ => trivial

theorem follows_sparing {α : Type} {h : Handler α} {post : α → Prop} {f : α → Handler Response}
    (within : h.Within (fun q => q.sparesAccountData = true) post)
    (rest : ∀ a, post a → (f a).Follows (AccessStep env d r) (RefusedAnswer r) .refused) :
    (h >>= f).Follows (AccessStep env d r) (RefusedAnswer r) .refused := by
  rw [follows_bind]
  exact within.follows (fun q res spares => .spare q res spares) rest fun e => .inl ⟨e, rfl⟩

/-- The token extractor, for a token of the device. -/
theorem follows_bearer {c : AccessClaims} (dev : c.dev = d) {kind : TokenKind}
    {f : Auth → Handler Response}
    (rest : ∀ a : Auth, a.device = d →
      (f a).Follows (AccessStep env d r) (RefusedAnswer r) .refused) :
    (verifyWithKind (some c) kind >>= f).Follows (AccessStep env d r) (RefusedAnswer r) .refused := by
  refine follows_sparing ((verifyWithKind_within (some c) kind).mono
    (fun _ check => Stmt.spares_of_isTokenCheck check) fun _ h => h) ?_
  rintro a ⟨c', eq, -, rfl⟩
  cases eq
  exact rest _ dev

/-- The head of a guarded handler. -/
theorem follows_denied {c : AccessClaims} (dev : c.dev = d) (f : Auth → Handler Response) :
    (verifyAccess (some c) >>= fun a => requireApprovedDevice a.device >>= fun _ => f a).Follows
      (AccessStep env d r) (RefusedAnswer r) .refused := by
  refine follows_bearer dev ?_
  rintro a rfl
  simp only [requireApprovedDevice, follows_bind, follows_sql, follows_okOr, follows_ensure,
    follows_andThen_ok, follows_andThen_error, decide_eq_true_eq, decide_eq_false_iff_not]
  refine ⟨fun status => ?_, fun e => ⟨_, .spare _ _ rfl, .inl ⟨_, rfl⟩⟩⟩
  by_cases approved : status = some .approved
  · subst approved
    exact ⟨_, .approved, fun s eq => ⟨fun _ => follows_admitted _, fun _ => trivial⟩, by rintro ⟨⟩⟩
  · refine ⟨_, .spare _ _ rfl, ?_, fun _ => .inl ⟨_, rfl⟩⟩
    rintro s rfl
    exact ⟨fun is => absurd (congrArg some is) approved, fun _ => .inl ⟨_, rfl⟩⟩

theorem follows_spared {h : Handler Response} (spared : r.noAccountData = true)
    (within : h.Within (fun q => q.sparesAccountData = true) fun _ => True) :
    h.Follows (AccessStep env d r) (RefusedAnswer r) .refused :=
  within.follows (fun q res spares => .spare q res spares) (fun _ _ => .inr spared)
    fun e => .inl ⟨e, rfl⟩

theorem checkTotpCode_spares (account : Uuid) (ip code : String) :
    (checkTotpCode env account ip code).Within (fun q => q.sparesAccountData = true)
      fun _ => True := by
  have locked : (enforceLockout env account ip).Within (fun q => q.sparesAccountData = true)
      fun _ => True := by
    simp only [enforceLockout, within_bind, within_sql]
    refine ⟨rfl, fun locked => ?_⟩
    cases locked with
    | none => exact (within_pure _).mpr trivial
    | some until_ =>
        simp only [within_bind, within_sql]
        refine ⟨rfl, fun now => ?_⟩
        split <;> simp only [within_bind, record, within_sqlIgnore, within_throw, within_pure,
          Stmt.sparesAccountData, and_self]
  simp only [checkTotpCode, within_bind]
  refine locked.mono (fun _ h => h) fun _ _ => ?_
  simp only [within_sql, within_okOr, nowSecs, within_bind, within_pure, Stmt.sparesAccountData,
    true_and]
  intro _ _ _ _ _ now
  split
  · simp only [within_sql, true_and, implies_true]
  · simp only [within_bind, within_sql, record, within_sqlIgnore]
    exact ⟨trivial, fun _ => ⟨trivial, (maybeAutoban_within env ip).mono
      (fun _ monitor => Stmt.spares_of_isMonitor monitor)
      fun _ _ => (within_throw _).mpr trivial⟩⟩

theorem totpVerify_followsAccess {caller : Caller} {c : AccessClaims} {code : String}
    (dev : c.dev = d) : (totpVerify env caller (some c) code).Follows (AccessStep env d r)
      (RefusedAnswer r) .refused := by
  refine follows_bearer dev ?_
  rintro a rfl
  refine follows_sparing ((guard_within env caller (.totp a.account) 10 60).mono
    (fun _ monitor => Stmt.spares_of_isMonitor monitor) fun _ h => h) fun ip _ =>
    follows_sparing (checkTotpCode_spares a.account ip code) fun _ _ => ?_
  have confirm : (sql (.confirmTotp a.account)).Within (fun q => q.sparesAccountData = true)
      fun _ => True := (within_sql _).mpr ⟨rfl, fun _ => trivial⟩
  refine follows_sparing confirm fun _ _ => ?_
  rw [follows_bind, follows_sql]
  exact ⟨fun _ => ⟨_, .verified _, follows_admitted _⟩, fun e => ⟨_, .verified _, trivial⟩⟩

theorem authRefresh_followsAccess {caller : Caller} {token : String} :
    (authRefresh env caller token).Follows (AccessStep env d (.authRefresh caller token))
      (RefusedAnswer (.authRefresh caller token)) .refused := by
  refine follows_sparing ((guard_within env caller .authRefresh 30 60).mono
    (fun _ monitor => Stmt.spares_of_isMonitor monitor) fun _ h => h) fun ip _ => ?_
  rw [follows_bind, follows_sql]
  refine ⟨fun row => ?_, fun e => ⟨_, .spare _ _ rfl, .inl ⟨_, rfl⟩⟩⟩
  cases row with
  | none => exact ⟨_, .spare _ _ rfl, .inl ⟨_, rfl⟩⟩
  | some t =>
      by_cases unrevoked : t.revokedAt = none
      · exact ⟨_, .rotated caller token t rfl unrevoked, follows_admitted _⟩
      · refine ⟨_, .spare _ _ rfl, ?_⟩
        have replay : (do sql (.revokeChain t.account t.device)
                          record env (some t.account) .refreshReuse ip none
                          maybeAutoban env ip
                          throw .unauthorized : Handler Response).Within
            (fun q => q.sparesAccountData = true) fun _ => False := by
          simp only [within_bind, within_sql, record, within_sqlIgnore]
          exact ⟨rfl, fun _ => ⟨rfl, (maybeAutoban_within env ip).mono
            (fun _ monitor => Stmt.spares_of_isMonitor monitor)
            fun _ _ => (within_throw _).mpr trivial⟩⟩
        simp only [follows_andThen_ok, okOr, follows_bind, follows_pure,
          if_pos (Option.isSome_iff_ne_none.mpr unrevoked)]
        simp only [← follows_bind]
        exact replay.follows (fun q res spares => .spare q res spares)
          (fun _ impossible => impossible.elim) fun e => .inl ⟨e, rfl⟩

theorem noAccountData_spares (spared : r.noAccountData = true) :
    (handle env r).Within (fun q => q.sparesAccountData = true) fun _ => True := by
  have verified : ∀ {bearer kind} {f : Auth → Handler Response},
      (∀ a, (f a).Within (fun q => q.sparesAccountData = true) fun _ => True) →
      (verifyWithKind bearer kind >>= f).Within (fun q => q.sparesAccountData = true)
        fun _ => True := by
    intro bearer kind f h
    exact (within_bind _ _).mpr ((verifyWithKind_within bearer kind).mono
      (fun _ check => Stmt.spares_of_isTokenCheck check) fun a _ => h a)
  cases r with
  | totpEnroll _ | authLogout _ | securityEventsList _ _ _ =>
      refine verified fun a => ?_
      simp only [sealSecret, within_bind, within_sql, within_pure, Stmt.sparesAccountData,
        implies_true, and_self]
  | _ => cases spared

/-- A request with a token of the device, on any but the ten routes. -/
theorem handle_followsAccess {db : Db} (presents : PresentsTokenOf env d db r)
    (guarded : r.unguarded = false) :
    (handle env r).Follows (AccessStep env d r) (RefusedAnswer r) .refused := by
  rcases presents with ⟨c, bearer, dev⟩ | ⟨caller, token, t, rfl, -, -⟩
  · by_cases spared : r.noAccountData = true
    · exact follows_spared spared (noAccountData_spares spared)
    cases r with
    | totpVerify caller b code =>
        obtain rfl : b = some c := bearer
        exact totpVerify_followsAccess dev
    | vaultGet b | vaultPut b _ _ | wrappedGet b _ | wrappedPut b _ _ | wrappedDelete b _
    | enrollCodeMint _ b | passwordEnroll b _ | deviceApprove b _ | deviceRevoke b _
    | unlockCreate _ b _ | unlockRespond b _ _ | transferCreate _ b _ | adminUpdate b =>
        obtain rfl : b = some c := bearer
        exact follows_denied dev _
    | totpEnroll | authLogout | securityEventsList => exact absurd rfl spared
    | devicesList | devicePin | unlockGet | pushRegister | transferList | transferDownload
    | transferDelete | securitySummary | securityBan | securityUnban => cases guarded
    | _ => cases bearer
  · exact authRefresh_followsAccess

end Follows

variable {ι : Type}

/-- How far a `device_approve` has come. -/
inductive ApprovePhase where
  | start
  | genuine (c : AccessClaims)
  | checked (c : AccessClaims)

/-- A `device_approve` needs a genuine token, and an approved status of its device. -/
inductive ApproveStep (r : Request) :
    ApprovePhase → (q : Stmt) → Except SqlError q.Result → ApprovePhase → Prop
  | other {a : ApprovePhase} (q : Stmt) (res : Except SqlError q.Result)
      (quiet : ∀ approver id account, q ≠ .approveDevice approver id account) :
      ApproveStep r a q res a
  | genuine (c : AccessClaims) :
      ApproveStep r .start (.tokenIssued c) (.ok true) (.genuine c)
  | checked (c : AccessClaims) :
      ApproveStep r (.genuine c) (.deviceStatus c.dev) (.ok (some .approved)) (.checked c)
  | approve (c : AccessClaims) (id : Uuid) (approve : r = .deviceApprove (some c) id)
      (res : Except SqlError Nat) :
      ApproveStep r (.checked c) (.approveDevice c.dev id c.sub) res (.checked c)

theorem handle_followsApprove (env : Env) (r : Request) :
    (handle env r).Follows (ApproveStep r) (fun _ _ => True) .start := by
  by_cases approve : ∃ c id, r = .deviceApprove (some c) id
  · obtain ⟨c, id, rfl⟩ := approve
    simp only [handle, deviceApprove, verifyAccess, verifyWithKind, nowSecs, requireApprovedDevice,
      okOr, follows_bind, follows_sql, follows_ensure, follows_andThen_ok, follows_andThen_error,
      follows_pure, and_true]
    refine ⟨fun genuine => ?_, fun e => ⟨_, .other _ _ (by rintro _ _ _ ⟨⟩)⟩⟩
    cases genuine with
    | false => exact ⟨_, .other _ _ (by rintro _ _ _ ⟨⟩), by rintro ⟨⟩, fun _ => trivial⟩
    | true =>
        refine ⟨_, .genuine c, fun _ => ⟨fun now => ⟨_, .other _ _ (by rintro _ _ _ ⟨⟩), fun _ => ⟨fun _ =>
          ⟨fun status => ?_, fun e => ⟨_, .other _ _ (by rintro _ _ _ ⟨⟩)⟩⟩, fun _ => trivial⟩, fun _ => trivial⟩,
          fun e => ⟨_, .other _ _ (by rintro _ _ _ ⟨⟩)⟩⟩, by rintro ⟨⟩⟩
        by_cases approved : status = some .approved
        · subst approved
          refine ⟨_, .checked c, ?_⟩
          simp only [follows_pure, follows_andThen_ok, follows_ensure, follows_sql, follows_bind,
            follows_andThen_error, implies_true, and_true]
          exact fun _ => ⟨fun n => ⟨_, .approve c id rfl _⟩, fun e => ⟨_, .approve c id rfl _⟩⟩
        · refine ⟨_, .other _ _ (by rintro _ _ _ ⟨⟩), ?_⟩
          cases status with
          | none => trivial
          | some s =>
              have other : s ≠ .approved := fun is => approved (congrArg some is)
              simp only [follows_pure, follows_andThen_ok, follows_ensure, decide_eq_true_eq, other,
                false_implies, follows_andThen_error, implies_true, and_self]
  · refine (handle_within env r).follows (fun q res performs => .other q res ?_)
      (fun _ _ => trivial) fun _ => trivial
    rintro approver id account rfl
    obtain ⟨c, eq, -⟩ := performs
    exact approve ⟨c, id, eq⟩

/-- The approval came from a `device_approve` with a genuine token of an account's
device that was approved when the request looked. -/
def ApprovedBy (reqs : ι → Request) (past : List (Event ι Stmt Db)) (i : ι)
    (approver id account : Uuid) : Prop :=
  ∃ c, reqs i = .deviceApprove (some c) id ∧ approver = c.dev ∧ account = c.sub ∧
    (∃ g ∈ past, g.thread = i ∧ c ∈ g.before.issued) ∧
    ∃ g ∈ past, g.thread = i ∧ statusOf c.dev g.before = some .approved

/-- What the phases of the `device_approve`s say about the history. -/
structure ApprovalInvariant (reqs : ι → Request) (h : List (Event ι Stmt Db))
    (ph : ι → ApprovePhase) : Prop where
  genuine : ∀ i c, ph i = .genuine c ∨ ph i = .checked c →
    ∃ g ∈ h, g.thread = i ∧ c ∈ g.before.issued
  checked : ∀ i c, ph i = .checked c →
    ∃ g ∈ h, g.thread = i ∧ statusOf c.dev g.before = some .approved
  approved : ∀ past (f : Event ι Stmt Db) rest, h = past ++ f :: rest → ∀ approver id account,
    f.q = .approveDevice approver id account → ApprovedBy reqs past f.thread approver id account

theorem ApprovalInvariant.step [DecidableEq ι] {env : Env} {reqs : ι → Request}
    {h : List (Event ι Stmt Db)} {ph : ι → ApprovePhase} {db : Db} {i : ι} {q : Stmt}
    {b : ApprovePhase} (inv : ApprovalInvariant reqs h ph)
    (step : ApproveStep (reqs i) (ph i) q (Stmt.exec env q db).1 b) :
    ApprovalInvariant reqs (h ++ [⟨i, q, db⟩]) (Function.update ph i b) := by
  have grows : ∀ {P : Event ι Stmt Db → Prop}, (∃ g ∈ h, P g) → ∃ g ∈ h ++ [⟨i, q, db⟩], P g :=
    fun ⟨g, mem, holds⟩ => ⟨g, List.mem_append_left _ mem, holds⟩
  have last : (⟨i, q, db⟩ : Event ι Stmt Db) ∈ h ++ [⟨i, q, db⟩] :=
    List.mem_append_right _ (List.mem_singleton_self _)
  generalize before : ph i = a at step
  generalize result : (Stmt.exec env q db).1 = res at step
  constructor
  · intro j c phase
    by_cases same : j = i
    · subst same
      rw [Function.update_self] at phase
      cases step with
      | other q res quiet => exact grows (inv.genuine j c (before ▸ phase))
      | genuine c' =>
          simp only [ApprovePhase.genuine.injEq, reduceCtorEq, or_false] at phase
          subst phase
          exact ⟨_, last, rfl, by simpa using Except.ok.inj result⟩
      | checked c' =>
          simp only [ApprovePhase.checked.injEq, reduceCtorEq, false_or] at phase
          subst phase
          exact grows (inv.genuine j c' (.inl before))
      | approve c' id eq res =>
          simp only [ApprovePhase.checked.injEq, reduceCtorEq, false_or] at phase
          subst phase
          exact grows (inv.genuine j c' (.inr before))
    · rw [Function.update_of_ne same] at phase
      exact grows (inv.genuine j c phase)
  · intro j c phase
    by_cases same : j = i
    · subst same
      rw [Function.update_self] at phase
      cases step with
      | other q res quiet => exact grows (inv.checked j c (before.trans phase))
      | genuine c' => cases phase
      | checked c' =>
          cases phase
          exact ⟨_, last, rfl, Except.ok.inj result⟩
      | approve c' id eq res =>
          cases phase
          exact grows (inv.checked j _ before)
    · rw [Function.update_of_ne same] at phase
      exact grows (inv.checked j c phase)
  · intro past f rest cut approver id account stmt
    rcases List.eq_nil_or_concat' rest with rfl | ⟨rest', g, rfl⟩
    · obtain ⟨rfl, eq⟩ := List.append_inj' cut rfl
      cases eq
      subst stmt
      cases step with
      | other q res quiet => exact absurd rfl (quiet approver id account)
      | approve c id eq res =>
          exact ⟨c, eq, rfl, rfl, inv.genuine i c (.inr before), inv.checked i c before⟩
    · rw [← List.cons_append, ← List.append_assoc] at cut
      exact inv.approved past f rest' (List.append_inj' cut rfl).1 approver id account stmt

/-- The progress of a `device_revoke`. -/
inductive RevokePhase where
  | start | marked | swept
  deriving DecidableEq

/-- The statements of a `device_revoke` of `d`, with the two updates in order. -/
inductive RevokeStep (account d : Uuid) :
    RevokePhase → (q : Stmt) → Except SqlError q.Result → RevokePhase → Prop
  | other {a : RevokePhase} (q : Stmt) (res : Except SqlError q.Result)
      (quiet : q ≠ .revokeDevice d account) : RevokeStep account d a q res a
  | mark (res : Except SqlError Unit) :
      RevokeStep account d .start (.revokeDevice d account) res .marked
  | sweep (res : Except SqlError Unit) :
      RevokeStep account d .marked (.revokeDeviceTokens d) res .swept

theorem deviceRevoke_follows (c : AccessClaims) (d : Uuid) :
    (deviceRevoke (some c) d).Follows (RevokeStep c.sub d)
      (fun a answer => answer = .ok .noContent → a = .swept) .start := by
  rw [deviceRevoke, follows_bind]
  have quiet : ∀ q : Stmt, q.isTokenCheck = true → q ≠ .revokeDevice d c.sub := by
    rintro q check rfl
    cases check
  refine (verifyWithKind_within (some c) .access).follows
    (fun q res check => .other q res (quiet q check)) ?_ (by rintro _ ⟨⟩)
  rintro a ⟨c', eq, -, rfl⟩
  cases eq
  simp only [requireApprovedDevice, follows_andThen_ok, follows_bind, follows_sql, follows_okOr,
    follows_ensure, follows_andThen_error, follows_pure, reduceCtorEq, false_implies, implies_true,
    and_true]
  refine ⟨fun status => ⟨_, .other _ _ (by rintro ⟨⟩), fun _ _ _ => ⟨fun _ => ⟨_, .mark _, ?_⟩,
    fun e => ⟨_, .mark _⟩⟩⟩, fun e => ⟨_, .other _ _ (by rintro ⟨⟩)⟩⟩
  exact ⟨fun _ => ⟨_, .sweep _, fun _ => rfl⟩, fun e => ⟨_, .sweep _⟩⟩

/-- The update of the device comes once, and the sweep after it. -/
def RevocationOrdered (account d : Uuid) (i : ι) (h : List (Event ι Stmt Db)) (a : RevokePhase) :
    Prop :=
  ∀ past (e : Event ι Stmt Db) (mid : List (Event ι Stmt Db)), h = past ++ e :: mid →
    e.thread = i → e.q = .revokeDevice d account →
    a ≠ .start ∧ (a = .swept → ∃ f ∈ mid, f.q = .revokeDeviceTokens d)

namespace RevocationOrdered

variable {env : Env} {account d : Uuid} {i : ι} {h : List (Event ι Stmt Db)} {a : RevokePhase}
variable {db : Db} {q : Stmt}

theorem others (inv : RevocationOrdered account d i h a) {j : ι} (other : j ≠ i) :
    RevocationOrdered account d i (h ++ [⟨j, q, db⟩]) a := by
  intro past e mid cut thread stmt
  rcases List.eq_nil_or_concat' mid with rfl | ⟨mid', f, rfl⟩
  · obtain ⟨-, last⟩ := List.append_inj' cut rfl
    cases last
    exact absurd thread other
  · rw [← List.cons_append, ← List.append_assoc] at cut
    obtain ⟨begun, swept⟩ := inv past e mid' (List.append_inj' cut rfl).1 thread stmt
    refine ⟨begun, fun now => ?_⟩
    obtain ⟨f, mem, eq⟩ := swept now
    exact ⟨f, List.mem_append_left _ mem, eq⟩

theorem own (inv : RevocationOrdered account d i h a) {b : RevokePhase}
    (step : RevokeStep account d a q (Stmt.exec env q db).1 b) :
    RevocationOrdered account d i (h ++ [⟨i, q, db⟩]) b := by
  intro past e mid cut thread stmt
  generalize (Stmt.exec env q db).1 = res at step
  rcases List.eq_nil_or_concat' mid with rfl | ⟨mid', f, rfl⟩
  · obtain ⟨-, last⟩ := List.append_inj' cut rfl
    cases last
    subst stmt
    cases step with
    | other q res quiet => exact absurd rfl quiet
    | mark res => exact ⟨nofun, nofun⟩
  · rw [← List.cons_append, ← List.append_assoc] at cut
    obtain ⟨before, last⟩ := List.append_inj' cut rfl
    cases last
    obtain ⟨begun, swept⟩ := inv past e mid' before thread stmt
    cases step with
    | other q res quiet =>
        refine ⟨begun, fun now => ?_⟩
        obtain ⟨f, mem, eq⟩ := swept now
        exact ⟨f, List.mem_append_left _ mem, eq⟩
    | mark res => exact absurd rfl begun
    | sweep res =>
        exact ⟨nofun, fun _ => ⟨_, List.mem_append_right _ (List.mem_singleton_self _), rfl⟩⟩

end RevocationOrdered

section Runs

variable [DecidableEq ι] {env : Env} {db : Db} {reqs : ι → Request} {ls : List (Label ι Nat)}

/-- In every run, every approval by a device. -/
theorem routed_approvedBy {past rest : List (Event ι Stmt Db)} {f : Event ι Stmt Db}
    (cut : history env db (routed env reqs) ls = past ++ f :: rest) {approver id account : Uuid}
    (stmt : f.q = .approveDevice approver id account) :
    ApprovedBy reqs past f.thread approver id account := by
  obtain ⟨ph, -, inv⟩ := serve_phases env db (routed env reqs)
    (I := fun h ph _ => ApprovalInvariant reqs h ph)
    (fun h ph x i q b step inv => inv.step step) (fun h ph x n inv => inv)
    (fun i => handle_followsApprove env (reqs i)) ⟨by simp, by simp, by simp⟩ ls
  exact inv.approved past f rest cut approver id account stmt

/-- The statements performed after a schedule by its continuation. -/
def historyAfter (env : Env) (db : Db) (requests : ι → Handler Response)
    (ls ls' : List (Label ι Nat)) : List (Event ι Stmt Db) :=
  Pool.events (Stmt.exec env) tick (serve env db requests ls) ls'

theorem history_append (requests : ι → Handler Response) (ls ls' : List (Label ι Nat)) :
    history env db requests (ls ++ ls') =
      history env db requests ls ++ historyAfter env db requests ls ls' :=
  Pool.events_append _ _ _ _ _

/-- A `device_revoke` that has answered has performed its update of the device. -/
theorem deviceRevoke_updates {db : Db} {i : ι} {c : AccessClaims} {d : Uuid}
    (revoke : reqs i = .deviceRevoke (some c) d)
    (answered : Answered env db (routed env reqs) ls i (.ok .noContent)) :
    ∃ (past : List (Event ι Stmt Db)) (e : Event ι Stmt Db) (mid : List (Event ι Stmt Db)),
      history env db (routed env reqs) ls = past ++ e :: mid ∧ e.thread = i ∧
      e.q = .revokeDevice d c.sub := by
  have program : (routed env reqs i).Follows (RevokeStep c.sub d)
      (fun a answer => answer = .ok .noContent → a = .swept) .start := by
    rw [routed, revoke]
    exact deviceRevoke_follows c d
  have grows : ∀ {h : List (Event ι Stmt Db)} {e : Event ι Stmt Db},
      (∃ f ∈ h, f.thread = i ∧ f.q = .revokeDevice d c.sub) →
      ∃ f ∈ h ++ [e], f.thread = i ∧ f.q = .revokeDevice d c.sub := by
    rintro h e ⟨f, mem, own⟩
    exact ⟨f, List.mem_append_left _ mem, own⟩
  obtain ⟨a, follows, inv⟩ := Pool.phase (Stmt.exec env) tick (i := i)
    (I := fun h a _ => a ≠ RevokePhase.start → ∃ f ∈ h, f.thread = i ∧ f.q = .revokeDevice d c.sub)
    (by
      intro h a x q b step inv begun
      generalize (Stmt.exec env q x).1 = res at step
      cases step with
      | other q res quiet => exact grows (inv begun)
      | mark res => exact ⟨_, List.mem_append_right _ (List.mem_singleton_self _), rfl, rfl⟩
      | sweep res => exact grows (inv (by decide)))
    (fun h a x j q other inv begun => grows (inv begun)) (fun h a x n inv => inv)
    { shared := db, prog := routed env reqs } program (fun begun => absurd rfl begun) ls
  have swept : a = .swept := answered.final follows rfl
  obtain ⟨e, mem, own⟩ := inv (by rw [swept]; decide)
  obtain ⟨past, mid, cut⟩ := List.append_of_mem mem
  exact ⟨past, e, mid, cut, own⟩

/-- A `device_revoke` that has answered has swept the tokens after its update of the
device. -/
theorem deviceRevoke_sweeps {i : ι} {c : AccessClaims} {d : Uuid}
    (revoke : reqs i = .deviceRevoke (some c) d)
    (answered : Answered env db (routed env reqs) ls i (.ok .noContent))
    {past mid : List (Event ι Stmt Db)} {e : Event ι Stmt Db}
    (cut : history env db (routed env reqs) ls = past ++ e :: mid) (thread : e.thread = i)
    (stmt : e.q = .revokeDevice d c.sub) : ∃ f ∈ mid, f.q = .revokeDeviceTokens d := by
  have program : (routed env reqs i).Follows (RevokeStep c.sub d)
      (fun a answer => answer = .ok .noContent → a = .swept) .start := by
    rw [routed, revoke]
    exact deviceRevoke_follows c d
  obtain ⟨a, follows, inv⟩ := Pool.phase (Stmt.exec env) tick (i := i)
    (I := fun h a _ => RevocationOrdered c.sub d i h a)
    (fun h a x q b step inv => inv.own step) (fun h a x j q other inv => inv.others other)
    (fun h a x n inv => inv) { shared := db, prog := routed env reqs } program
    (fun _ _ _ cut => by simp at cut) ls
  exact (inv past e mid cut thread stmt).2 (answered.final follows rfl)

/-- Requests that begin after the schedule `ls`, with tokens of `d` that are stored in
`revoked`, change no account data in the continuation `ls'`; they fail, unless their
routes have nothing to do with account data. -/
def NoAccess (env : Env) (db : Db) (reqs : ι → Request) (ls ls' : List (Label ι Nat)) (d : Uuid)
    (revoked : Db) : Prop :=
  ∀ j, (∀ f ∈ history env db (routed env reqs) ls, f.thread ≠ j) →
    PresentsTokenOf env d revoked (reqs j) →
    (∀ f ∈ history env db (routed env reqs) (ls ++ ls'), f.thread = j →
      SameAccountData f.q f.before (Stmt.exec env f.q f.before).2) ∧
    ∀ answer, Answered env db (routed env reqs) (ls ++ ls') j answer →
      (∃ e, answer = .error e) ∨ (reqs j).noAccountData = true

/-- Where a statement of `rest` approves `d`, it is a `device_approve` by a device of
the account that was approved when the request looked. -/
def ReapprovedExplicitly (env : Env) (reqs : ι → Request) (account d : Uuid)
    (past rest : List (Event ι Stmt Db)) : Prop :=
  ∀ mid (f : Event ι Stmt Db) post, rest = mid ++ f :: post →
    statusOf d f.before ≠ some .approved →
    statusOf d (Stmt.exec env f.q f.before).2 = some .approved →
    ∃ c, reqs f.thread = .deviceApprove (some c) d ∧ c.sub = account ∧
      DeviceOf account c.dev f.before ∧
      ∃ g ∈ past ++ mid, g.thread = f.thread ∧ statusOf c.dev g.before = some .approved

/-- Requests with a token of the device that begin after the schedule stay off the
unguarded routes. -/
def OnGuardedRoutes (env : Env) (db : Db) (reqs : ι → Request) (ls : List (Label ι Nat)) (d : Uuid)
    (revoked : Db) : Prop :=
  ∀ j, (∀ f ∈ history env db (routed env reqs) ls, f.thread ≠ j) →
    PresentsTokenOf env d revoked (reqs j) → (reqs j).unguarded = false

/-- The state in which a token of the device gets nothing. -/
def Shut (env : Env) (account d : Uuid) (r : Request) (db : Db) : Prop :=
  Unapproved account d db ∧ ∀ caller token, r = .authRefresh caller token →
    TokenOf d (hashRefresh env token) (fun t => t.revokedAt ≠ none) db

theorem Shut.exec {account d : Uuid} {r : Request} {q : Stmt} {x : Db} (h : Shut env account d r x)
    (quiet : q.approves d = false) : Shut env account d r (Stmt.exec env q x).2 :=
  ⟨h.1.exec quiet, fun caller token refresh =>
    (h.2 caller token refresh).exec (fun _ _ _ => nofun) q⟩

/-- In such a state no statement lets a request through. -/
theorem Shut.refused {account d : Uuid} {r : Request} {q : Stmt} {x : Db} {b : Access}
    (h : Shut env account d r x) (quiet : q.approves d = false)
    (step : AccessStep env d r .refused q (Stmt.exec env q x).1 b) :
    b = .refused ∧ q.sparesAccountData = true := by
  generalize result : (Stmt.exec env q x).1 = res at step
  cases step with
  | spare q res spares => exact ⟨rfl, spares⟩
  | approved => exact absurd (Except.ok.inj result) h.1.status
  | verified res => simp [Stmt.approves] at quiet
  | rotated caller token t refresh unrevoked =>
      obtain ⟨t', found, -, revoked⟩ := h.2 caller token refresh
      have eq : some t' = some t := found.symm.trans (Except.ok.inj result)
      cases eq
      exact absurd unrevoked revoked

section Revoked

variable {i : ι} {c : AccessClaims} {d : Uuid} {past mid : List (Event ι Stmt Db)}
variable {e : Event ι Stmt Db} {ls' : List (Label ι Nat)}

/-- When the revocation has answered, the state is shut for the device's tokens. -/
theorem shut_of_answered (revoke : reqs i = .deviceRevoke (some c) d)
    (answered : Answered env db (routed env reqs) ls i (.ok .noContent))
    (cut : history env db (routed env reqs) ls = past ++ e :: mid) (thread : e.thread = i)
    (stmt : e.q = .revokeDevice d c.sub) (owned : DeviceOf c.sub d e.before)
    (quiet : ∀ f ∈ mid, f.q.approves d = false) {r : Request}
    (presents : PresentsTokenOf env d e.before r) :
    Shut env c.sub d r (serve env db (routed env reqs) ls).shared := by
  have after : Unapproved c.sub d (Stmt.exec env e.q e.before).2 := by
    rw [stmt]
    exact unapproved_of_revokeDevice owned
  refine ⟨(history_since cut (fun _ _ h => ⟨h.owned, h.status⟩) after
    fun f mem x h => h.exec (quiet f mem)).2, ?_⟩
  rintro caller token rfl
  obtain ⟨c', bearer, -⟩ | ⟨_, _, t, eq, found, dev⟩ := presents
  · cases bearer
  cases eq
  have held : TokenOf d (hashRefresh env token) (fun _ => True) e.before :=
    ⟨t, found, dev, trivial⟩
  obtain ⟨before, -⟩ := history_since cut (J := TokenOf d (hashRefresh env token) fun _ => True)
    (fun _ _ h => h) (held.exec (fun _ _ _ => trivial) e.q)
    fun f _ x h => h.exec (fun _ _ _ => trivial) f.q
  obtain ⟨f, mem, sweeps⟩ := deviceRevoke_sweeps revoke answered cut thread stmt
  obtain ⟨s, t', rfl⟩ := List.append_of_mem mem
  rw [← List.cons_append, ← List.append_assoc] at cut
  have swept : TokenOf d (hashRefresh env token) (fun t => t.revokedAt ≠ none)
      (Stmt.exec env f.q f.before).2 := by
    rw [sweeps]
    exact (before f mem).swept
  exact (history_since cut (fun _ _ h => h) swept
    fun g _ x h => h.exec (fun _ _ _ => nofun) g.q).2

/-- A request that begins in a shut state is refused. -/
theorem refused_of_shut {j : ι} {account : Uuid}
    (idle : ∀ f ∈ history env db (routed env reqs) ls, f.thread ≠ j)
    (shut : Shut env account d (reqs j) (serve env db (routed env reqs) ls).shared)
    (follows : (handle env (reqs j)).Follows (AccessStep env d (reqs j)) (RefusedAnswer (reqs j))
      .refused)
    (quiet : ∀ f ∈ historyAfter env db (routed env reqs) ls ls', f.q.approves d = false) :
    (∀ f ∈ history env db (routed env reqs) (ls ++ ls'), f.thread = j →
      SameAccountData f.q f.before (Stmt.exec env f.q f.before).2) ∧
    ∀ answer, Answered env db (routed env reqs) (ls ++ ls') j answer →
      (∃ e, answer = .error e) ∨ (reqs j).noAccountData = true := by
  have program : ((serve env db (routed env reqs) ls).prog j) = handle env (reqs j) :=
    Pool.prog_of_idle _ _ _ _ idle
  rw [← program] at follows
  obtain ⟨a, rest, inv⟩ := Pool.phase (Stmt.exec env) tick (i := j)
    (I := fun h a x => (∀ f ∈ h, f.q.approves d = false) → Shut env account d (reqs j) x ∧
      a = .refused ∧ ∀ f ∈ h, f.thread = j → f.q.sparesAccountData = true)
    (by
      intro h a x q b step inv quiet
      obtain ⟨past, last⟩ := List.forall_mem_append.mp quiet
      have still := last _ (List.mem_singleton_self _)
      obtain ⟨shut, rfl, spares⟩ := inv past
      obtain ⟨refused, spare⟩ := shut.refused still step
      refine ⟨shut.exec still, refused, List.forall_mem_append.mpr ⟨spares, ?_⟩⟩
      exact List.forall_mem_singleton.mpr fun _ => spare)
    (by
      intro h a x k q other inv quiet
      obtain ⟨past, last⟩ := List.forall_mem_append.mp quiet
      obtain ⟨shut, refused, spares⟩ := inv past
      refine ⟨shut.exec (last _ (List.mem_singleton_self _)), refused,
        List.forall_mem_append.mpr ⟨spares, ?_⟩⟩
      exact List.forall_mem_singleton.mpr fun same => absurd same other)
    (by
      intro h a x n inv quiet
      obtain ⟨⟨unapproved, tokens⟩, rest⟩ := inv quiet
      exact ⟨⟨⟨unapproved.owned, unapproved.status⟩, tokens⟩, rest⟩)
    (serve env db (routed env reqs) ls) follows (fun _ => ⟨shut, rfl, by simp⟩) ls'
  obtain ⟨-, rfl, spares⟩ := inv quiet
  constructor
  · intro f mem thread
    rw [history_append] at mem
    rcases List.mem_append.mp mem with old | new
    · exact absurd thread (idle f old)
    · exact Stmt.exec_sparesAccountData (spares f new thread) f.before
  · intro answer answered
    have same : serve env db (routed env reqs) (ls ++ ls') =
        Pool.run (Stmt.exec env) tick (serve env db (routed env reqs) ls) ls' :=
      Pool.run_append _ _ _ _ _
    rw [← same] at rest
    exact answered.final rest

/-- What follows an update of a device that a `device_revoke` has performed. -/
theorem revocation_effective {clock : Time} (revoke : reqs i = .deviceRevoke (some c) d)
    (answered : Answered env { clock := clock } (routed env reqs) ls i (.ok .noContent))
    (cut : history env { clock := clock } (routed env reqs) ls = past ++ e :: mid)
    (thread : e.thread = i) (stmt : e.q = .revokeDevice d c.sub)
    (owned : DeviceOf c.sub d e.before)
    (unverified : ∀ f ∈ mid ++ historyAfter env { clock := clock } (routed env reqs) ls ls',
      f.q ≠ .approveByTotp d) :
    ReapprovedExplicitly env reqs c.sub d (past ++ [e])
      (mid ++ historyAfter env { clock := clock } (routed env reqs) ls ls') ∧
    ((∀ f ∈ mid ++ historyAfter env { clock := clock } (routed env reqs) ls ls',
        ∀ approver account, f.q ≠ .approveDevice approver d account) →
      OnGuardedRoutes env { clock := clock } reqs ls d e.before →
      NoAccess env { clock := clock } reqs ls ls' d e.before) := by
  constructor
  · intro before f post split revoked approved
    have whole : history env { clock := clock } (routed env reqs) (ls ++ ls') =
        (past ++ [e] ++ before) ++ f :: post := by
      rw [history_append, cut]
      simp only [List.append_assoc, List.cons_append, List.nil_append, split]
    have fmem : f ∈ mid ++ historyAfter env { clock := clock } (routed env reqs) ls ls' := by
      rw [split]
      exact List.mem_append_right _ List.mem_cons_self
    -- the device is still one of the account, so only the two approvals remain
    have owned' : DeviceOf c.sub d f.before := by
      have cut' : history env { clock := clock } (routed env reqs) (ls ++ ls') =
          past ++ e :: (mid ++ historyAfter env { clock := clock } (routed env reqs) ls ls') := by
        rw [history_append, cut, List.append_assoc, List.cons_append]
      exact (history_since cut' (J := DeviceOf c.sub d) (fun _ _ h => h) owned.exec
        fun _ _ _ h => h.exec).1 f fmem
    obtain ⟨row, found, account⟩ := owned'
    obtain ⟨row', found', -, status⟩ := Stmt.exec_device env f.q found
    simp only [statusOf, found, found', Option.map_some, ne_eq, Option.some.injEq] at revoked approved
    rcases status with same | gone | ⟨-, totp | ⟨approver, stmt'⟩⟩
    · exact absurd (same ▸ approved) revoked
    · rw [gone] at approved
      cases approved
    · exact absurd totp (unverified f fmem)
    · obtain ⟨c', eq, -, sub, ⟨g, genuine, -, issued⟩, checked⟩ := routed_approvedBy whole stmt'
      have same : c'.sub = c.sub := sub.symm.trans account
      rw [← same]
      refine ⟨c', eq, rfl, ?_, checked⟩
      obtain ⟨s, t, split'⟩ := List.append_of_mem genuine
      rw [split', List.append_assoc, List.cons_append] at whole
      have sound := (routed_tokensSound env reqs (tokensSound_empty clock) (ls ++ ls')).1 g
        (by rw [whole]; exact List.mem_append_right _ List.mem_cons_self)
      exact (history_since whole (J := DeviceOf c'.sub c'.dev) (fun _ _ h => h)
        (sound.issued c' issued).exec fun _ _ _ h => h.exec).1 f
        (List.mem_append_right _ List.mem_cons_self)
  · intro unapproved guarded j idle presents
    have quiet : ∀ f ∈ mid ++ historyAfter env { clock := clock } (routed env reqs) ls ls',
        f.q.approves d = false := by
      intro f mem
      have totp := unverified f mem
      have device := unapproved f mem
      cases stmt' : f.q with
      | approveByTotp device' =>
          rw [stmt'] at totp
          simpa [Stmt.approves] using totp
      | approveDevice approver id account =>
          have other := device approver account
          rw [stmt'] at other
          simpa [Stmt.approves] using other
      | _ => rfl
    obtain ⟨during, later⟩ := List.forall_mem_append.mp quiet
    exact refused_of_shut idle
      (shut_of_answered revoke answered cut thread stmt owned during presents)
      (handle_followsAccess presents (guarded j idle presents)) later

/-- From an empty database, a `device_revoke` of a device that has answered has updated the device.
If the device was one of the caller's account then, and no `totp_verify` approves it afterwards:
only a `device_approve` by an approved device of the account approves it again. As long as that does
not happen, later requests get nothing with the tokens the device had, on all but the unguarded
routes. -/
theorem deviceRevoke_effective {clock : Time} (revoke : reqs i = .deviceRevoke (some c) d)
    (answered : Answered env { clock := clock } (routed env reqs) ls i (.ok .noContent)) :
    (∃ (past : List (Event ι Stmt Db)) (e : Event ι Stmt Db) (mid : List (Event ι Stmt Db)),
      history env { clock := clock } (routed env reqs) ls = past ++ e :: mid ∧
      e.thread = i ∧ e.q = .revokeDevice d c.sub) ∧
    ∀ (past : List (Event ι Stmt Db)) (e : Event ι Stmt Db) (mid : List (Event ι Stmt Db)),
      history env { clock := clock } (routed env reqs) ls = past ++ e :: mid →
      e.thread = i → e.q = .revokeDevice d c.sub → DeviceOf c.sub d e.before → ∀ ls',
      (∀ f ∈ mid ++ historyAfter env { clock := clock } (routed env reqs) ls ls',
        f.q ≠ .approveByTotp d) →
      ReapprovedExplicitly env reqs c.sub d (past ++ [e])
        (mid ++ historyAfter env { clock := clock } (routed env reqs) ls ls') ∧
      ((∀ f ∈ mid ++ historyAfter env { clock := clock } (routed env reqs) ls ls',
          ∀ approver account, f.q ≠ .approveDevice approver d account) →
        OnGuardedRoutes env { clock := clock } reqs ls d e.before →
        NoAccess env { clock := clock } reqs ls ls' d e.before) :=
  ⟨deviceRevoke_updates revoke answered, fun _ _ _ cut thread stmt owned _ unverified =>
    revocation_effective revoke answered cut thread stmt owned unverified⟩

end Revoked

end Runs

/-- The encodings and digests of the refresh tokens drawn below. -/
def revocationEnv : Env :=
  { Env.bare with
    bootstrapToken := some "bootstrap"
    random := fun draw n => List.replicate n (UInt8.ofNat draw)
    urlSafe := fun b =>
      if b = List.replicate 32 3 then "AwMDAwMDAwMDAwMDAwMDAwMDAwMDAwMDAwMDAwMDAwM"
      else "BwcHBwcHBwcHBwcHBwcHBwcHBwcHBwcHBwcHBwcHBwc"
    sha256 := fun b =>
      if b = utf8 "AwMDAwMDAwMDAwMDAwMDAwMDAwMDAwMDAwMDAwMDAwM" then
        [131, 190, 224, 114, 251, 211, 66, 63, 116, 129, 252, 22, 56, 33, 99, 106, 216, 207, 183, 63,
          174, 240, 221, 5, 129, 243, 151, 158, 160, 199, 49, 185]
      else
        [220, 75, 248, 12, 119, 71, 61, 19, 15, 160, 222, 134, 186, 64, 24, 254, 152, 187, 33, 64, 5,
          230, 165, 137, 29, 18, 186, 145, 68, 111, 158, 129] }

/-- The access token of one of the two devices that sign in below. -/
def accessOf (device : Uuid) : AccessClaims where
  sub := 1
  dev := device
  iat := 1700000000
  exp := 1700000600
  tok := .access

/-- Two devices sign in; the first revokes the second, which then asks for the vault or
for its transfers with its access token, and makes a request with its refresh token. -/
def revocationRequests (transfers : Bool) : Fin 5 → Request
  | 0 => .authBootstrap ⟨none, none⟩ ⟨"bootstrap", { name := "laptop", platform := "linux" }⟩
  | 1 => .authBootstrap ⟨none, none⟩ ⟨"bootstrap", { name := "phone", platform := "ios" }⟩
  | 2 => .deviceRevoke (some (accessOf 2)) 6
  | 3 => if transfers then .transferList (some (accessOf 6)) else .vaultGet (some (accessOf 6))
  | 4 => .authRefresh ⟨none, none⟩ "BwcHBwcHBwcHBwcHBwcHBwcHBwcHBwcHBwcHBwcHBwc"

/-- The sign-ins and the revocation. -/
def upToRevocation : List (Label (Fin 5) Nat) :=
  (List.replicate 11 0 ++ List.replicate 9 1 ++ List.replicate 5 2 : List (Fin 5)).map .thread

/-- The two requests of the revoked device. -/
def afterRevocation : List (Label (Fin 5) Nat) :=
  (List.replicate 4 3 ++ List.replicate 4 4 : List (Fin 5)).map .thread

/-- The events of the run up to the revocation. -/
def revocationEvents (transfers : Bool) : List (Event (Fin 5) Stmt Db) :=
  history revocationEnv { clock := seconds 1700000000 }
    (routed revocationEnv (revocationRequests transfers)) upToRevocation

/-- The run is cut at the revocation's update of the device. -/
theorem revocationEvents_cut (transfers : Bool) :
    ∃ past e, revocationEvents transfers = past ++ e :: (revocationEvents transfers).drop 24 ∧
      e.thread = 2 ∧ e.q = .revokeDevice 6 1 ∧ DeviceOf 1 6 e.before ∧
      TokenOf 6 (hashRefresh revocationEnv "BwcHBwcHBwcHBwcHBwcHBwcHBwcHBwcHBwcHBwcHBwc")
        (fun _ => True) e.before := by
  have long : 23 < (revocationEvents transfers).length := by
    revert transfers
    decide +kernel
  have facts : ∀ transfers : Bool, ∀ e ∈ (revocationEvents transfers)[23]?, e.thread = 2 ∧
      e.q = .revokeDevice 6 1 ∧ (e.before.devices.find? 6).map Device.account = some 1 ∧
      (findToken (hashRefresh revocationEnv "BwcHBwcHBwcHBwcHBwcHBwcHBwcHBwcHBwcHBwcHBwc")
        e.before).map RefreshToken.device = some 6 := by
    decide +kernel
  obtain ⟨thread, stmt, device, token⟩ := facts transfers _ (List.getElem?_eq_getElem long)
  have cut := List.take_append_drop 23 (revocationEvents transfers)
  rw [List.drop_eq_getElem_cons long] at cut
  obtain ⟨row, found, account⟩ := Option.map_eq_some_iff.mp device
  obtain ⟨t, found', dev⟩ := Option.map_eq_some_iff.mp token
  exact ⟨_, _, cut.symm, thread, stmt, ⟨row, found, account⟩, t, found', dev, trivial⟩

theorem revocation_answered (transfers : Bool) :
    Answered revocationEnv { clock := seconds 1700000000 }
      (routed revocationEnv (revocationRequests transfers)) upToRevocation 2 (.ok .noContent) := by
  cases transfers <;> rfl

/-- Nothing approves the device once it is revoked. -/
theorem revocation_unapproved (transfers : Bool) :
    ∀ f ∈ (revocationEvents transfers).drop 24 ++ historyAfter revocationEnv
      { clock := seconds 1700000000 } (routed revocationEnv (revocationRequests transfers))
      upToRevocation afterRevocation, f.q.approves 6 = false := by
  revert transfers
  decide +kernel

theorem Stmt.ne_of_approves {d : Uuid} {q : Stmt} (h : q.approves d = false) :
    q ≠ .approveByTotp d ∧ ∀ approver account, q ≠ .approveDevice approver d account := by
  refine ⟨?_, ?_⟩
  · rintro rfl
    simp [Stmt.approves] at h
  · rintro approver account rfl
    simp [Stmt.approves] at h

/-- The revoked device gets neither the vault nor new tokens. -/
theorem deviceRevoke_effective_vaultGet :
    ∃ e ∈ revocationEvents false, e.q = .revokeDevice 6 1 ∧ DeviceOf 1 6 e.before ∧
      PresentsTokenOf revocationEnv 6 e.before (revocationRequests false 4) ∧
      NoAccess revocationEnv { clock := seconds 1700000000 } (revocationRequests false)
        upToRevocation afterRevocation 6 e.before := by
  obtain ⟨past, e, cut, thread, stmt, owned, t, found, dev, -⟩ := revocationEvents_cut false
  have quiet := revocation_unapproved false
  have guarded : OnGuardedRoutes revocationEnv { clock := seconds 1700000000 }
      (revocationRequests false) upToRevocation 6 e.before := by
    have all : ∀ j, (revocationRequests false j).unguarded = false := by decide
    exact fun j _ _ => all j
  refine ⟨e, by rw [cut]; exact List.mem_append_right _ List.mem_cons_self, stmt, owned,
    .inr ⟨_, _, t, rfl, found, dev⟩, ?_⟩
  have revoke : revocationRequests false 2 = .deviceRevoke (some (accessOf 2)) 6 := rfl
  exact ((deviceRevoke_effective revoke (revocation_answered false)).2 past e _ cut thread stmt
    owned afterRevocation fun f mem => (Stmt.ne_of_approves (quiet f mem)).1).2
    (fun f mem => (Stmt.ne_of_approves (quiet f mem)).2) guarded

/-- The revoked device, still revoked, lists the account's transfers. -/
theorem revokedTransferList_not_denied :
    ∃ past e, revocationEvents true = past ++ e :: (revocationEvents true).drop 24 ∧
      e.thread = 2 ∧ e.q = .revokeDevice 6 1 ∧ DeviceOf 1 6 e.before ∧
      Answered revocationEnv { clock := seconds 1700000000 }
        (routed revocationEnv (revocationRequests true)) upToRevocation 2 (.ok .noContent) ∧
      (∀ f ∈ (revocationEvents true).drop 24 ++ historyAfter revocationEnv
        { clock := seconds 1700000000 } (routed revocationEnv (revocationRequests true))
        upToRevocation afterRevocation, f.q.approves 6 = false) ∧
      ¬ NoAccess revocationEnv { clock := seconds 1700000000 } (revocationRequests true)
        upToRevocation afterRevocation 6 e.before := by
  obtain ⟨past, e, cut, thread, stmt, owned, -⟩ := revocationEvents_cut true
  refine ⟨past, e, cut, thread, stmt, owned, revocation_answered true, revocation_unapproved true,
    ?_⟩
  intro denied
  have idle : ∀ f ∈ history revocationEnv { clock := seconds 1700000000 }
      (routed revocationEnv (revocationRequests true)) upToRevocation, f.thread ≠ 3 := by
    decide +kernel
  rcases (denied 3 idle (.inl ⟨accessOf 6, rfl, rfl⟩)).2 (.ok (.transfers [])) rfl with
    ⟨err, failed⟩ | spared
  · cases failed
  · cases spared

end Sentinel.Api
