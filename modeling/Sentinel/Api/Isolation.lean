import Sentinel.Api.Scope

/-!
# Isolation of accounts

Each authenticated handler stays within the scope of its token's account, so its
answer depends on that account's rows (and on what the whole server shares), and
other accounts' rows are unchanged. The attack monitor is shared by design, as the
last theorem shows.
-/

namespace Sentinel.Api

open Atomic Handler Relational

namespace Request

/-- Devices named in a body that a foreign key is checked against. -/
def named : Request → List Uuid
  | .wrappedPut _ _ req => req.deviceId.toList
  | .unlockCreate _ _ req => [req.phoneDevice]
  | _ => []

/-- The device whose tokens the request sweeps. -/
def swept : Request → Option Uuid
  | .deviceRevoke _ id => some id
  | _ => none

def scope (r : Request) (account : Uuid) (base : Nat) : Scope where
  account := account
  base := base
  named := r.named
  swept := r.swept

end Request

section Handlers

variable {env : Env} {S : Scope} {known : List Fact} {α : Type}

theorem scope_of_within {h : Handler α} (within : h.Within (Scoped env S known) fun _ => True) :
    h.Follows (ScopeStep env S) (fun _ _ => True) known :=
  within.follows (fun q res inScope => .plain q res inScope) (fun _ _ => trivial) fun _ => trivial

theorem scope_bind {β : Type} {h : Handler β} {post : β → Prop} {f : β → Handler α}
    (within : h.Within (Scoped env S known) post)
    (rest : ∀ b, post b → (f b).Follows (ScopeStep env S) (fun _ _ => True) known) :
    (h >>= f).Follows (ScopeStep env S) (fun _ _ => True) known := by
  rw [follows_bind]
  exact within.follows (fun q res inScope => .plain q res inScope) rest fun _ => trivial

theorem Scoped.of_process {q : Stmt} (group : q.group = .process) : Scoped env S known q := by
  cases q <;> trivial

theorem Stmt.process_of_isMonitor {q : Stmt} (h : q.isMonitor = true) : q.group = .process := by
  cases q <;> first | rfl | cases h

theorem Stmt.process_of_isTokenCheck {q : Stmt} (h : q.isTokenCheck = true) :
    q.group = .process := by
  cases q <;> first | rfl | cases h

theorem scope_bearer {c : AccessClaims} {kind : TokenKind} {f : Auth → Handler α}
    (rest : (f { account := c.sub, device := c.dev }).Follows (ScopeStep env S) (fun _ _ => True)
      known) : (verifyWithKind (some c) kind >>= f).Follows (ScopeStep env S) (fun _ _ => True)
        known := by
  refine scope_bind ((verifyWithKind_within (some c) kind).mono (fun _ check =>
    .of_process (Stmt.process_of_isTokenCheck check)) fun _ h => h) ?_
  rintro a ⟨c', eq, -, rfl⟩
  cases eq
  exact rest

/-- The head of a guarded handler. -/
theorem scope_authorized {c : AccessClaims} (mem : .device c.dev ∈ known) {f : Auth → Handler α}
    (rest : (f { account := c.sub, device := c.dev }).Follows (ScopeStep env S) (fun _ _ => True)
      known) :
    (verifyAccess (some c) >>= fun a => requireApprovedDevice a.device >>= fun _ => f a).Follows
      (ScopeStep env S) (fun _ _ => True) known := by
  have approved : (requireApprovedDevice c.dev).Within (Scoped env S known) fun _ => True := by
    simp only [requireApprovedDevice, within_bind, within_sql, within_okOr, within_ensure]
    exact ⟨mem, fun _ _ _ _ => trivial⟩
  exact scope_bearer (scope_bind approved fun _ _ => rest)

theorem checkTotpCode_scoped (ip code : String) :
    (checkTotpCode env S.account ip code).Within (Scoped env S known) fun _ => True := by
  have locked : (enforceLockout env S.account ip).Within (Scoped env S known) fun _ => True := by
    simp only [enforceLockout, within_bind, within_sql]
    refine ⟨rfl, fun locked => ?_⟩
    cases locked with
    | none => exact (within_pure _).mpr trivial
    | some until_ =>
        simp only [within_bind, within_sql]
        refine ⟨trivial, fun now => ?_⟩
        split <;> simp only [within_bind, record, within_sqlIgnore, within_throw, within_pure,
          Scoped, and_self]
  simp only [checkTotpCode, within_bind]
  refine locked.mono (fun _ h => h) fun _ _ => ?_
  simp only [within_sql, within_okOr, nowSecs, within_bind, within_pure, Scoped, true_and]
  intro _ _ _ _ _ now
  split
  · simp only [within_sql, Scoped, true_and, implies_true]
  · simp only [within_bind, within_sql, record, within_sqlIgnore]
    exact ⟨rfl, fun _ => ⟨trivial, (maybeAutoban_within env ip).mono
      (fun _ monitor => .of_process (Stmt.process_of_isMonitor monitor))
      fun _ _ => (within_throw _).mpr trivial⟩⟩

theorem mintSession_scope {d : Uuid} (mem : .device d ∈ known) {f : TokensResp → Handler α}
    (rest : ∀ tokens known', (f tokens).Follows (ScopeStep env S) (fun _ _ => True) known') :
    (mintSession env S.account d none >>= f).Follows (ScopeStep env S) (fun _ _ => True)
      known := by
  have plain : ∀ {known : List Fact} {q : Stmt} {res}, q.group = .process →
      ScopeStep env S known q res known := fun h => .plain _ _ (.of_process h)
  simp only [mintSession, nowSecs, issueAccess, issue, mintRefresh, follows_bind, follows_sql,
    follows_andThen_ok, follows_andThen_error, follows_pure, and_true]
  refine ⟨fun now => ⟨_, plain rfl, fun _ => ⟨_, plain rfl, fun b => ⟨_, .drew b, fun today =>
    ⟨_, plain rfl, ?_⟩, fun e => ⟨_, plain rfl⟩⟩, fun e => ⟨known, plain rfl⟩⟩,
    fun e => ⟨_, plain rfl⟩⟩, fun e => ⟨_, plain rfl⟩⟩
  have store : Scoped env S (.drawn b :: known) (.insertRefresh S.account d
      (hashRefresh env (env.urlSafe b)) none (today + days 30)) :=
    ⟨rfl, List.mem_cons_of_mem _ mem, rfl, b, List.mem_cons_self, rfl⟩
  exact ⟨fun _ => ⟨_, .plain _ _ store, rest _ _⟩, fun e => ⟨_, .plain _ _ store⟩⟩

theorem pollUnlock_scope (id : Uuid) (rounds : Nat) (request : Option UnlockMeta) :
    (pollUnlock S.account id rounds request).Follows (ScopeStep env S) (fun _ _ => True) known := by
  induction rounds generalizing request known with
  | zero => trivial
  | succ rounds ih =>
      simp only [pollUnlock, follows_bind, follows_sql, follows_okOr, follows_andThen_ok,
        follows_andThen_error, implies_true, and_true]
      refine ⟨fun row => ?_, fun e => ⟨known, .plain _ _ rfl⟩⟩
      cases row with
      | none => exact ⟨known, .plain _ _ rfl, by rintro _ ⟨⟩⟩
      | some u =>
          refine ⟨_, .unlock id u, ?_⟩
          rintro row ⟨⟩
          have again : ∀ state, (if state = .pending then
                pollUnlock S.account id rounds (some u.requestMeta)
              else pure (.unlock state (some u.requestMeta) u.responsePayload)).Follows
              (ScopeStep env S) (fun _ _ => True) (.unlock id :: known) := by
            intro state
            split
            · exact ih _
            · trivial
          unfold settleExpiry
          split
          · simp only [follows_bind, follows_sql, follows_andThen_ok, follows_andThen_error, and_true]
            refine ⟨fun now => ⟨_, .plain _ _ trivial, ?_⟩, fun e => ⟨_, .plain _ _ trivial⟩⟩
            have expire : Scoped env S (.unlock id :: known) (.expireUnlock id) := List.mem_cons_self
            split
            · simp only [follows_bind, follows_sql, follows_andThen_ok, follows_andThen_error,
                follows_pure, and_true]
              exact ⟨fun _ => ⟨_, .plain _ _ expire, again _⟩, fun e => ⟨_, .plain _ _ expire⟩⟩
            · exact again .pending
          · exact again u.state

theorem transferCreate_scope {caller : Caller} {req : TransferCreateReq} {c : AccessClaims}
    {base : Nat} (own : .device c.dev ∈ known) :
    (transferCreate env caller (some c) req).Follows
      (ScopeStep env ((Request.transferCreate caller (some c) req).scope c.sub base))
      (fun _ _ => True) known := by
  have limited : (rateLimit env caller (.transfer c.sub) 20 3600).Within (Scoped env
      ((Request.transferCreate caller (some c) req).scope c.sub base) known) fun _ => True := by
    simp only [rateLimit, within_bind, within_sql, within_ensure, Scoped, implies_true, and_self]
  refine scope_authorized own (scope_bind limited fun _ _ => ?_)
  simp only [follows_bind, follows_okOr, follows_ensure, follows_andThen_ok, follows_andThen_error,
    implies_true, and_true]
  intro ct _ _ _
  -- the rest, once the recipient is known to be the account's
  have store : ∀ known', .device c.dev ∈ known' → (∀ r ∈ req.recipientDevice, .device r ∈ known') →
      (do let used ← sql (.liveTransferBytes c.sub)
          ensure (decide (used + ct.length ≤ transferMaxPendingBytes))
            (.badRequest "storage quota exceeded — delete old transfers")
          let id ← sql (.insertTransfer c.sub c.dev req.recipientDevice req.sizeBytes ct
            req.retention req.deleteOnDownload req.permanent)
          pure (.created id) : Handler Response).Follows
        (ScopeStep env ((Request.transferCreate caller (some c) req).scope c.sub base))
        (fun _ _ => True) known' := by
    intro known' own' recipients
    refine scope_of_within ?_
    simp only [within_bind, within_sql, within_ensure, within_pure, implies_true, and_true]
    exact ⟨rfl, fun _ _ => ⟨rfl, own', recipients⟩⟩
  unfold checkRecipient
  split
  · rename_i absent
    exact store known own (by simp [absent])
  · rename_i r recipient
    rw [follows_bind, follows_sql]
    refine ⟨fun found => ?_, fun e => ⟨known, .plain _ _ rfl, trivial⟩⟩
    cases found with
    | false => exact ⟨known, .plain _ _ rfl, trivial⟩
    | true =>
        exact ⟨_, .device r, store (.device r :: known) (List.mem_cons_of_mem _ own)
          (by simp [recipient])⟩

theorem transferDownload_scope (d id : Uuid) :
    (do let row ← sql (.transferRow id S.account)
        let row ← okOr row .notFound
        expireOnDownload id row
        ensure (row.visibleTo d) .forbidden
        settleDownload { account := S.account, device := d } id row
        pure (.transferBlob row.senderDevice row.sizeBytes row.ciphertext) :
      Handler Response).Follows (ScopeStep env S) (fun _ _ => True) known := by
  rw [follows_bind, follows_sql]
  refine ⟨fun row => ?_, fun e => ⟨known, .plain _ _ rfl, trivial⟩⟩
  cases row with
  | none => exact ⟨known, .plain _ _ rfl, trivial⟩
  | some f =>
      refine ⟨_, .transfer id f, ?_⟩
      rw [follows_andThen_ok]
      refine scope_of_within ?_
      have own : Fact.transfer id ∈ Fact.transfer id :: known := List.mem_cons_self
      have expiry : (expireOnDownload id f).Within (Scoped env S (.transfer id :: known))
          fun _ => True := by
        unfold expireOnDownload
        split
        · exact (within_pure _).mpr trivial
        simp only [within_bind, within_sql]
        refine ⟨trivial, fun now => ?_⟩
        split <;> simp only [within_bind, within_sql, within_throw, within_pure, Scoped, own,
          implies_true, and_self]
      simp only [okOr, within_bind, within_pure, within_ensure]
      refine expiry.mono (fun _ h => h) fun _ _ _ => ?_
      unfold settleDownload
      split
      · simp only [within_pure]
      split <;> simp only [within_sql, Scoped, own, implies_true, and_self]

/-- Every authenticated route stays within the scope of its token's account. -/
theorem handle_followsScope {r : Request} {c : AccessClaims} (bearer : r.bearer = some c)
    (base : Nat) : (handle env r).Follows (ScopeStep env (r.scope c.sub base)) (fun _ _ => True)
      [.device c.dev] := by
  have own : Fact.device c.dev ∈ [Fact.device c.dev] := List.mem_singleton_self _
  cases r with
  | totpEnroll b =>
      obtain rfl : b = some c := bearer
      refine scope_bearer (scope_of_within ?_)
      simp only [sealSecret, within_bind, within_sql, within_pure, Scoped, Request.scope,
        implies_true, and_self]
  | totpVerify caller b code =>
      obtain rfl : b = some c := bearer
      refine scope_bearer (scope_bind ((guard_within env caller (.totp c.sub) 10 60).mono
        (fun _ monitor => .of_process (Stmt.process_of_isMonitor monitor)) fun _ h => h)
        fun ip _ => scope_bind (checkTotpCode_scoped ip code) fun _ _ => ?_)
      have confirm : (sql (.confirmTotp c.sub)).Within
          (Scoped env ((Request.totpVerify caller (some c) code).scope c.sub base) [.device c.dev])
          fun _ => True := (within_sql _).mpr ⟨rfl, fun _ => trivial⟩
      have approve : (sql (.approveByTotp c.dev)).Within
          (Scoped env ((Request.totpVerify caller (some c) code).scope c.sub base) [.device c.dev])
          fun _ => True := (within_sql _).mpr ⟨own, fun _ => trivial⟩
      refine scope_bind confirm fun _ _ => scope_bind approve fun _ _ =>
        mintSession_scope own fun tokens known' => scope_of_within ?_
      simp only [within_bind, record, within_sqlIgnore, within_pure, Scoped, and_self]
  | enrollCodeMint caller b =>
      obtain rfl : b = some c := bearer
      have limited : (rateLimit env caller (.enrollMint c.sub) 10 3600).Within (Scoped env
          ((Request.enrollCodeMint caller (some c)).scope c.sub base) [.device c.dev])
          fun _ => True := by
        simp only [rateLimit, within_bind, within_sql, within_ensure, Scoped, implies_true, and_self]
      refine scope_authorized own (scope_bind limited fun _ _ => ?_)
      simp only [mintRefresh, follows_bind, follows_sql, follows_andThen_ok, follows_andThen_error,
        follows_pure, and_true]
      refine ⟨fun b => ⟨_, .drew b, ?_⟩, fun e => ⟨[.device c.dev], .plain _ _ trivial⟩⟩
      have store : Scoped env ((Request.enrollCodeMint caller (some c)).scope c.sub base)
          [.drawn b, .device c.dev] (.insertEnrollCode c.sub (hashRefresh env (env.urlSafe b))) :=
        ⟨rfl, b, List.mem_cons_self, rfl⟩
      exact ⟨fun _ => ⟨_, .plain _ _ store⟩, fun e => ⟨_, .plain _ _ store⟩⟩
  | unlockGet b id =>
      obtain rfl : b = some c := bearer
      exact scope_bearer (pollUnlock_scope id 3 none)
  | transferCreate caller b req =>
      obtain rfl : b = some c := bearer
      exact transferCreate_scope own
  | transferDownload b id =>
      obtain rfl : b = some c := bearer
      exact scope_bearer (transferDownload_scope c.dev id)
  | vaultGet b =>
      obtain rfl : b = some c := bearer
      refine scope_authorized own (scope_of_within ?_)
      simp only [within_bind, within_sql]
      refine ⟨rfl, fun row => ?_⟩
      split <;> simp only [within_pure]
  | vaultPut b ifMatch ciphertext =>
      obtain rfl : b = some c := bearer
      refine scope_authorized own (scope_of_within ?_)
      simp only [vaultStore, within_bind, within_okOr, within_ensure, within_sql]
      refine fun _ _ _ _ _ => ⟨rfl, fun current => ?_⟩
      split <;>
        simp only [within_bind, within_ensure, within_sql, within_pure, Scoped, Request.scope, own,
          implies_true, and_self]
  | unlockRespond b id req =>
      obtain rfl : b = some c := bearer
      refine scope_authorized own (scope_of_within ?_)
      simp only [within_bind, within_okOr]
      refine fun state _ => ?_
      unfold answerPayload
      split <;>
        simp only [within_bind, within_throw, within_ensure, within_sql, within_pure, Scoped,
          Request.scope, implies_true, and_self]
  | securityBan b ip minutes =>
      obtain rfl : b = some c := bearer
      refine scope_bearer (scope_of_within ?_)
      simp only [within_bind, within_pure, ban]
      split
      · exact (within_pure _).mpr trivial
      split
      · split <;> simp only [within_sql, Scoped, implies_true, and_self]
      · simp only [within_sql, Scoped, implies_true, and_self]
  | securityUnban b ip =>
      obtain rfl : b = some c := bearer
      refine scope_bearer (scope_of_within ?_)
      simp only [within_bind, within_pure, unban]
      split <;> simp only [within_pure, within_sql, Scoped, implies_true, and_self]
  | wrappedPut b wt req =>
      obtain rfl : b = some c := bearer
      refine scope_authorized own (scope_of_within ?_)
      simp only [within_bind, within_okOr, within_ensure, within_sql, within_pure, implies_true,
        and_true]
      exact fun _ _ _ _ => ⟨rfl, fun d named => Option.mem_toList.mpr named⟩
  | passwordEnroll b _ | wrappedGet b _ | wrappedDelete b _ | adminUpdate b | deviceApprove b _
  | deviceRevoke b _ | unlockCreate _ b _ =>
      obtain rfl : b = some c := bearer
      refine scope_authorized own (scope_of_within ?_)
      simp only [rateLimit, within_bind, within_okOr, within_ensure, within_sql, within_pure, Scoped,
        Request.scope, Request.named, Request.swept, own, List.mem_singleton, implies_true, and_self]
  | authLogout b | devicesList b | devicePin b _ | pushRegister b _ | transferList b
  | transferDelete b _ | securityEventsList b _ _ | securitySummary b =>
      obtain rfl : b = some c := bearer
      refine scope_bearer (scope_of_within ?_)
      simp only [within_bind, within_okOr, within_ensure, within_sql, within_pure, Scoped,
        Request.scope, implies_true, and_self]
  | _ => cases bearer

end Handlers

/-- The databases agree on the account's devices, so the caller's is there in both. -/
theorem SameView.deviceOf {S : Scope} {s t : Db} (same : SameView S s t) {d : Uuid}
    (own : DeviceOf S.account d s) : DeviceOf S.account d t := by
  obtain ⟨row, found, account⟩ := own
  have mem := same.devices.mem (Table.mem_of_find? found) (decide_eq_true account)
  refine ⟨row, ?_, account⟩
  rw [← Table.key_of_find? found]
  exact Table.find?_of_mem mem

/-- An authenticated request of a device of the account, on any route and with any
ids and bodies. Its answer is the same on any two databases that agree on the
account's rows, the attack monitor, the process state, and the existence of the
devices its body names; and the rows of other accounts are unchanged, refresh tokens
of a device named by `device_revoke` apart. Ids and digests still to be drawn are
taken not to be in use. -/
theorem handle_isolated (env : Env) {r : Request} {c : AccessClaims} (bearer : r.bearer = some c)
    {s t : Db} (own : DeviceOf c.sub c.dev s) (same : SameView (r.scope c.sub s.supply) s t)
    (freshS : Fresh env (r.scope c.sub s.supply) s)
    (freshT : Fresh env (r.scope c.sub s.supply) t) :
    ((handle env r).perform env s).1 = ((handle env r).perform env t).1 ∧
      OthersKept (r.scope c.sub s.supply) s ((handle env r).perform env s).2 := by
  obtain ⟨answers, -, kept⟩ := isolated_run (handle_followsScope bearer s.supply) same freshS freshT
    (Nat.le_refl _) (List.forall_mem_singleton.mpr own)
    (List.forall_mem_singleton.mpr (same.deviceOf own))
  exact ⟨answers, kept⟩

/-- Account 10 with device 11, signed in. -/
def loneAccount : Db where
  accounts := ownAccounts
  devices := ownDesktop
  issued := [⟨10, 11, 0, 600, .access⟩]
  supply := 30

/-- The same with a transfer of account 20. -/
def foreignTransfer : Db :=
  { loneAccount with
    fileTransfers := ⟨[{ id := 22, account := 20, senderDevice := 21, recipientDevice := none
                         sizeBytes := 1, ciphertext := [0], state := .pending, createdAt := 0
                         expiresAt := days 1, deleteOnDownload := false, permanent := false }],
      by decide⟩ }

/-- The caller does not see the other account's transfer. -/
theorem handle_isolated_transferList :
    foreignTransfer.fileTransfers.rows.length = 1 ∧
    ((handle Env.bare (.transferList (some ⟨10, 11, 0, 600, .access⟩))).perform Env.bare
      loneAccount).1 =
    ((handle Env.bare (.transferList (some ⟨10, 11, 0, 600, .access⟩))).perform Env.bare
      foreignTransfer).1 := by
  refine ⟨rfl, (handle_isolated Env.bare (c := ⟨10, 11, 0, 600, .access⟩) rfl ?_ ?_ ?_ ?_).1⟩
  · exact ⟨_, rfl, rfl⟩
  · exact ⟨rfl, rfl, rfl, rfl, rfl, rfl, rfl, rfl, rfl, fun _ _ => rfl, rfl, rfl, rfl, rfl, rfl, rfl,
      rfl⟩
  · exact ⟨nofun, nofun, nofun, nofun⟩
  · refine ⟨nofun, nofun, nofun, fun f mem _ n later => ?_⟩
    obtain rfl := List.mem_singleton.mp mem
    have : 30 ≤ n := later
    show 22 ≠ n
    omega

/-- The same with a security event of account 20. -/
def foreignEvent : Db :=
  { loneAccount with
    securityEvents := [{ id := 23, account := some 20, kind := .totpFail, ip := none, detail := none
                         createdAt := seconds 1 }] }

/-- The attack monitor is one for the whole server: the caller sees the other
account's event. -/
theorem securityEventsList_not_isolated :
    DeviceOf 10 11 loneAccount ∧ { foreignEvent with securityEvents := [] } = loneAccount ∧
    (∀ e ∈ foreignEvent.securityEvents, e.account = some 20) ∧
    ((handle Env.bare (.securityEventsList (some ⟨10, 11, 0, 600, .access⟩) none none)).perform
      Env.bare loneAccount).1 ≠
    ((handle Env.bare (.securityEventsList (some ⟨10, 11, 0, 600, .access⟩) none none)).perform
      Env.bare foreignEvent).1 := by
  refine ⟨⟨_, rfl, rfl⟩, rfl, by decide, ?_⟩
  have quiet : ((handle Env.bare (.securityEventsList (some ⟨10, 11, 0, 600, .access⟩) none
    none)).perform Env.bare loneAccount).1 = .ok (.events []) := rfl
  have seen : ((handle Env.bare (.securityEventsList (some ⟨10, 11, 0, 600, .access⟩) none
    none)).perform Env.bare foreignEvent).1 = .ok (.events [⟨23, .totpFail, none, none, 1⟩]) := rfl
  rw [quiet, seen]
  simp

end Sentinel.Api
