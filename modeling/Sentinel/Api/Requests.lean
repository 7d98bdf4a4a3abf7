import Sentinel.Api.Interleaving

/-!
# Which request performs which statement

The statements that decide over devices and second factors, and the requests they
can come from: `Request.Performs` names, for each such statement, its request and
the token that authenticates it. `handle_within` checks it against every handler.
-/

namespace Sentinel.Api

open Handler

/-- The claims of the bearer token, where the route takes one. -/
def Request.bearer : Request → Option AccessClaims
  | .totpEnroll b | .totpVerify _ b _ | .authLogout b | .vaultGet b | .vaultPut b _ _
  | .wrappedGet b _ | .wrappedPut b _ _ | .wrappedDelete b _ | .enrollCodeMint _ b
  | .passwordEnroll b _ | .devicesList b | .devicePin b _ | .deviceApprove b _ | .deviceRevoke b _
  | .unlockCreate _ b _ | .unlockGet b _ | .unlockRespond b _ _ | .pushRegister b _
  | .transferList b | .transferCreate _ b _ | .transferDownload b _ | .transferDelete b _
  | .adminUpdate b | .securityEventsList b _ _ | .securitySummary b | .securityBan b _ _
  | .securityUnban b _ => b
  | _ => none

/-- The routes that sign a token or start a session. -/
def Request.mintsTokens : Request → Bool
  | .authGoogle .. | .authBootstrap .. | .authPassword .. | .authEnroll .. | .authRefresh ..
  | .totpVerify .. => true
  | _ => false

/-- A statement that approves a device, signs a token, starts a session or writes an
account's second factor can only come from this request; the other statements are
not restricted here. -/
def Request.Performs (r : Request) : Stmt → Prop
  | .issueToken _ | .insertRefresh .. => r.mintsTokens = true
  | .approveByTotp device => ∃ caller claims code,
      r = .totpVerify caller (some claims) code ∧ device = claims.dev
  | .confirmTotp account => ∃ caller claims code,
      r = .totpVerify caller (some claims) code ∧ account = claims.sub
  | .approveDevice approver id account => ∃ claims,
      r = .deviceApprove (some claims) id ∧ approver = claims.dev ∧ account = claims.sub
  | .setTotpSecret _ account => ∃ claims,
      r = .totpEnroll (some claims) ∧ account = claims.sub
  | _ => True

theorem Request.performs_of_isTokenCheck {r : Request} {q : Stmt} (h : q.isTokenCheck = true) :
    r.Performs q := by
  cases q <;> trivial

theorem Request.performs_of_isMonitor {r : Request} {q : Stmt} (h : q.isMonitor = true) :
    r.Performs q := by
  cases q <;> trivial

theorem Request.performs_of_readOnly {r : Request} {q : Stmt} (h : q.readOnly = true) :
    r.Performs q := by
  cases q <;> trivial

section Blocks

variable {α : Type} {r : Request} {post : α → Prop}

theorem within_verified {bearer : Option AccessClaims} {kind : TokenKind} {f : Auth → Handler α}
    (h : ∀ claims, bearer = some claims →
      (f { account := claims.sub, device := claims.dev }).Within r.Performs post) :
    (verifyWithKind bearer kind >>= f).Within r.Performs post := by
  refine (within_bind _ _).mpr ((verifyWithKind_within bearer kind).mono
    (fun _ check => Request.performs_of_isTokenCheck check) ?_)
  rintro a ⟨claims, presented, -, rfl⟩
  exact h claims presented

theorem within_guarded {env : Env} {caller : Caller} {action : LimitAction} {max : Nat} {secs : Int}
    {f : String → Handler α} (h : ∀ ip, (f ip).Within r.Performs post) :
    (guard env caller action max secs >>= f).Within r.Performs post :=
  (within_bind _ _).mpr ((guard_within env caller action max secs).mono
    (fun _ monitor => Request.performs_of_isMonitor monitor) fun ip _ => h ip)

theorem within_autobanned {env : Env} {ip : String} {f : Unit → Handler α}
    (h : (f ()).Within r.Performs post) :
    (maybeAutoban env ip >>= f).Within r.Performs post :=
  (within_bind _ _).mpr ((maybeAutoban_within env ip).mono
    (fun _ monitor => Request.performs_of_isMonitor monitor) fun _ _ => h)

theorem within_approved {device : Uuid} {f : Unit → Handler α}
    (h : (f ()).Within r.Performs post) :
    (requireApprovedDevice device >>= f).Within r.Performs post := by
  simp only [requireApprovedDevice, within_bind, within_sql, within_okOr, within_ensure]
  exact ⟨trivial, fun _ _ _ _ => h⟩

/-- The head of most handlers: a valid access token of an approved device. -/
theorem within_authorized {bearer : Option AccessClaims} {f : Auth → Handler α}
    (h : ∀ claims, bearer = some claims →
      (f { account := claims.sub, device := claims.dev }).Within r.Performs post) :
    (verifyAccess bearer >>= fun a => requireApprovedDevice a.device >>= fun _ => f a).Within
      r.Performs post :=
  within_verified fun claims presented => within_approved (h claims presented)

end Blocks

section Handlers

variable {env : Env} {r : Request}

theorem rejected_within {kind : EventKind} {ip : String} {account : Option Uuid} {e : ApiError} :
    (do record env account kind ip none
        maybeAutoban env ip
        throw e : Handler Response).Within r.Performs fun _ => True := by
  simp only [within_bind, record, within_sqlIgnore]
  exact ⟨trivial, (within_bind _ _).mp (within_autobanned ((within_throw e).mpr trivial))⟩

theorem mintSession_within (mints : r.mintsTokens = true) (account device : Uuid)
    (parent : Option Uuid) :
    (mintSession env account device parent).Within r.Performs fun _ => True := by
  simp only [mintSession, nowSecs, issueAccess, issue, mintRefresh, within_bind, within_sql,
    within_pure, Request.Performs, mints, implies_true, and_self]

theorem signIn_within (mints : r.mintsTokens = true) (account : Uuid) (name : String)
    (platform : Platform) (ip detail : String) :
    (signIn env account name platform ip detail).Within r.Performs fun _ => True := by
  simp only [signIn, within_bind, within_sql, record, within_sqlIgnore, within_pure]
  exact ⟨trivial, fun device => (mintSession_within mints account device none).mono (fun _ h => h)
    fun _ _ => ⟨trivial, trivial⟩⟩

theorem validDevice_within (device : DeviceReq) :
    (validDevice device).Within r.Performs fun _ => True := by
  unfold validDevice
  split
  · exact (within_throw _).mpr trivial
  · exact (within_okOr _ _).mpr fun _ _ => trivial

/-- The lockout check only reads and records. -/
theorem enforceLockout_within (account : Uuid) (ip : String) :
    (enforceLockout env account ip).Within
      (fun q => q.readOnly = true ∨ q.isMonitor = true) fun _ => True := by
  simp only [enforceLockout, within_bind, within_sql]
  refine ⟨.inl rfl, fun locked => ?_⟩
  cases locked with
  | none => exact (within_pure _).mpr trivial
  | some until_ =>
      simp only [within_bind, within_sql]
      refine ⟨.inl rfl, fun now => ?_⟩
      split
      · simp only [within_bind, record, within_sqlIgnore, within_throw, and_true]
        exact .inr rfl
      · exact (within_pure _).mpr trivial

theorem checkTotpCode_within (account : Uuid) (ip code : String) :
    (checkTotpCode env account ip code).Within r.Performs fun _ => True := by
  simp only [checkTotpCode, within_bind]
  refine (enforceLockout_within account ip).mono (fun q h => h.elim
    Request.performs_of_readOnly Request.performs_of_isMonitor) fun _ _ => ?_
  simp only [within_sql, within_okOr, nowSecs, within_bind, within_pure, Request.Performs, true_and]
  intro _ _ _ _ _ now
  split
  · simp only [within_sql, Request.Performs, true_and, implies_true]
  · simp only [within_bind, within_sql, record, within_sqlIgnore]
    exact ⟨trivial, fun _ => ⟨trivial,
      (within_bind _ _).mp (within_autobanned ((within_throw _).mpr trivial))⟩⟩

theorem pwAuthAccount_within : pwAuthAccount.Within r.Performs fun _ => True := by
  simp only [pwAuthAccount, within_bind, within_sql]
  refine ⟨trivial, fun rows => ?_⟩
  split <;> simp only [within_throw, within_pure]

theorem googleAccount_within (claims : GoogleClaims) :
    (googleAccount claims).Within r.Performs fun _ => True := by
  simp only [googleAccount, within_bind, within_sql]
  refine ⟨trivial, fun rekeyed => ?_⟩
  split <;> simp only [within_pure, within_sql, Request.Performs, implies_true, and_self]

theorem bootstrapAccount_within : bootstrapAccount.Within r.Performs fun _ => True := by
  simp only [bootstrapAccount, within_bind, within_sql]
  refine ⟨trivial, fun flagged => ?_⟩
  split
  · exact (within_pure _).mpr trivial
  simp only [within_bind, within_sql]
  refine ⟨trivial, fun adopted => ?_⟩
  split <;> simp only [within_pure, within_sql, Request.Performs, implies_true, and_self]

theorem passwordSecondFactor_within (account : Uuid) (ip : String) (code : Option String) :
    (passwordSecondFactor env account ip code).Within r.Performs fun _ => True := by
  simp only [passwordSecondFactor, within_bind, within_sql]
  refine ⟨trivial, fun totpOn => ?_⟩
  split
  · simp only [within_bind, within_okOr]
    exact fun code _ => checkTotpCode_within account ip code
  · exact (within_pure _).mpr trivial

theorem authGoogle_within (mints : r.mintsTokens = true) (caller : Caller) (req : GoogleReq) :
    (authGoogle env caller req).Within r.Performs fun _ => True := by
  refine within_guarded fun ip => ?_
  simp only [within_bind]
  refine (validDevice_within req.device).mono (fun _ h => h) fun platform _ => ?_
  split
  · exact rejected_within
  · simp only [within_bind, within_sql, nowSecs, issuePending, issue, within_pure]
    refine (googleAccount_within _).mono (fun _ h => h) fun account _ => ?_
    simp only [Request.Performs, mints, implies_true, and_self]

theorem authBootstrap_within (mints : r.mintsTokens = true) (caller : Caller)
    (req : BootstrapReq) : (authBootstrap env caller req).Within r.Performs fun _ => True := by
  refine within_guarded fun ip => ?_
  simp only [within_bind, within_okOr]
  intro expected _
  split
  · simp only [within_bind]
    refine (validDevice_within req.device).mono (fun _ h => h) fun platform _ => ?_
    exact bootstrapAccount_within.mono (fun _ h => h)
      fun account _ => signIn_within mints account _ platform ip _
  · exact rejected_within

theorem authPassword_within (mints : r.mintsTokens = true) (caller : Caller)
    (req : PasswordAuthReq) : (authPassword env caller req).Within r.Performs fun _ => True := by
  refine within_guarded fun ip => ?_
  simp only [within_bind]
  refine (validDevice_within req.device).mono (fun _ h => h) fun platform _ => ?_
  refine pwAuthAccount_within.mono (fun _ h => h) fun row _ => ?_
  simp only [within_okOr]
  intro proof _
  split
  · simp only [within_bind]
    exact (passwordSecondFactor_within row.1 ip req.code).mono (fun _ h => h)
      fun _ _ => signIn_within mints row.1 _ platform ip _
  · exact rejected_within

theorem authRefresh_within (mints : r.mintsTokens = true) (caller : Caller) (token : String) :
    (authRefresh env caller token).Within r.Performs fun _ => True := by
  refine within_guarded fun ip => ?_
  simp only [within_bind, within_sql, within_okOr]
  refine ⟨trivial, fun _ t _ => ?_⟩
  split
  · exact (within_bind _ _).mpr ((within_sql _).mpr ⟨trivial, fun _ => rejected_within⟩)
  · simp only [within_bind, within_sql, within_ensure, within_pure]
    exact ⟨trivial, fun _ _ => ⟨trivial, fun _ => mintSession_within mints _ _ _⟩⟩

theorem authEnroll_within (mints : r.mintsTokens = true) (caller : Caller) (req : EnrollReq) :
    (authEnroll env caller req).Within r.Performs fun _ => True := by
  refine within_guarded fun ip => ?_
  simp only [within_bind, within_sql]
  refine (validDevice_within req.device).mono (fun _ h => h) fun platform _ => ?_
  refine ⟨trivial, fun account => ?_⟩
  split
  · exact rejected_within
  · exact signIn_within mints _ _ platform ip _

/-- What a `totp_verify` does once the code was valid. -/
theorem totpAdmission_within (caller : Caller) (claims : AccessClaims) (code ip : String) :
    (do sql (.confirmTotp claims.sub)
        sql (.approveByTotp claims.dev)
        let tokens ← mintSession env claims.sub claims.dev none
        record env (some claims.sub) .loginOk ip (some "totp")
        pure (.tokens tokens) : Handler Response).Within
      (Request.totpVerify caller (some claims) code).Performs fun _ => True := by
  simp only [within_bind, within_sql, record, within_sqlIgnore, within_pure]
  exact ⟨⟨caller, claims, code, rfl, rfl⟩, fun _ => ⟨⟨caller, claims, code, rfl, rfl⟩, fun _ =>
    (mintSession_within rfl _ _ none).mono (fun _ h => h) fun _ _ => ⟨trivial, trivial⟩⟩⟩

end Handlers

/-- Every handler, against the table above. -/
theorem handle_within (env : Env) (r : Request) :
    (handle env r).Within r.Performs fun _ => True := by
  cases r with
  | healthz => simp only [handle, healthz, within_bind, within_sql, within_pure, Request.Performs,
      implies_true, and_self]
  | authGoogle caller req => exact authGoogle_within rfl caller req
  | authBootstrap caller req => exact authBootstrap_within rfl caller req
  | authPassword caller req => exact authPassword_within rfl caller req
  | authRefresh caller token => exact authRefresh_within rfl caller token
  | authEnroll caller req => exact authEnroll_within rfl caller req
  | passwordParams caller =>
      refine within_guarded fun ip => ?_
      simp only [within_bind, within_pure]
      exact pwAuthAccount_within
  | totpEnroll bearer =>
      refine within_verified fun claims presented => ?_
      simp only [sealSecret, within_bind, within_sql, within_pure, Request.Performs, presented,
        implies_true, and_true, Request.totpEnroll.injEq, Option.some.injEq, exists_eq_left']
  | totpVerify caller bearer code =>
      refine within_verified fun claims presented => within_guarded fun ip => ?_
      subst presented
      exact (within_bind _ _).mpr ((checkTotpCode_within _ ip code).mono (fun _ h => h)
        fun _ _ => totpAdmission_within caller claims code ip)
  | deviceApprove bearer id =>
      refine within_authorized fun claims presented => ?_
      simp only [within_bind, within_sql, within_ensure, within_pure, implies_true, and_true]
      exact ⟨claims, by rw [presented], rfl, rfl⟩
  | vaultPut bearer ifMatch ciphertext =>
      refine within_authorized fun claims presented => ?_
      simp only [vaultStore, within_bind, within_okOr, within_ensure, within_sql]
      refine fun _ _ _ _ _ => ⟨trivial, fun current => ?_⟩
      split <;>
        simp only [within_bind, within_ensure, within_sql, within_pure, Request.Performs,
          implies_true, and_self]
  | vaultGet bearer =>
      refine within_authorized fun claims presented => ?_
      simp only [within_bind, within_sql]
      refine ⟨trivial, fun row => ?_⟩
      split <;> simp only [within_pure]
  | unlockGet bearer id =>
      refine within_verified fun claims presented => ?_
      refine (pollUnlock_within claims.sub id 3 none).mono ?_ fun _ h => h
      rintro q (reads | rfl)
      · exact Request.performs_of_readOnly reads
      · trivial
  | unlockRespond bearer id req =>
      refine within_authorized fun claims presented => ?_
      simp only [within_bind, within_okOr]
      refine fun state _ => ?_
      unfold answerPayload
      split <;>
        simp only [within_bind, within_throw, within_ensure, within_sql, within_pure,
          Request.Performs, implies_true, and_self]
  | transferCreate caller bearer req =>
      refine within_authorized fun claims presented => ?_
      simp only [rateLimit, within_bind, within_okOr, within_ensure, within_sql, within_pure]
      refine ⟨trivial, fun _ _ _ _ _ _ => ?_⟩
      unfold checkRecipient
      split <;>
        simp only [within_bind, within_ensure, within_sql, within_pure, Request.Performs,
          implies_true, and_self]
  | transferDownload bearer id =>
      refine within_verified fun claims presented => ?_
      have expiry : ∀ row, (expireOnDownload id row).Within (Request.transferDownload bearer id).Performs
          fun _ => True := by
        intro row
        unfold expireOnDownload
        split
        · exact (within_pure _).mpr trivial
        simp only [within_bind, within_sql]
        refine ⟨trivial, fun now => ?_⟩
        split <;> simp only [within_bind, within_sql, within_throw, within_pure, Request.Performs,
          implies_true, and_self]
      simp only [within_bind, within_sql, within_okOr]
      refine ⟨trivial, fun _ row _ => (expiry row).mono (fun _ h => h) fun _ _ => ?_⟩
      simp only [within_ensure, settleDownload]
      intro _
      split
      · simp only [within_pure]
      split <;> simp only [within_sql, within_pure, Request.Performs, implies_true, and_self]
  | securityBan bearer ip minutes =>
      refine within_verified fun claims presented => ?_
      simp only [within_bind, within_pure, ban]
      split
      · exact (within_pure _).mpr trivial
      split
      · split <;> simp only [within_sql, Request.Performs, implies_true, and_self]
      · simp only [within_sql, Request.Performs, implies_true, and_self]
  | securityUnban bearer ip =>
      refine within_verified fun claims presented => ?_
      simp only [within_bind, within_pure, unban]
      split <;> simp only [within_pure, within_sql, Request.Performs, implies_true, and_self]
  | passwordEnroll _ _ | wrappedGet _ _ | wrappedPut _ _ _ | wrappedDelete _ _ | adminUpdate _
  | enrollCodeMint _ _ | deviceRevoke _ _ | unlockCreate _ _ _ =>
      refine within_authorized fun claims presented => ?_
      simp only [rateLimit, mintRefresh, within_bind, within_okOr, within_ensure, within_sql,
        within_pure, Request.Performs, implies_true, and_self]
  | authLogout _ | devicesList _ | devicePin _ _ | pushRegister _ _ | transferList _
  | transferDelete _ _ | securityEventsList _ _ _ | securitySummary _ =>
      refine within_verified fun claims presented => ?_
      simp only [within_bind, within_okOr, within_ensure, within_sql, within_pure,
        Request.Performs, implies_true, and_self]

/-- One request of any route per thread. -/
def routed {ι : Type} (env : Env) (reqs : ι → Request) : ι → Handler Response := fun i => handle env (reqs i)

end Sentinel.Api
