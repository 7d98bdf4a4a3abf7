import Sentinel.Api.Interleaving

/-!
# The attack monitor inside the handlers

Seven routes begin with `guard`: it looks the address up among the bans and refuses it
there. What such a route then records as a failed attempt it follows with `maybe_autoban`,
which counts the failures of the address, looks for a sign-in of the owner and sets the ban
in three further statements. `BanPhase` is how far a request has come on that way and
`handle_bans` checks the way for every route: an automatic ban comes from a request that
found its address free, and no recorded attempt goes without the count.
-/

namespace Sentinel.Api

open Atomic Handler

/-- The failed attempts that a handler records and follows with `maybe_autoban`. -/
def attemptKinds : List EventKind :=
  [.loginFailBootstrap, .googleReject, .totpFail, .refreshReuse, .loginFailPassword, .enrollFail]

namespace Stmt

/-- An operator's ban of the address, or its end. -/
def operatesOn (addr : Ip) : Stmt → Bool
  | .banFor ip _ | .banForever ip | .unban ip => decide (ip = addr)
  | _ => false

/-- An automatic ban of the address. -/
def autobans (addr : Ip) : Stmt → Bool
  | .autoban ip _ _ => decide (ip = addr)
  | _ => false

/-- The statements that the automaton below sees. -/
def watches : Stmt → Bool
  | .isBanned _ | .countFailures .. | .ownerSeen _ | .autoban .. | .banFor .. | .banForever _
  | .unban _ => true
  | .record _ kind ip _ => decide (kind ∈ attemptKinds ∧ ip ≠ none)
  | _ => false

end Stmt

/-- How far a request has come. -/
inductive BanPhase where
  | start
  | operated
  | blocked (addr : Ip)
  | admitted (addr : Ip)
  | reported (addr : Ip)
  | counted (addr : Ip) (fails : Nat)
  | unowned (addr : Ip) (fails : Nat)
  | spared (addr : Ip)
  | banned (addr : Ip)
  deriving DecidableEq

/-- The request has recorded a failed attempt and not yet decided over the ban. -/
def BanPhase.pending : BanPhase → Bool
  | reported _ | counted .. | unowned .. => true
  | _ => false

/-- The guard has refused the request. -/
def BanPhase.refused : BanPhase → Bool
  | blocked _ => true
  | _ => false

/-- The address that the guard has let through. -/
def BanPhase.address : BanPhase → Option Ip
  | admitted addr | reported addr | counted addr _ | unowned addr _ | spared addr | banned addr =>
      some addr
  | _ => none

/-- No decision over a ban is under way or has been taken. -/
def BanPhase.calm : BanPhase → Bool
  | start | operated | blocked _ | admitted _ => true
  | _ => false

/-- What one statement of a request can be, phase by phase; `target` is the address of an
operator's call. -/
inductive BanStep (env : Env) (target : Option Ip) :
    BanPhase → (q : Stmt) → Except SqlError q.Result → BanPhase → Prop
  | quiet (a : BanPhase) (q : Stmt) (res : Except SqlError q.Result) (other : q.watches = false)
      (calm : a.calm = true) : BanStep env target a q res a
  | operate (addr : Ip) (q : Stmt) (res : Except SqlError q.Result) (about : target = some addr)
      (operates : q.operatesOn addr = true) : BanStep env target .start q res .operated
  | block (addr : Ip) : BanStep env target .start (.isBanned addr) (.ok true) (.blocked addr)
  | pass (addr : Ip) (res : Except SqlError Bool) (free : res ≠ .ok true) :
      BanStep env target .start (.isBanned addr) res (.admitted addr)
  | report (addr : Ip) (account : Option Uuid) (kind : EventKind) (detail : Option String)
      (res : Except SqlError Unit) (attempt : kind ∈ attemptKinds) :
      BanStep env target (.admitted addr) (.record account kind (some addr) detail) res (.reported addr)
  | few (a : BanPhase) (addr : Ip) (res : Except SqlError Nat)
      (from_ : a = .admitted addr ∨ a = .reported addr)
      (below : res.toOption.getD 0 < env.autobanThreshold) :
      BanStep env target a (.countFailures addr env.autobanWindowSecs) res (.spared addr)
  | count (a : BanPhase) (addr : Ip) (fails : Nat)
      (from_ : a = .admitted addr ∨ a = .reported addr) (reached : env.autobanThreshold ≤ fails) :
      BanStep env target a (.countFailures addr env.autobanWindowSecs) (.ok fails) (.counted addr fails)
  | owner (addr : Ip) (fails : Nat) :
      BanStep env target (.counted addr fails) (.ownerSeen addr) (.ok true) (.spared addr)
  | noOwner (addr : Ip) (fails : Nat) (res : Except SqlError Bool) (unseen : res ≠ .ok true) :
      BanStep env target (.counted addr fails) (.ownerSeen addr) res (.unowned addr fails)
  | ban (addr : Ip) (fails : Nat) (res : Except SqlError Unit) :
      BanStep env target (.unowned addr fails)
        (.autoban addr (autobanReason fails) env.autobanMinutes) res (.banned addr)
  | note (addr : Ip) (ip : Option Ip) (detail : Option String) (res : Except SqlError Unit) :
      BanStep env target (.banned addr) (.record none .autoBan ip detail) res (.banned addr)

/-- A request that its guard has refused answers `Forbidden`; with auto-ban on, no request
ends between an attempt and the decision. -/
def BanPhase.Ends (env : Env) {α : Type} (b : BanPhase) (r : Except ApiError α) : Prop :=
  (b.refused = true → r = .error .forbidden) ∧
    (0 < env.autobanThreshold → b.pending = false)

/-- Where a guarded request stands after its guard. -/
inductive BanPhase.Passed (env : Env) (ip : String) : BanPhase → Prop
  | unparsed (nothing : env.parseIp ip = none) : Passed env ip .start
  | admitted (addr : Ip) (parsed : env.parseIp ip = some addr) : Passed env ip (.admitted addr)

/-- The caller of a guarded route. -/
def Request.guarded : Request → Option Caller
  | .authGoogle caller _ | .authBootstrap caller _ | .totpVerify caller _ _
  | .authRefresh caller _ | .authEnroll caller _ | .passwordParams caller
  | .authPassword caller _ => some caller
  | _ => none

/-- The address an operator's call is about. -/
def Request.target (env : Env) : Request → Option Ip
  | .securityBan _ ip _ | .securityUnban _ ip => env.parseIp ip
  | _ => none

section Follows

variable {env : Env} {target : Option Ip} {ip : String} {b : BanPhase} {α β : Type}

theorem BanPhase.Passed.calm (h : b.Passed env ip) : b.calm = true := by
  cases h <;> rfl

theorem BanPhase.Passed.ends (h : b.Passed env ip) (r : Except ApiError α) : b.Ends env r := by
  cases h <;> exact ⟨fun refused => absurd refused Bool.false_ne_true, fun _ => rfl⟩

/-- A condition on answers that accepts the errors a request may end with. -/
def AcceptsErrors (env : Env) (final : BanPhase → Except ApiError α → Prop) : Prop :=
  ∀ (b : BanPhase) (e : ApiError), b.Ends env (.error e : Except ApiError Unit) → final b (.error e)

theorem acceptsErrors_ends :
    AcceptsErrors env fun (b : BanPhase) (r : Except ApiError α) => b.Ends env r := by
  intro b e ends
  exact ⟨fun refused => congrArg _ (Except.error.inj (ends.1 refused)), ends.2⟩

theorem acceptsErrors_andThen {f : α → Handler β} {final : BanPhase → Except ApiError β → Prop}
    (accepts : AcceptsErrors env final) :
    AcceptsErrors env fun b r => (andThen f r).Follows (BanStep env target) final b := accepts

theorem follows_unwatched (post : α → Prop) {h : Handler α} {f : α → Handler β}
    {final : BanPhase → Except ApiError β → Prop}
    (within : h.Within (fun q => q.watches = false) post) (passed : b.Passed env ip)
    (accepts : AcceptsErrors env final)
    (rest : ∀ x, post x → (f x).Follows (BanStep env target) final b) :
    (h >>= f).Follows (BanStep env target) final b :=
  within.follows_bind (fun q res other => .quiet b q res other passed.calm) rest
    fun e => accepts b e (passed.ends _)

theorem follows_last (post : α → Prop) {h : Handler α}
    (within : h.Within (fun q => q.watches = false) post) (passed : b.Passed env ip) :
    h.Follows (BanStep env target) (fun b r => b.Ends env r) b :=
  within.follows (fun q res other => .quiet b q res other passed.calm)
    (fun _ _ => passed.ends _) fun _ => passed.ends _

/-- `maybe_autoban` decides over the ban. -/
theorem maybeAutoban_bans (from_ : b.Passed env ip ∨
    ∃ addr, env.parseIp ip = some addr ∧ b = .reported addr) :
    (maybeAutoban env ip).Follows (BanStep env target)
      (fun b _ => b.refused = false ∧
        (0 < env.autobanThreshold → b.pending = false)) b := by
  have here : b.refused = false ∧ (env.parseIp ip = none → b.pending = false) := by
    obtain (⟨-⟩ | ⟨addr, parsed⟩) | ⟨addr, parsed, rfl⟩ := from_
    · exact ⟨rfl, fun _ => rfl⟩
    · exact ⟨rfl, fun _ => rfl⟩
    · refine ⟨rfl, fun nothing => ?_⟩
      rw [parsed] at nothing
      cases nothing
  unfold maybeAutoban
  split <;> rename_i off
  · exact ⟨here.1, fun on => absurd off on.ne'⟩
  split
  · rename_i nothing
    exact ⟨here.1, fun _ => here.2 nothing⟩
  rename_i addr parsed
  have origin : b = .admitted addr ∨ b = .reported addr := by
    obtain (⟨nothing⟩ | ⟨addr', parsed'⟩) | ⟨addr', parsed', rfl⟩ := from_
    · rw [parsed] at nothing
      cases nothing
    · rw [parsed] at parsed'
      cases parsed'
      exact .inl rfl
    · rw [parsed] at parsed'
      cases parsed'
      exact .inr rfl
  rw [follows_bind, follows_sqlOr]
  intro res
  by_cases few : res.toOption.getD 0 < env.autobanThreshold
  · refine ⟨_, .few b addr res origin few, ?_⟩
    rw [follows_andThen_ok, if_pos few]
    exact ⟨rfl, fun _ => rfl⟩
  cases res with
  | error e =>
      simp only [Except.toOption, Option.getD_none, not_lt, Nat.le_zero] at few
      exact absurd few off
  | ok fails =>
      refine ⟨_, .count b addr fails origin (not_lt.mp few), ?_⟩
      rw [follows_andThen_ok, if_neg few, follows_bind, follows_sqlOr]
      intro seen
      by_cases owner : seen = .ok true
      · subst owner
        refine ⟨_, .owner addr fails, ?_⟩
        exact ⟨rfl, fun _ => rfl⟩
      refine ⟨_, .noOwner addr fails seen owner, ?_⟩
      have unseen : seen.toOption.getD false = false := by
        cases seen with
        | error e => rfl
        | ok seen => cases seen <;> simp_all [Except.toOption]
      rw [follows_andThen_ok, unseen, if_neg Bool.false_ne_true, follows_bind, follows_sqlIgnore]
      intro res
      refine ⟨_, .ban addr fails res, ?_⟩
      rw [follows_andThen_ok, record, follows_sqlIgnore]
      intro res
      refine ⟨_, .note addr _ _ res, ?_⟩
      exact ⟨rfl, fun _ => rfl⟩

theorem follows_autobanned {f : Unit → Handler α} {e : ApiError} (last : f () = throw e)
    {final : BanPhase → Except ApiError α → Prop} (accepts : AcceptsErrors env final)
    (from_ : b.Passed env ip ∨ ∃ addr, env.parseIp ip = some addr ∧ b = .reported addr) :
    (maybeAutoban env ip >>= f).Follows (BanStep env target) final b := by
  rw [follows_bind]
  refine (maybeAutoban_bans from_).mono ?_
  rintro b (e' | ⟨⟩) ⟨other, decided⟩
  · exact accepts b e' ⟨fun refused => by simp [other] at refused, decided⟩
  · rw [follows_andThen_ok, last]
    exact accepts b e ⟨fun refused => by simp [other] at refused, decided⟩

/-- The end of a failed attempt. -/
theorem rejected_bans (passed : b.Passed env ip) {account : Option Uuid} {kind : EventKind}
    (attempt : kind ∈ attemptKinds) {e : ApiError} {final : BanPhase → Except ApiError α → Prop}
    (accepts : AcceptsErrors env final) :
    (do record env account kind ip none
        maybeAutoban env ip
        throw e : Handler α).Follows (BanStep env target) final b := by
  rw [follows_bind, record, follows_sqlIgnore]
  intro res
  cases passed with
  | unparsed nothing =>
      refine ⟨_, .quiet _ _ _ (by simp [Stmt.watches, nothing]) rfl, ?_⟩
      exact follows_autobanned rfl accepts (.inl (.unparsed nothing))
  | admitted addr parsed =>
      rw [parsed]
      exact ⟨_, .report addr account kind none res attempt,
        follows_autobanned rfl accepts (.inr ⟨addr, parsed, rfl⟩)⟩

theorem unwatched_record {kind : EventKind} (other : kind ∉ attemptKinds) (account : Option Uuid)
    (addr : Option Ip) (detail : Option String) :
    (Stmt.record account kind addr detail).watches = false := by
  simp [Stmt.watches, other]

/-- What a guard answers. -/
def GuardEnds (env : Env) (caller : Caller) (b : BanPhase) (r : Except ApiError String) : Prop :=
  (∀ ip, r = .ok ip → ip = clientIp env caller ∧ b.Passed env ip) ∧
    ∀ e, r = .error e → b.Ends env (.error e : Except ApiError Unit)

theorem acceptsErrors_guardEnds (caller : Caller) : AcceptsErrors env (GuardEnds env caller) := by
  intro b e ends
  refine ⟨fun ip eq => (by cases eq), fun e' eq => ?_⟩
  cases eq
  exact ends

/-- The limiter behind the ban check. -/
theorem limited_bans (caller : Caller) (action : LimitAction) (max : Nat) (secs : Int)
    (passed : b.Passed env (clientIp env caller)) :
    (do let allowed ← sql (.limiterCheck { action, ip := clientIp env caller } max (seconds secs))
        if allowed then pure (clientIp env caller)
        else do
          record env none .rateLimited (clientIp env caller) (some action.text)
          maybeAutoban env (clientIp env caller)
          throw .rateLimited : Handler String).Follows (BanStep env target) (GuardEnds env caller) b := by
  have accepts : AcceptsErrors env (GuardEnds env caller) := acceptsErrors_guardEnds caller
  refine follows_unwatched (fun _ => True) ?_ passed accepts fun allowed _ => ?_
  · exact (within_sql _).mpr ⟨rfl, fun _ => trivial⟩
  cases allowed with
  | true =>
      refine ⟨fun ip eq => ?_, fun e eq => (by cases eq)⟩
      cases eq
      exact ⟨rfl, passed⟩
  | false =>
      rw [if_neg Bool.false_ne_true]
      refine follows_unwatched (fun _ => True) ?_ passed accepts fun _ _ => ?_
      · exact (within_sqlIgnore _).mpr ⟨unwatched_record (by decide) _ _ _, trivial⟩
      · exact follows_autobanned rfl accepts (.inl passed)

/-- The guard lets an address through that is not banned, or ends the request. -/
theorem guard_bans (caller : Caller) (action : LimitAction) (max : Nat) (secs : Int) :
    (guard env caller action max secs).Follows (BanStep env target) (GuardEnds env caller) .start := by
  simp only [guard, isBanned]
  split
  · rename_i nothing
    rw [follows_bind]
    exact limited_bans caller action max secs (.unparsed nothing)
  · rename_i addr parsed
    rw [follows_bind, follows_sqlOr]
    intro res
    by_cases blocked : res = .ok true
    · subst blocked
      refine ⟨_, .block addr, ?_⟩
      rw [follows_andThen_ok]
      change (do record env none .bannedBlock (clientIp env caller) (some action.text)
                 throw .forbidden : Handler String).Follows _ _ _
      rw [follows_bind, record, follows_sqlIgnore]
      intro res
      refine ⟨_, .quiet _ _ _ (unwatched_record (by decide) _ _ _) rfl, ?_⟩
      exact acceptsErrors_guardEnds caller _ _ ⟨fun _ => rfl, fun _ => rfl⟩
    · refine ⟨_, .pass addr res blocked, ?_⟩
      have unseen : res.toOption.getD false = false := by
        cases res with
        | error e => rfl
        | ok seen => cases seen <;> simp_all [Except.toOption]
      rw [follows_andThen_ok, unseen, if_neg Bool.false_ne_true]
      exact limited_bans caller action max secs (.admitted addr parsed)

/-- A guarded route. -/
theorem guarded_bans {caller : Caller} {action : LimitAction} {max : Nat} {secs : Int}
    {f : String → Handler α}
    (rest : ∀ b : BanPhase, b.Passed env (clientIp env caller) →
      (f (clientIp env caller)).Follows (BanStep env target) (fun b r => b.Ends env r) b) :
    (guard env caller action max secs >>= f).Follows (BanStep env target) (fun b r => b.Ends env r)
      .start := by
  rw [follows_bind]
  refine (guard_bans caller action max secs).mono ?_
  rintro b (e | ip) ⟨passes, refuses⟩
  · exact acceptsErrors_ends b e (refuses e rfl)
  · obtain ⟨rfl, passed⟩ := passes ip rfl
    exact rest b passed

/-! ### The seven guarded routes -/

theorem unwatched_of_isTokenCheck {q : Stmt} (h : q.isTokenCheck = true) : q.watches = false := by
  cases q <;> first | rfl | cases h

theorem validDevice_unwatched (device : DeviceReq) :
    (validDevice device).Within (fun q => q.watches = false) fun _ => True := by
  unfold validDevice
  split <;> simp

theorem mintSession_unwatched (account device : Uuid) (parent : Option Uuid) :
    (mintSession env account device parent).Within (fun q => q.watches = false) fun _ => True := by
  simp [mintSession, nowSecs, issueAccess, issue, mintRefresh, Stmt.watches]

theorem signIn_unwatched (account : Uuid) (name : String) (platform : Platform)
    (ip detail : String) :
    (signIn env account name platform ip detail).Within (fun q => q.watches = false)
      fun _ => True := by
  simp only [signIn, record, within_bind, within_sql, within_sqlIgnore, within_pure]
  exact ⟨rfl, fun device => (mintSession_unwatched account device none).mono (fun _ h => h)
    fun _ _ => ⟨unwatched_record (by decide) _ _ _, trivial⟩⟩

theorem pwAuthAccount_unwatched :
    pwAuthAccount.Within (fun q => q.watches = false) fun _ => True := by
  simp only [pwAuthAccount, within_bind, within_sql]
  refine ⟨rfl, fun rows => ?_⟩
  split <;> simp only [within_throw, within_pure]

theorem googleAccount_unwatched (claims : GoogleClaims) :
    (googleAccount claims).Within (fun q => q.watches = false) fun _ => True := by
  simp only [googleAccount, within_bind, within_sql]
  refine ⟨rfl, fun rekeyed => ?_⟩
  split
  · simp
  · exact (within_sql _).mpr ⟨rfl, fun _ => trivial⟩

theorem bootstrapAccount_unwatched :
    bootstrapAccount.Within (fun q => q.watches = false) fun _ => True := by
  simp only [bootstrapAccount, within_bind, within_sql]
  refine ⟨rfl, fun flagged => ?_⟩
  split
  · simp
  simp only [within_bind, within_sql]
  refine ⟨rfl, fun adopted => ?_⟩
  split
  · simp
  · exact (within_sql _).mpr ⟨rfl, fun _ => trivial⟩

theorem enforceLockout_unwatched (account : Uuid) (ip : String) :
    (enforceLockout env account ip).Within (fun q => q.watches = false) fun _ => True := by
  simp only [enforceLockout, within_bind, within_sql]
  refine ⟨rfl, fun locked => ?_⟩
  cases locked with
  | none => simp
  | some until_ =>
      simp only [within_bind, within_sql]
      refine ⟨rfl, fun now => ?_⟩
      split
      · simp only [within_bind, record, within_sqlIgnore, within_throw, and_true]
        exact unwatched_record (by decide) _ _ _
      · simp

/-- A valid code leaves the request where it was. -/
theorem checkTotpCode_bans (account : Uuid) (code : String) (passed : b.Passed env ip)
    {final : BanPhase → Except ApiError Unit → Prop} (accepts : AcceptsErrors env final)
    (valid : final b (.ok ())) :
    (checkTotpCode env account ip code).Follows (BanStep env target) final b := by
  refine follows_unwatched _ (enforceLockout_unwatched account ip) passed accepts fun _ _ => ?_
  refine follows_unwatched (fun _ => True) ?_ passed accepts fun enc _ => ?_
  · exact (within_sql _).mpr ⟨rfl, fun _ => trivial⟩
  refine follows_unwatched (fun _ => True) (by simp) passed accepts fun enc _ => ?_
  refine follows_unwatched (fun _ => True) (by simp) passed accepts fun secret _ => ?_
  refine follows_unwatched (fun _ => True) ?_ passed accepts fun now _ => ?_
  · simp [nowSecs, Stmt.watches]
  split
  · rw [follows_sql]
    exact ⟨fun _ => ⟨_, .quiet _ _ _ rfl passed.calm, valid⟩,
      fun e => ⟨_, .quiet _ _ _ rfl passed.calm, accepts b _ (passed.ends _)⟩⟩
  · refine follows_unwatched (fun _ => True) ?_ passed accepts fun _ _ => ?_
    · exact (within_sql _).mpr ⟨rfl, fun _ => trivial⟩
    · exact rejected_bans passed (by decide) accepts

theorem passwordSecondFactor_bans (account : Uuid) (code : Option String)
    (passed : b.Passed env ip) {final : BanPhase → Except ApiError Unit → Prop}
    (accepts : AcceptsErrors env final) (valid : final b (.ok ())) :
    (passwordSecondFactor env account ip code).Follows (BanStep env target) final b := by
  refine follows_unwatched (fun _ => True) ?_ passed accepts fun totpOn _ => ?_
  · exact (within_sql _).mpr ⟨rfl, fun _ => trivial⟩
  split
  · refine follows_unwatched (fun _ => True) (by simp) passed accepts fun code _ => ?_
    exact checkTotpCode_bans account code passed accepts valid
  · exact valid

theorem authGoogle_bans (caller : Caller) (req : GoogleReq) :
    (authGoogle env caller req).Follows (BanStep env target) (fun b r => b.Ends env r) .start := by
  refine guarded_bans fun b passed => ?_
  refine follows_unwatched _ (validDevice_unwatched req.device) passed acceptsErrors_ends
    fun platform _ => ?_
  split
  · exact rejected_bans passed (by decide) acceptsErrors_ends
  · refine follows_unwatched _ (googleAccount_unwatched _) passed acceptsErrors_ends
      fun account _ => ?_
    refine follows_last (fun _ => True) ?_ passed
    simp [nowSecs, issuePending, issue, Stmt.watches]

theorem authBootstrap_bans (caller : Caller) (req : BootstrapReq) :
    (authBootstrap env caller req).Follows (BanStep env target) (fun b r => b.Ends env r) .start := by
  refine guarded_bans fun b passed => ?_
  refine follows_unwatched (fun _ => True) (by simp) passed acceptsErrors_ends fun expected _ => ?_
  split
  · refine follows_unwatched _ (validDevice_unwatched req.device) passed acceptsErrors_ends
      fun platform _ => ?_
    refine follows_unwatched _ bootstrapAccount_unwatched passed acceptsErrors_ends
      fun account _ => ?_
    exact follows_last _ (signIn_unwatched ..) passed
  · exact rejected_bans passed (by decide) acceptsErrors_ends

theorem authRefresh_bans (caller : Caller) (token : String) :
    (authRefresh env caller token).Follows (BanStep env target) (fun b r => b.Ends env r) .start := by
  refine guarded_bans fun b passed => ?_
  refine follows_unwatched (fun _ => True) ?_ passed acceptsErrors_ends fun row _ => ?_
  · exact (within_sql _).mpr ⟨rfl, fun _ => trivial⟩
  refine follows_unwatched (fun _ => True) (by simp) passed acceptsErrors_ends fun t _ => ?_
  split
  · refine follows_unwatched (fun _ => True) ?_ passed acceptsErrors_ends fun _ _ => ?_
    · exact (within_sql _).mpr ⟨rfl, fun _ => trivial⟩
    · exact rejected_bans passed (by decide) acceptsErrors_ends
  · refine follows_last (fun _ => True) ?_ passed
    simp only [within_bind, within_sql, within_ensure, within_pure]
    exact ⟨rfl, fun _ _ => ⟨rfl, fun _ => mintSession_unwatched _ _ _⟩⟩

theorem authEnroll_bans (caller : Caller) (req : EnrollReq) :
    (authEnroll env caller req).Follows (BanStep env target) (fun b r => b.Ends env r) .start := by
  refine guarded_bans fun b passed => ?_
  refine follows_unwatched _ (validDevice_unwatched req.device) passed acceptsErrors_ends
    fun platform _ => ?_
  refine follows_unwatched (fun _ => True) ?_ passed acceptsErrors_ends fun account _ => ?_
  · exact (within_sql _).mpr ⟨rfl, fun _ => trivial⟩
  split
  · exact rejected_bans passed (by decide) acceptsErrors_ends
  · exact follows_last _ (signIn_unwatched ..) passed

theorem authPassword_bans (caller : Caller) (req : PasswordAuthReq) :
    (authPassword env caller req).Follows (BanStep env target) (fun b r => b.Ends env r) .start := by
  refine guarded_bans fun b passed => ?_
  refine follows_unwatched _ (validDevice_unwatched req.device) passed acceptsErrors_ends
    fun platform _ => ?_
  refine follows_unwatched _ pwAuthAccount_unwatched passed acceptsErrors_ends fun row _ => ?_
  refine follows_unwatched (fun _ => True) (by simp) passed acceptsErrors_ends fun proof _ => ?_
  split
  · rw [follows_bind]
    refine passwordSecondFactor_bans row.1 req.code passed
      (acceptsErrors_andThen acceptsErrors_ends) ?_
    exact follows_last _ (signIn_unwatched ..) passed
  · exact rejected_bans passed (by decide) acceptsErrors_ends

theorem totpVerify_bans (caller : Caller) (bearer : Option AccessClaims) (code : String) :
    (totpVerify env caller bearer code).Follows (BanStep env target) (fun b r => b.Ends env r) .start := by
  refine ((verifyWithKind_within bearer .pending).mono (fun _ => unwatched_of_isTokenCheck)
    fun _ h => h).follows_bind (fun q res other => .quiet _ q res other rfl) (fun p _ => ?_)
    fun e => ⟨fun refused => absurd refused Bool.false_ne_true, fun _ => rfl⟩
  refine guarded_bans fun b passed => ?_
  rw [follows_bind]
  refine checkTotpCode_bans p.account code passed (acceptsErrors_andThen acceptsErrors_ends) ?_
  rw [follows_andThen_ok]
  refine follows_last (fun _ => True) ?_ passed
  simp only [record, within_bind, within_sql, within_sqlIgnore, within_pure]
  exact ⟨rfl, fun _ => ⟨rfl, fun _ => (mintSession_unwatched _ _ _).mono (fun _ h => h)
    fun _ _ => ⟨unwatched_record (by decide) _ _ _, trivial⟩⟩⟩

theorem passwordParams_bans (caller : Caller) :
    (passwordParams env caller).Follows (BanStep env target) (fun b r => b.Ends env r) .start := by
  refine guarded_bans fun b passed => follows_last (fun _ => True) ?_ passed
  simp only [within_bind, within_pure]
  exact pwAuthAccount_unwatched

/-! ### The other routes -/

section Blocks

variable {P : Stmt → Prop} {post : α → Prop}

theorem unwatched_verified {bearer : Option AccessClaims} {kind : TokenKind} {f : Auth → Handler α}
    (rest : ∀ a, (f a).Within (fun q => q.watches = false) post) :
    (verifyWithKind bearer kind >>= f).Within (fun q => q.watches = false) post :=
  (within_bind _ _).mpr ((verifyWithKind_within bearer kind).mono
    (fun _ => unwatched_of_isTokenCheck) fun a _ => rest a)

theorem unwatched_authorized {bearer : Option AccessClaims} {f : Auth → Handler α}
    (rest : ∀ a, (f a).Within (fun q => q.watches = false) post) :
    (verifyAccess bearer >>= fun a => requireApprovedDevice a.device >>= fun _ => f a).Within
      (fun q => q.watches = false) post := by
  refine unwatched_verified fun a => ?_
  simp only [requireApprovedDevice, within_bind, within_sql, within_okOr, within_ensure]
  exact ⟨rfl, fun _ _ _ _ => rest a⟩

end Blocks

theorem expireOnDownload_unwatched (id : Uuid) (row : FileTransfer) :
    (expireOnDownload id row).Within (fun q => q.watches = false) fun _ => True := by
  unfold expireOnDownload
  split
  · simp
  simp only [within_bind, within_sql]
  refine ⟨rfl, fun now => ?_⟩
  split <;> simp [Stmt.watches]

theorem handle_unwatched (env : Env) (r : Request) (other : r.guarded = none)
    (calm : ∀ bearer ip minutes, r ≠ .securityBan bearer ip minutes ∧ r ≠ .securityUnban bearer ip) :
    (handle env r).Within (fun q => q.watches = false) fun _ => True := by
  cases r with
  | authGoogle _ _ | authBootstrap _ _ | totpVerify _ _ _ | authRefresh _ _ | authEnroll _ _
  | passwordParams _ | authPassword _ _ => cases other
  | securityBan bearer ip minutes => exact absurd rfl (calm bearer ip minutes).1
  | securityUnban bearer ip => exact absurd rfl (calm bearer ip none).2
  | healthz => simp [handle, healthz, Stmt.watches]
  | totpEnroll bearer =>
      refine unwatched_verified fun a => ?_
      simp [sealSecret, Stmt.watches]
  | vaultPut bearer ifMatch ciphertext =>
      refine unwatched_authorized fun a => ?_
      simp only [vaultStore, within_bind, within_okOr, within_ensure, within_sql]
      refine fun _ _ _ _ _ => ⟨rfl, fun current => ?_⟩
      split <;> simp [Stmt.watches]
  | vaultGet bearer =>
      refine unwatched_authorized fun a => ?_
      simp only [within_bind, within_sql]
      refine ⟨rfl, fun row => ?_⟩
      split <;> simp
  | unlockGet bearer id =>
      refine unwatched_verified fun a => ?_
      exact pollUnlock_performs (P := fun q => q.watches = false) rfl rfl rfl 3 none
  | unlockRespond bearer id req =>
      refine unwatched_authorized fun a => ?_
      simp only [within_bind, within_okOr]
      refine fun state _ => ?_
      unfold answerPayload
      split <;> simp [Stmt.watches]
  | transferCreate caller bearer req =>
      refine unwatched_authorized fun a => ?_
      simp only [rateLimit, within_bind, within_okOr, within_ensure, within_sql, within_pure]
      refine ⟨rfl, fun _ _ _ _ _ _ => ?_⟩
      unfold checkRecipient
      split <;> simp [Stmt.watches]
  | transferDownload bearer id =>
      refine unwatched_verified fun a => ?_
      simp only [within_bind, within_sql, within_okOr]
      refine ⟨rfl, fun _ row _ => (expireOnDownload_unwatched id row).mono (fun _ h => h)
        fun _ _ => ?_⟩
      simp only [within_ensure, settleDownload]
      intro _
      split
      · simp
      split <;> simp [Stmt.watches]
  | passwordEnroll _ _ | wrappedGet _ _ | wrappedPut _ _ _ | wrappedDelete _ _ | adminUpdate _
  | enrollCodeMint _ _ | deviceApprove _ _ | deviceRevoke _ _ | unlockCreate _ _ _ =>
      refine unwatched_authorized fun a => ?_
      simp [rateLimit, mintRefresh, Stmt.watches]
  | authLogout _ | devicesList _ | devicePin _ _ | pushRegister _ _ | transferList _
  | transferDelete _ _ | securityEventsList _ _ _ | securitySummary _ =>
      refine unwatched_verified fun a => ?_
      simp [Stmt.watches]

/-- Every route. -/
theorem handle_bans (env : Env) (r : Request) :
    (handle env r).Follows (BanStep env (r.target env)) (fun b r => b.Ends env r) .start := by
  have operated : ∀ r : Except ApiError Response, BanPhase.operated.Ends env r := by
    intro r
    exact ⟨fun refused => absurd refused Bool.false_ne_true, fun _ => rfl⟩
  have ended : ∀ (target : Option Ip) (r : Except ApiError Unit),
      (andThen (fun _ => pure .noContent) r : Handler Response).Follows (BanStep env target)
        (fun b r => b.Ends env r) .operated := by
    rintro target (e | ⟨⟩) <;> exact operated _
  have started : ∀ r : Except ApiError Response, BanPhase.start.Ends env r := by
    intro r
    exact ⟨fun refused => absurd refused Bool.false_ne_true, fun _ => rfl⟩
  have operating : ∀ (target : Option Ip) (bearer : Option AccessClaims)
      (f : Auth → Handler Response),
      (∀ a, (f a).Follows (BanStep env target) (fun b r => b.Ends env r) .start) →
      (verifyAccess bearer >>= f).Follows (BanStep env target) (fun b r => b.Ends env r) .start := by
    intro target bearer f rest
    exact ((verifyWithKind_within bearer .access).mono (fun _ => unwatched_of_isTokenCheck)
      fun _ h => h).follows_bind (fun q res other => .quiet _ q res other rfl)
      (fun a _ => rest a) fun e => started _
  by_cases calm : ∀ bearer ip minutes,
      r ≠ .securityBan bearer ip minutes ∧ r ≠ .securityUnban bearer ip
  · cases guarded : r.guarded with
    | none =>
        exact (handle_unwatched env r guarded calm).follows
          (fun q res other => .quiet _ q res other rfl) (fun _ _ => started _) fun _ => started _
    | some caller =>
        cases r with
        | authGoogle caller req => exact authGoogle_bans caller req
        | authBootstrap caller req => exact authBootstrap_bans caller req
        | totpVerify caller bearer code => exact totpVerify_bans caller bearer code
        | authRefresh caller token => exact authRefresh_bans caller token
        | authEnroll caller req => exact authEnroll_bans caller req
        | passwordParams caller => exact passwordParams_bans caller
        | authPassword caller req => exact authPassword_bans caller req
        | _ => cases guarded
  · cases r with
    | securityBan bearer ip minutes =>
        refine operating _ bearer _ fun a => ?_
        rw [follows_bind]
        unfold ban
        split
        · exact started _
        · rename_i addr parsed
          split
          · split <;> exact fun _ => ⟨_, .operate _ _ _ parsed (decide_eq_true rfl), ended _ _⟩
          · exact fun _ => ⟨_, .operate _ _ _ parsed (decide_eq_true rfl), ended _ _⟩
    | securityUnban bearer ip =>
        refine operating _ bearer _ fun a => ?_
        rw [follows_bind]
        unfold unban
        split
        · exact started _
        · rename_i addr parsed
          exact fun _ => ⟨_, .operate _ _ _ parsed (decide_eq_true rfl), ended _ _⟩
    | _ => exact absurd (fun _ _ _ => ⟨by simp, by simp⟩) calm

end Follows

end Sentinel.Api
