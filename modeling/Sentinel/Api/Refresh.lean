import Sentinel.Api.Interleaving

/-!
# Refresh-token rotation under concurrent calls

`auth_refresh` looks the presented token up, then either sweeps the device's chain
(the token was revoked already) or revokes the token and mints a child. Lookup,
revocation and minting are separate statements.

`Undisturbed` is the condition on a history under which rotation is single-use: a
rotation revokes a token that is still live, and mints before any sweep of its
device. Under it a token has at most one child and an answered replay leaves no live
token of the device.
-/

namespace Sentinel.Api

open Atomic Handler Relational

/-- Every token is the parent of at most one token. -/
def OneChild (db : Db) : Prop :=
  ∀ t ∈ db.refreshTokens.rows, ∀ t' ∈ db.refreshTokens.rows, ∀ p,
    t.parent = some p → t'.parent = some p → t = t'

/-- The database has come from rotations so far: a parent is revoked and has one
child, and a device's tokens belong to one account. -/
structure RotationSound (db : Db) : Prop where
  parent_revoked : ∀ t ∈ db.refreshTokens.rows, ∀ p, t.parent = some p →
    ∃ t' ∈ db.refreshTokens.rows, t'.id = p ∧ t'.revokedAt ≠ none
  one_child : OneChild db
  one_account : ∀ t ∈ db.refreshTokens.rows, ∀ t' ∈ db.refreshTokens.rows,
    t.device = t'.device → t.account = t'.account

/-- How far a call has come. -/
inductive RefreshPhase where
  | looking
  | replayed (token : RefreshToken)
  | swept (token : RefreshToken)
  | live (token : RefreshToken)
  | rotating (token : RefreshToken)
  | finished

/-- The call is not between finding a revoked token and sweeping its chain. -/
def RefreshPhase.settled : RefreshPhase → Bool
  | .replayed _ => false
  | _ => true

/-- Statements of a call that leave the token table alone. -/
def Stmt.keepsTokens (q : Stmt) : Bool :=
  q.isMonitor || match q with
    | .now | .issueToken _ | .randomBytes _ => true
    | _ => false

theorem Stmt.exec_keepsTokens {env : Env} {q : Stmt} (h : q.keepsTokens = true) (db : Db) :
    (exec env q db).2.refreshTokens = db.refreshTokens := by
  cases q <;> first
    | rfl
    | (simp only [exec]; split <;> rfl)
    | cases h

/-- What one statement of an `auth_refresh` can be, phase by phase. -/
inductive RefreshStep (env : Env) (token : String) :
    RefreshPhase → (q : Stmt) → Except SqlError q.Result → RefreshPhase → Prop
  | other {a : RefreshPhase} (q : Stmt) (res : Except SqlError q.Result)
      (keeps : q.keepsTokens = true) (settled : a.settled = true) :
      RefreshStep env token a q res a
  | miss : RefreshStep env token .looking (.findRefresh (hashRefresh env token)) (.ok none) .finished
  | replay (t : RefreshToken) (revoked : t.revokedAt ≠ none) :
      RefreshStep env token .looking (.findRefresh (hashRefresh env token)) (.ok (some t))
        (.replayed t)
  | hit (t : RefreshToken) (fresh : t.revokedAt = none) :
      RefreshStep env token .looking (.findRefresh (hashRefresh env token)) (.ok (some t)) (.live t)
  | sweep (t : RefreshToken) :
      RefreshStep env token (.replayed t) (.revokeChain t.account t.device) (.ok ()) (.swept t)
  | revoke (t : RefreshToken) :
      RefreshStep env token (.live t) (.revokeToken t.id) (.ok ()) (.rotating t)
  | mint (t : RefreshToken) (hash : Bytes) (expires : Time) :
      RefreshStep env token (.rotating t)
        (.insertRefresh t.account t.device hash (some t.id) expires) (.ok ()) .finished
  | refused (t : RefreshToken) (hash : Bytes) (expires : Time) (e : SqlError) :
      RefreshStep env token (.rotating t)
        (.insertRefresh t.account t.device hash (some t.id) expires) (.error e) .finished
  -- a lookup or an `UPDATE` here has no constraint to fail on
  | lookFailed (e : SqlError) :
      RefreshStep env token .looking (.findRefresh (hashRefresh env token)) (.error e) .finished
  | sweepFailed (t : RefreshToken) (e : SqlError) :
      RefreshStep env token (.replayed t) (.revokeChain t.account t.device) (.error e) .finished
  | revokeFailed (t : RefreshToken) (e : SqlError) :
      RefreshStep env token (.live t) (.revokeToken t.id) (.error e) .finished

theorem mintSession_follows (env : Env) (token : String) (t : RefreshToken) :
    (mintSession env t.account t.device (some t.id)).Follows (RefreshStep env token)
      (fun b _ => b.settled = true) (.rotating t) := by
  have keeps : ∀ {q : Stmt} {res}, q.keepsTokens = true →
      RefreshStep env token (.rotating t) q res (.rotating t) :=
    fun kept => .other _ _ kept rfl
  have failed : ∀ {q : Stmt}, q.keepsTokens = true → ∀ e : SqlError, ∃ b,
      RefreshStep env token (.rotating t) q (.error e) b ∧ b.settled = true :=
    fun kept e => ⟨_, keeps kept, rfl⟩
  simp only [mintSession, nowSecs, issueAccess, issue, mintRefresh, follows_bind, follows_sql,
    follows_andThen_ok, follows_andThen_error, follows_pure]
  refine ⟨fun now => ⟨_, keeps rfl, ?_⟩, failed rfl⟩
  refine ⟨fun _ => ⟨_, keeps rfl, ?_⟩, failed rfl⟩
  refine ⟨fun drawn => ⟨_, keeps rfl, ?_⟩, failed rfl⟩
  refine ⟨fun today => ⟨_, keeps rfl, ?_⟩, failed rfl⟩
  exact ⟨fun _ => ⟨_, .mint t _ _, rfl⟩, fun e => ⟨_, .refused t _ _ e, rfl⟩⟩

theorem authRefresh_follows (env : Env) (caller : Caller) (token : String) :
    (authRefresh env caller token).Follows (RefreshStep env token) (fun b _ => b.settled = true)
      .looking := by
  have monitor : ∀ {a : RefreshPhase}, a.settled = true →
      ∀ q (res : Except SqlError q.Result), q.isMonitor = true → RefreshStep env token a q res a :=
    fun settled q res h => .other q res (by simp [Stmt.keepsTokens, h]) settled
  rw [authRefresh, follows_bind]
  refine (guard_within env caller .authRefresh 30 60).follows (monitor rfl) ?_ fun _ => rfl
  rintro ip -
  rw [follows_andThen_ok, follows_bind, follows_sql]
  refine ⟨fun row => ?_, fun e => ⟨_, .lookFailed e, rfl⟩⟩
  cases row with
  | none => exact ⟨_, .miss, rfl⟩
  | some t =>
      by_cases revoked : t.revokedAt.isSome = true
      · refine ⟨_, .replay t (Option.isSome_iff_ne_none.mp revoked), ?_⟩
        simp only [follows_andThen_ok, okOr, follows_pure, if_pos revoked, follows_bind, follows_sql,
          record, follows_sqlIgnore]
        refine ⟨fun _ => ⟨_, .sweep t, fun res => ⟨_, monitor rfl _ res rfl, ?_⟩⟩,
          fun e => ⟨_, .sweepFailed t e, rfl⟩⟩
        exact (maybeAutoban_within env ip).follows (monitor rfl) (fun _ _ => rfl) fun _ => rfl
      · refine ⟨_, .hit t (Option.not_isSome_iff_eq_none.mp revoked), ?_⟩
        simp only [follows_andThen_ok, okOr, follows_pure, if_neg revoked, follows_bind, follows_sql,
          follows_ensure, follows_andThen_error]
        refine ⟨fun now => ⟨_, .other _ _ rfl rfl, fun _ => ?_, fun _ => rfl⟩,
          fun e => ⟨_, .other _ _ rfl rfl, rfl⟩⟩
        refine ⟨fun _ => ⟨_, .revoke t, ?_⟩, fun e => ⟨_, .revokeFailed t e, rfl⟩⟩
        refine (mintSession_follows env token t).mono ?_
        rintro b (e | tokens) settled
        · exact settled
        · exact settled

/-- The table holds the token, whatever has become of its revocation. -/
def Holds (db : Db) (t : RefreshToken) : Prop :=
  ∃ row ∈ db.refreshTokens.rows, row.id = t.id ∧ row.account = t.account ∧ row.device = t.device

theorem Revokes.holds {db db' : Db} (h : Revokes db db') {t : RefreshToken} (held : Holds db t) : Holds db' t := by
  obtain ⟨row, mem, id, account, device⟩ := held
  obtain ⟨row', mem', same⟩ := h.forth row mem
  exact ⟨row', mem', same.1.trans id, same.2.1.trans account, same.2.2.1.trans device⟩

variable {ι : Type}

/-- The call found the token it presented, revoked. -/
def PresentedRevoked (h : List (Event ι Stmt Db)) (i : ι) (t : RefreshToken) : Prop :=
  ∃ e ∈ h, e.thread = i ∧ ∃ hash, e.q = .findRefresh hash ∧
    (e.before.refreshTokens.rows.find? fun t => decide (t.tokenHash = hash)) = some t ∧
    t.revokedAt ≠ none

/-- A sweep of the device has been performed. -/
def Swept (h : List (Event ι Stmt Db)) (account device : Uuid) : Prop :=
  ∃ e ∈ h, e.q = .revokeChain account device

/-- What holds between the statements of any number of `auth_refresh` calls. -/
structure RotationInvariant (h : List (Event ι Stmt Db)) (ph : ι → RefreshPhase) (db : Db) : Prop
    extends RotationSound db where
  held : ∀ i t, ph i = .replayed t ∨ ph i = .live t → Holds db t
  /-- A token being rotated is revoked and has no child yet. -/
  rotating : ∀ i t, ph i = .rotating t → Holds db t ∧
    (∀ row ∈ db.refreshTokens.rows, row.id = t.id → row.revokedAt ≠ none) ∧
    ∀ row ∈ db.refreshTokens.rows, row.parent ≠ some t.id
  /-- No two calls rotate one token. -/
  exclusive : ∀ i j t t', ph i = .rotating t → ph j = .rotating t' → t.id = t'.id → i = j
  swept : ∀ account device, Swept h account device → ∀ row ∈ db.refreshTokens.rows,
    row.account = account → row.device = device → row.revokedAt ≠ none
  presented : ∀ i t, PresentedRevoked h i t → Holds db t ∧
    (ph i = .replayed t ∨ Swept h t.account t.device)

namespace RotationInvariant

variable {h : List (Event ι Stmt Db)} {ph : ι → RefreshPhase} {db db' : Db}

theorem revokes (inv : RotationInvariant h ph db) (rev : Revokes db db') :
    RotationInvariant h ph db' where
  parent_revoked t mem p parent := by
    obtain ⟨row, rowMem, same⟩ := rev.back t mem
    obtain ⟨pred, predMem, key, revoked⟩ :=
      inv.parent_revoked row rowMem p (same.2.2.2.1.symm.trans parent)
    obtain ⟨pred', mem', same'⟩ := rev.forth pred predMem
    exact ⟨pred', mem', same'.1.trans key, same'.2.2.2.2 revoked⟩
  one_child t mem t' mem' p parent parent' := by
    obtain ⟨row, rowMem, same⟩ := rev.back t mem
    obtain ⟨row', rowMem', same'⟩ := rev.back t' mem'
    obtain rfl := inv.one_child row rowMem row' rowMem' p (same.2.2.2.1.symm.trans parent)
      (same'.2.2.2.1.symm.trans parent')
    have key := Table.find?_of_mem mem
    rw [same.1, ← same'.1, Table.find?_of_mem mem'] at key
    exact (Option.some.inj key).symm
  one_account t mem t' mem' device := by
    obtain ⟨row, rowMem, same⟩ := rev.back t mem
    obtain ⟨row', rowMem', same'⟩ := rev.back t' mem'
    rw [same.2.1, same'.2.1]
    exact inv.one_account row rowMem row' rowMem' (same.2.2.1 ▸ same'.2.2.1 ▸ device)
  held i t phase := rev.holds (inv.held i t phase)
  rotating i t phase := by
    obtain ⟨holds, revoked, childless⟩ := inv.rotating i t phase
    refine ⟨rev.holds holds, fun row' mem key => ?_, fun row' mem => ?_⟩
    · obtain ⟨row, rowMem, same⟩ := rev.back row' mem
      exact same.2.2.2.2 (revoked row rowMem (same.1.symm.trans key))
    · obtain ⟨row, rowMem, same⟩ := rev.back row' mem
      rw [same.2.2.2.1]
      exact childless row rowMem
  exclusive := inv.exclusive
  swept account device sweep row' mem acc dev := by
    obtain ⟨row, rowMem, same⟩ := rev.back row' mem
    exact same.2.2.2.2 (inv.swept account device sweep row rowMem (same.2.1.symm.trans acc)
      (same.2.2.1.symm.trans dev))
  presented i t found := ⟨rev.holds (inv.presented i t found).1, (inv.presented i t found).2⟩

variable [DecidableEq ι]

/-- A call moves on to its next phase. -/
theorem advance (inv : RotationInvariant h ph db) {e : Event ι Stmt Db} {b : RefreshPhase}
    (held : ∀ t, b = .replayed t ∨ b = .live t → Holds db t)
    (rotating : ∀ t, b = .rotating t → Holds db t ∧
      (∀ row ∈ db.refreshTokens.rows, row.id = t.id → row.revokedAt ≠ none) ∧
      (∀ row ∈ db.refreshTokens.rows, row.parent ≠ some t.id) ∧
      ∀ j t', j ≠ e.thread → ph j = .rotating t' → t.id ≠ t'.id)
    (swept : ∀ account device, e.q = .revokeChain account device →
      ∀ row ∈ db.refreshTokens.rows, row.account = account → row.device = device →
        row.revokedAt ≠ none)
    (presented : ∀ t, PresentedRevoked [e] e.thread t → Holds db t ∧ b = .replayed t)
    (replayed : ∀ t, ph e.thread = .replayed t →
      b = .replayed t ∨ e.q = .revokeChain t.account t.device) :
    RotationInvariant (h ++ [e]) (Function.update ph e.thread b) db where
  toRotationSound := inv.toRotationSound
  held i t phase := by
    by_cases same : i = e.thread
    · rw [same, Function.update_self] at phase
      exact held t phase
    · rw [Function.update_of_ne same] at phase
      exact inv.held i t phase
  rotating i t phase := by
    by_cases same : i = e.thread
    · rw [same, Function.update_self] at phase
      obtain ⟨holds, revoked, childless, -⟩ := rotating t phase
      exact ⟨holds, revoked, childless⟩
    · rw [Function.update_of_ne same] at phase
      exact inv.rotating i t phase
  exclusive i j t t' phase phase' key := by
    by_cases hi : i = e.thread <;> by_cases hj : j = e.thread
    · rw [hi, hj]
    · rw [hi, Function.update_self] at phase
      rw [Function.update_of_ne hj] at phase'
      exact absurd key ((rotating t phase).2.2.2 j t' hj phase')
    · rw [hj, Function.update_self] at phase'
      rw [Function.update_of_ne hi] at phase
      exact absurd key.symm ((rotating t' phase').2.2.2 i t hi phase)
    · rw [Function.update_of_ne hi] at phase
      rw [Function.update_of_ne hj] at phase'
      exact inv.exclusive i j t t' phase phase' key
  swept account device sweep := by
    obtain ⟨e', mem, stmt⟩ := sweep
    rcases List.mem_append.mp mem with mem | mem
    · exact inv.swept account device ⟨e', mem, stmt⟩
    · rw [List.mem_singleton.mp mem] at stmt
      exact swept account device stmt
  presented i t found := by
    obtain ⟨e', mem, rfl, lookup⟩ := found
    rcases List.mem_append.mp mem with mem | mem
    · obtain ⟨holds, phase⟩ := inv.presented _ t ⟨e', mem, rfl, lookup⟩
      refine ⟨holds, ?_⟩
      rcases phase with waiting | ⟨sweep, sweepMem, stmt⟩
      · by_cases same : e'.thread = e.thread
        · rw [same] at waiting ⊢
          rw [Function.update_self]
          rcases replayed t waiting with still | now
          · exact .inl still
          · exact .inr ⟨e, List.mem_append_right _ (List.mem_singleton_self e), now⟩
        · rw [Function.update_of_ne same]
          exact .inl waiting
      · exact .inr ⟨sweep, List.mem_append_left _ sweepMem, stmt⟩
    · obtain rfl := List.mem_singleton.mp mem
      obtain ⟨holds, phase⟩ := presented t ⟨e', List.mem_singleton_self e', rfl, lookup⟩
      rw [Function.update_self]
      exact ⟨holds, .inl phase⟩

omit [DecidableEq ι] in
/-- A child of a revoked, childless token that nobody rotates any more, of a device
that has not been swept. -/
theorem mint (inv : RotationInvariant h ph db) {t c : RefreshToken} (holds : Holds db t)
    (rows : db'.refreshTokens.rows = db.refreshTokens.rows ++ [c])
    (fresh : ∀ row ∈ db.refreshTokens.rows, row.id ≠ c.id)
    (parent : c.parent = some t.id) (account : c.account = t.account) (device : c.device = t.device)
    (revoked : ∀ row ∈ db.refreshTokens.rows, row.id = t.id → row.revokedAt ≠ none)
    (childless : ∀ row ∈ db.refreshTokens.rows, row.parent ≠ some t.id)
    (idle : ∀ j t', ph j = .rotating t' → t'.id ≠ t.id)
    (unswept : ¬ Swept h c.account c.device) : RotationInvariant h ph db' := by
  have old : ∀ {row}, row ∈ db.refreshTokens.rows → row ∈ db'.refreshTokens.rows := by
    intro row mem
    rw [rows]
    exact List.mem_append_left _ mem
  have cases_ : ∀ {row}, row ∈ db'.refreshTokens.rows → row ∈ db.refreshTokens.rows ∨ row = c := by
    intro row mem
    rw [rows] at mem
    rcases List.mem_append.mp mem with mem | mem
    · exact .inl mem
    · exact .inr (List.mem_singleton.mp mem)
  have keeps : ∀ {t}, Holds db t → Holds db' t := by
    rintro t ⟨row, mem, same⟩
    exact ⟨row, old mem, same⟩
  obtain ⟨pred, predMem, predKey, predAccount, predDevice⟩ := holds
  constructor
  · constructor
    · intro row mem p hp
      rcases cases_ mem with mem | rfl
      · obtain ⟨t', mem', found⟩ := inv.parent_revoked row mem p hp
        exact ⟨t', old mem', found⟩
      · rw [parent] at hp
        cases hp
        exact ⟨pred, old predMem, predKey, revoked pred predMem predKey⟩
    · intro row mem row' mem' p hp hp'
      rcases cases_ mem with mem | rfl <;> rcases cases_ mem' with mem' | rfl
      · exact inv.one_child row mem row' mem' p hp hp'
      · rw [parent] at hp'
        cases hp'
        exact absurd hp (childless row mem)
      · rw [parent] at hp
        cases hp
        exact absurd hp' (childless row' mem')
      · rfl
    · have same : ∀ row ∈ db.refreshTokens.rows, row.device = c.device →
          row.account = c.account := by
        intro row mem dev
        rw [account, ← predAccount]
        exact inv.one_account row mem pred predMem (by rw [dev, device, predDevice])
      intro row mem row' mem' dev
      rcases cases_ mem with mem | rfl <;> rcases cases_ mem' with mem' | rfl
      · exact inv.one_account row mem row' mem' dev
      · exact same row mem dev
      · exact (same row' mem' dev.symm).symm
      · rfl
  · exact fun i t phase => keeps (inv.held i t phase)
  · intro i t' phase
    obtain ⟨holds', revoked', childless'⟩ := inv.rotating i t' phase
    refine ⟨keeps holds', fun row mem key => ?_, fun row mem => ?_⟩
    · rcases cases_ mem with mem | rfl
      · exact revoked' row mem key
      · obtain ⟨row', mem', key', -⟩ := holds'
        exact absurd (key'.trans key.symm) (fresh row' mem')
    · rcases cases_ mem with mem | rfl
      · exact childless' row mem
      · rw [parent]
        exact fun same => idle i t' phase (Option.some.inj same).symm
  · exact inv.exclusive
  · intro account' device' sweep row mem acc dev
    rcases cases_ mem with mem | rfl
    · exact inv.swept account' device' sweep row mem acc dev
    · subst acc dev
      exact absurd sweep unswept
  · exact fun i t found => ⟨keeps (inv.presented i t found).1, (inv.presented i t found).2⟩

end RotationInvariant

/-- A rotation's `UPDATE` finds its token live. -/
def restsOnLive (e : Event ι Stmt Db) : Bool :=
  match e.q with
  | .revokeToken id => (e.before.refreshTokens.find? id).all fun t => t.revokedAt.isNone
  | _ => true

/-- The later statement mints a child for a device that the earlier one swept. -/
def mintsAfterSweep (e e' : Event ι Stmt Db) : Bool :=
  match e.q, e'.q with
  | .revokeChain account device, .insertRefresh account' device' _ (some _) _ =>
      decide (account = account' ∧ device = device')
  | _, _ => false

/-- No rotation loses its token to another call, and none mints after a sweep. -/
def Undisturbed (h : List (Event ι Stmt Db)) : Prop :=
  (∀ e ∈ h, restsOnLive e = true) ∧ h.Pairwise fun e e' => mintsAfterSweep e e' = false

theorem Undisturbed.of_append {h : List (Event ι Stmt Db)} {e : Event ι Stmt Db}
    (undisturbed : Undisturbed (h ++ [e])) :
    Undisturbed h ∧ restsOnLive e = true ∧ ∀ e' ∈ h, mintsAfterSweep e' e = false := by
  obtain ⟨rests, order⟩ := undisturbed
  obtain ⟨past, last⟩ := List.forall_mem_append.mp rests
  obtain ⟨pairs, -, cross⟩ := List.pairwise_append.mp order
  exact ⟨⟨past, pairs⟩, last e (List.mem_singleton_self e),
    fun e' mem => cross e' mem e (List.mem_singleton_self e)⟩

section Step

variable [DecidableEq ι] {env : Env} {h : List (Event ι Stmt Db)} {ph : ι → RefreshPhase} {db : Db}

/-- The lookup of a call that finds its token. -/
theorem RotationInvariant.lookup (inv : RotationInvariant h ph db) {i : ι} {hash : Bytes}
    {t : RefreshToken} {b : RefreshPhase} (phase : ph i = .looking)
    (found : (db.refreshTokens.rows.find? fun t => decide (t.tokenHash = hash)) = some t)
    (next : t.revokedAt ≠ none ∧ b = .replayed t ∨ t.revokedAt = none ∧ b = .live t) :
    RotationInvariant (h ++ [⟨i, .findRefresh hash, db⟩]) (Function.update ph i b) db := by
  have holds : Holds db t := ⟨t, List.mem_of_find?_eq_some found, rfl, rfl, rfl⟩
  refine inv.advance (e := ⟨i, .findRefresh hash, db⟩) ?_ ?_ nofun ?_ ?_
  · intro t' eq
    rcases next with ⟨-, rfl⟩ | ⟨-, rfl⟩ <;> rcases eq with eq | eq <;> cases eq
    · exact holds
    · exact holds
  · rintro t' rfl
    rcases next with ⟨-, eq⟩ | ⟨-, eq⟩ <;> cases eq
  · rintro t' ⟨e, mem, -, hash', stmt, found', revoked⟩
    obtain rfl := List.mem_singleton.mp mem
    cases stmt
    obtain rfl : t = t' := Option.some.inj (found.symm.trans found')
    rcases next with ⟨-, rfl⟩ | ⟨live, -⟩
    · exact ⟨holds, rfl⟩
    · exact absurd live revoked
  · intro t' waiting
    rw [phase] at waiting
    cases waiting

/-- A statement that leaves the phase and the tokens alone. -/
theorem RotationInvariant.other (inv : RotationInvariant h ph db) {i : ι} {q : Stmt}
    (keeps : q.keepsTokens = true) {b : RefreshPhase} (phase : ph i = b) :
    RotationInvariant (h ++ [⟨i, q, db⟩]) (Function.update ph i b) (Stmt.exec env q db).2 := by
  have rev : Revokes db (Stmt.exec env q db).2 := .of_eq (Stmt.exec_keepsTokens keeps db)
  subst phase
  refine (inv.revokes rev).advance (e := ⟨i, q, db⟩) ?_ ?_ ?_ ?_ ?_
  · exact fun t phase => rev.holds (inv.held i t phase)
  · intro t phase
    obtain ⟨holds, revoked, childless⟩ := (inv.revokes rev).rotating i t phase
    exact ⟨holds, revoked, childless, fun j t' ne phase' same =>
      ne (inv.exclusive j i t' t phase' phase same.symm)⟩
  · rintro account device rfl
    cases keeps
  · rintro t ⟨e, mem, -, hash, stmt, -⟩
    obtain rfl := List.mem_singleton.mp mem
    obtain rfl : q = _ := stmt
    cases keeps
  · exact fun t waiting => .inl waiting

/-- One statement of one call, in an undisturbed history. -/
theorem RotationInvariant.step (inv : RotationInvariant h ph db) {i : ι} {token : String}
    {q : Stmt} {b : RefreshPhase}
    (step : RefreshStep env token (ph i) q (Stmt.exec env q db).1 b)
    (undisturbed : Undisturbed (h ++ [⟨i, q, db⟩])) :
    RotationInvariant (h ++ [⟨i, q, db⟩]) (Function.update ph i b) (Stmt.exec env q db).2 := by
  obtain ⟨-, rests, order⟩ := undisturbed.of_append
  generalize phase : ph i = a at step
  generalize result : (Stmt.exec env q db).1 = res at step
  cases step with
  | other q res keeps settled => exact inv.other keeps phase
  | miss =>
      refine inv.advance (e := ⟨i, _, db⟩) (by simp) (by rintro _ ⟨⟩) (by rintro _ _ ⟨⟩) ?_ (by simp [phase])
      rintro t ⟨e, mem, -, hash, stmt, found, -⟩
      obtain rfl := List.mem_singleton.mp mem
      cases stmt
      exact nomatch (Except.ok.inj result).symm.trans found
  | replay t revoked =>
      exact inv.lookup phase (Except.ok.inj result) (.inl ⟨revoked, rfl⟩)
  | hit t fresh => exact inv.lookup phase (Except.ok.inj result) (.inr ⟨fresh, rfl⟩)
  | sweep t =>
      have rev : Revokes db (Stmt.exec env (.revokeChain t.account t.device) db).2 :=
        .of_updateWhere rfl
      refine (inv.revokes rev).advance (e := ⟨i, _, db⟩) (by simp) (by rintro _ ⟨⟩) ?_ ?_ ?_
      · intro account device stmt row mem acc dev
        cases stmt
        obtain ⟨row, -, rfl⟩ := List.mem_map.mp mem
        split <;> rename_i out
        · simp
        · simp_all
      · rintro t' ⟨e, mem, -, hash, stmt, -⟩
        obtain rfl := List.mem_singleton.mp mem
        cases stmt
      · intro t' waiting
        rw [phase] at waiting
        cases waiting
        exact .inr rfl
  | revoke t =>
      have rev : Revokes db (Stmt.exec env (.revokeToken t.id) db).2 := .of_updateWhere rfl
      have holds : Holds db t := inv.held i t (.inr phase)
      -- the token is still live, so nobody has begun to rotate it
      have live : ∀ row ∈ db.refreshTokens.rows, row.id = t.id → row.revokedAt = none := by
        intro row mem key
        have found : db.refreshTokens.find? t.id = some row := by
          rw [← key]
          exact Table.find?_of_mem mem
        simpa [restsOnLive, found] using rests
      refine (inv.revokes rev).advance (e := ⟨i, _, db⟩) (by simp) ?_ (by rintro _ _ ⟨⟩) ?_ ?_
      · rintro t' eq
        cases eq
        refine ⟨rev.holds holds, fun row mem key => ?_, fun row mem parent => ?_, ?_⟩
        · obtain ⟨row, -, rfl⟩ := List.mem_map.mp mem
          split <;> rename_i out
          · simp
          · simp_all
        · obtain ⟨old, oldMem, same⟩ := rev.back row mem
          obtain ⟨pred, predMem, key, revoked⟩ :=
            inv.parent_revoked old oldMem t.id (same.2.2.2.1.symm.trans parent)
          exact revoked (live pred predMem key)
        · intro j t' ne phase' key
          obtain ⟨⟨row, mem, same, -⟩, revoked, -⟩ := inv.rotating j t' phase'
          exact revoked row mem same (live row mem (same.trans key.symm))
      · rintro t' ⟨e, mem, -, hash, stmt, -⟩
        obtain rfl := List.mem_singleton.mp mem
        cases stmt
      · intro t' waiting
        rw [phase] at waiting
        cases waiting
  | mint t hash expires =>
      rcases exec_insertRefresh env t.account t.device hash (some t.id) expires db with
        ⟨c, parent, account, device, fresh, -, rows⟩ | ⟨failed, -⟩
      · obtain ⟨holds, revoked, childless⟩ := inv.rotating i t phase
        refine RotationInvariant.mint ?_ holds rows fresh parent account device revoked
          childless ?_ ?_
        · refine inv.advance (e := ⟨i, _, db⟩) (by simp) (by rintro _ ⟨⟩) (by rintro _ _ ⟨⟩) ?_ (by simp [phase])
          rintro t' ⟨e, mem, -, hash, stmt, -⟩
          obtain rfl := List.mem_singleton.mp mem
          cases stmt
        · intro j t' phase'
          by_cases same : j = i
          · rw [same, Function.update_self] at phase'
            cases phase'
          · rw [Function.update_of_ne same] at phase'
            exact fun key => same (inv.exclusive j i t' t phase' phase key)
        · rintro ⟨e, mem, stmt⟩
          rcases List.mem_append.mp mem with mem | mem
          · have cross := order e mem
            simp [mintsAfterSweep, stmt, account, device] at cross
          · rw [List.mem_singleton.mp mem] at stmt
            cases stmt
      · rw [failed] at result
        cases result
  | refused t hash expires e =>
      rcases exec_insertRefresh env t.account t.device hash (some t.id) expires db with
        ⟨-, -, -, -, -, ok, -⟩ | ⟨-, unchanged⟩
      · rw [ok] at result
        cases result
      · rw [unchanged]
        refine inv.advance (e := ⟨i, _, db⟩) (by simp) (by rintro _ ⟨⟩) (by rintro _ _ ⟨⟩) ?_ (by simp [phase])
        rintro t' ⟨e, mem, -, hash, stmt, -⟩
        obtain rfl := List.mem_singleton.mp mem
        cases stmt
  | lookFailed e => cases result
  | sweepFailed t e => cases result
  | revokeFailed t e => cases result

end Step

/-- A `POST /v1/auth/refresh`. -/
structure RefreshCall where
  caller : Caller
  token : String

section Runs

variable [DecidableEq ι] (env : Env) (db : Db) (calls : ι → RefreshCall) (ls : List (Label ι Nat))

/-- The requests of the pool. -/
def refreshes : ι → Handler Response := fun i => authRefresh env (calls i).caller (calls i).token

/-- Once a call that presented a revoked token is answered, no token of the device
is live: neither those it found nor those minted by rotations that were under way. -/
def ReplayEndsSessions : Prop :=
  ∀ i answer t, Answered env db (refreshes env calls) ls i answer →
    PresentedRevoked (history env db (refreshes env calls) ls) i t →
    ∀ row ∈ (serve env db (refreshes env calls) ls).shared.refreshTokens.rows,
      row.device = t.device → row.revokedAt ≠ none

variable {env db calls ls}

theorem refreshes_invariant (sound : RotationSound db)
    (undisturbed : Undisturbed (history env db (refreshes env calls) ls)) :
    ∃ ph, (∀ i, Handler.Follows ((serve env db (refreshes env calls) ls).prog i)
        (RefreshStep env (calls i).token) (fun b _ => b.settled = true) (ph i)) ∧
      RotationInvariant (history env db (refreshes env calls) ls) ph
        (serve env db (refreshes env calls) ls).shared := by
  obtain ⟨ph, follows, inv⟩ := serve_phases env db (refreshes env calls)
    (I := fun h ph x => Undisturbed h → RotationInvariant h ph x)
    (fun h ph x i q b step inv undisturbed =>
      (inv undisturbed.of_append.1).step step undisturbed)
    (fun h ph x n inv undisturbed => (inv undisturbed).revokes (.of_eq rfl))
    (fun i => authRefresh_follows env (calls i).caller (calls i).token)
    (fun _ => ⟨sound, by simp, by simp, by simp, by simp [Swept], by simp [PresentedRevoked]⟩) ls
  exact ⟨ph, follows, inv undisturbed⟩

/-- In every run of any number of `auth_refresh` calls in which each rotation revokes
a token that is live at that moment and none mints after a sweep of its device,
rotation is single-use and an answered replay ends the device's sessions. -/
theorem authRefresh_singleUse (sound : RotationSound db)
    (undisturbed : Undisturbed (history env db (refreshes env calls) ls)) :
    OneChild (serve env db (refreshes env calls) ls).shared ∧
      ReplayEndsSessions env db calls ls := by
  obtain ⟨ph, follows, inv⟩ := refreshes_invariant sound undisturbed
  refine ⟨inv.one_child, fun i answer t answered found row mem device => ?_⟩
  have settled : (ph i).settled = true := answered.final (follows i)
  obtain ⟨⟨held, heldMem, -, account, device'⟩, phase⟩ := inv.presented i t found
  rcases phase with waiting | swept
  · rw [waiting] at settled
    cases settled
  · refine inv.swept t.account t.device swept row mem ?_ device
    rw [← account]
    exact inv.one_account row mem held heldMem (device.trans device'.symm)

end Runs

/-- The encodings and digests of the tokens drawn below. -/
def refreshEnv : Env :=
  { Env.bare with
    random := fun draw n => List.replicate n (UInt8.ofNat draw)
    urlSafe := fun b =>
      if b = List.replicate 32 20 then "FBQUFBQUFBQUFBQUFBQUFBQUFBQUFBQUFBQUFBQUFBQ"
      else "FxcXFxcXFxcXFxcXFxcXFxcXFxcXFxcXFxcXFxcXFxc"
    sha256 := fun b =>
      if b = utf8 "AAAAAAAAAAAAAAAAAAAAAAAAAAAAAAAAAAAAAAAAAAA" then
        [15, 0, 115, 133, 182, 249, 212, 183, 238, 178, 116, 134, 5, 175, 225, 169, 132, 160, 163,
          191, 163, 240, 20, 208, 158, 42, 120, 76, 233, 229, 205, 26]
      else if b = utf8 "FBQUFBQUFBQUFBQUFBQUFBQUFBQUFBQUFBQUFBQUFBQ" then
        [130, 243, 181, 101, 154, 73, 75, 230, 243, 203, 176, 188, 245, 168, 163, 189, 125, 176,
          217, 242, 220, 224, 249, 112, 151, 32, 136, 105, 160, 61, 70, 35]
      else
        [22, 172, 170, 167, 241, 169, 253, 228, 191, 71, 116, 188, 79, 24, 233, 178, 99, 230, 131,
          38, 137, 107, 32, 223, 228, 14, 16, 155, 198, 66, 12, 203] }

/-- Device 11 of account 10 with one refresh token. -/
def oneSession : Db where
  accounts := ownAccounts
  devices := ownDesktop
  refreshTokens := ⟨[{ id := 12, account := 10, device := 11
                       tokenHash := hashRefresh refreshEnv
                         "AAAAAAAAAAAAAAAAAAAAAAAAAAAAAAAAAAAAAAAAAAA"
                       parent := none, expiresAt := days 30, revokedAt := none
                       createdAt := 0 }], by decide⟩
  supply := 20

/-- Every call presents the same token. -/
def sameToken {ι : Type} (_ : ι) : RefreshCall where
  caller := { forwardedFor := none, peer := none }
  token := "AAAAAAAAAAAAAAAAAAAAAAAAAAAAAAAAAAAAAAAAAAA"

theorem oneSession_sound : RotationSound oneSession := by
  constructor
  · simp [oneSession]
  · simp [OneChild, oneSession]
  · simp [oneSession]

/-- A rotation, and after it a replay of the rotated token. -/
theorem authRefresh_singleUse_replay :
    Undisturbed (history refreshEnv oneSession (refreshes refreshEnv (sameToken (ι := Bool)))
      (List.replicate 9 (Label.thread false) ++ List.replicate 4 (Label.thread true))) ∧
    OneChild (serve refreshEnv oneSession (refreshes refreshEnv (sameToken (ι := Bool)))
      (List.replicate 9 (Label.thread false) ++ List.replicate 4 (Label.thread true))).shared ∧
    ReplayEndsSessions refreshEnv oneSession (sameToken (ι := Bool))
      (List.replicate 9 (Label.thread false) ++ List.replicate 4 (Label.thread true)) :=
  have undisturbed : Undisturbed (history refreshEnv oneSession
      (refreshes refreshEnv (sameToken (ι := Bool)))
      (List.replicate 9 (Label.thread false) ++ List.replicate 4 (Label.thread true))) :=
    ⟨by decide, by decide⟩
  ⟨undisturbed, authRefresh_singleUse oneSession_sound undisturbed⟩

/-- The first call looks the token up; the second rotates it; the third replays it and is
refused; then the first goes on. -/
def heldBackRotation : List (Label (Option Bool) Nat) :=
  (List.replicate 2 none ++ List.replicate 9 (some false) ++ List.replicate 4 (some true) ++
    List.replicate 7 none).map .thread

/-- The token ends with two children, and the second one, minted by the rotation
that was under way, is live after the replay has been answered. -/
theorem heldBackRotation_not_singleUse :
    ¬ OneChild (serve refreshEnv oneSession (refreshes refreshEnv sameToken)
        heldBackRotation).shared ∧
      ¬ ReplayEndsSessions refreshEnv oneSession sameToken heldBackRotation := by
  constructor
  · intro oneChild
    have first := List.get_mem (serve refreshEnv oneSession (refreshes refreshEnv sameToken)
      heldBackRotation).shared.refreshTokens.rows ⟨1, by decide⟩
    have second := List.get_mem (serve refreshEnv oneSession (refreshes refreshEnv sameToken)
      heldBackRotation).shared.refreshTokens.rows ⟨2, by decide⟩
    have same := congrArg RefreshToken.id (oneChild _ first _ second 12 rfl rfl)
    exact absurd same (by decide)
  · intro ends
    have survivor := List.get_mem (serve refreshEnv oneSession (refreshes refreshEnv sameToken)
      heldBackRotation).shared.refreshTokens.rows ⟨2, by decide⟩
    have lookup := List.get_mem (history refreshEnv oneSession (refreshes refreshEnv sameToken)
      heldBackRotation) ⟨12, by decide⟩
    refine ends (some true) (.error .unauthorized) _ rfl ⟨_, lookup, rfl, _, rfl, rfl, ?_⟩ _
      survivor rfl rfl
    rintro ⟨⟩

end Sentinel.Api
