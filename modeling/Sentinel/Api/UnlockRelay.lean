import Sentinel.Api.Interleaving

/-!
# The unlock relay

An unlock request waits in state `pending` for its phone's answer or its expiry.
`unlock_respond` is one conditional `UPDATE`; `unlock_get` writes the expiry from
an earlier read, with no condition on the state, and `unlock_respond` does not look
at `expires_at`.

`OneShot` is the intended life of a row over a whole history, `Timely` the condition
on the states the two writing statements meet. They are equivalent on every
interleaving of polls and answers.
-/

namespace Sentinel.Api

open Atomic Handler Relational

/-- A poll or an answer, with the claims of its bearer token. -/
inductive RelayRequest where
  | get (token : AccessClaims) (id : Uuid)
  | respond (token : AccessClaims) (id : Uuid) (body : UnlockRespondReq)

namespace RelayRequest

def handler : RelayRequest → Handler Response
  | get token id => unlockGet (some token) id
  | respond token id body => unlockRespond (some token) id body

/-- The statements a request can perform. -/
def Performs (r : RelayRequest) (q : Stmt) : Prop :=
  q.readOnly = true ∨
    match r with
    | get _ id => q = .expireUnlock id
    | respond token id _ => ∃ state payload, (state = .approved ∨ state = .denied) ∧
        q = .respondUnlock state payload id token.sub token.dev

/-- The request is an answer by the phone the row designates. -/
def FromPhone (r : RelayRequest) (u : UnlockRequest) : Prop :=
  match r with
  | get .. => False
  | respond token id _ => id = u.id ∧ token.sub = u.account ∧ token.dev = u.phoneDevice

end RelayRequest

theorem parseAnswer_cases {s : String} {state : UnlockState} (h : parseAnswer s = some state) :
    state = .approved ∨ state = .denied := by
  unfold parseAnswer at h
  split at h
  · exact .inl (Option.some.inj h).symm
  · exact .inr (Option.some.inj h).symm
  · cases h

theorem RelayRequest.handler_within (r : RelayRequest) :
    r.handler.Within r.Performs fun _ => True := by
  cases r with
  | get token id =>
      simp only [handler, unlockGet, within_bind]
      refine (verifyWithKind_within _ _).mono
        (fun q check => .inl (Stmt.readOnly_of_isTokenCheck check)) ?_
      rintro a ⟨claims, presented, -, rfl⟩
      exact pollUnlock_within _ id 3 none
  | respond token id body =>
      simp only [handler, unlockRespond, within_bind]
      refine (verifyWithKind_within _ _).mono
        (fun q check => .inl (Stmt.readOnly_of_isTokenCheck check)) ?_
      rintro a ⟨claims, presented, -, rfl⟩
      cases presented
      simp only [requireApprovedDevice, within_bind, within_sql, within_okOr, within_ensure]
      refine ⟨.inl rfl, fun _ _ _ _ state answer => ?_⟩
      have finish : ∀ payload, (RelayRequest.respond token id body).Performs
          (.respondUnlock state payload id token.sub token.dev) :=
        fun payload => .inr ⟨state, payload, parseAnswer_cases answer, rfl⟩
      unfold answerPayload
      split
      · simp only [within_pure, finish, true_and, implies_true]
      · exact (within_throw _).mpr trivial
      · simp only [within_bind, within_ensure, within_pure, finish, true_and, implies_true]

variable {ι : Type}

/-- The statement changes the state or the response of the row. -/
def Moves (env : Env) (id : Uuid) (e : Event ι Stmt Db) : Prop :=
  ∃ u u', e.before.unlockRequests.find? id = some u ∧
    (Stmt.exec env e.q e.before).2.unlockRequests.find? id = some u' ∧
    (u'.state ≠ u.state ∨ u'.responsePayload ≠ u.responsePayload)

/-- A move out of `pending`: an answer comes from the designated phone, and an
approval not after the expiry. -/
def Settles (env : Env) (r : RelayRequest) (id : Uuid) (e : Event ι Stmt Db) : Prop :=
  ∃ u u', e.before.unlockRequests.find? id = some u ∧
    (Stmt.exec env e.q e.before).2.unlockRequests.find? id = some u' ∧
    u.state = .pending ∧ u'.state ≠ .pending ∧ (u'.state ≠ .expired → r.FromPhone u) ∧
    (u'.state = .approved → e.before.clock ≤ u.expiresAt)

/-- The life of every row over a history: at most one move, out of `pending`. -/
def OneShot (env : Env) (reqs : ι → RelayRequest) (h : List (Event ι Stmt Db)) : Prop :=
  (∀ id, h.Pairwise fun e e' => ¬ (Moves env id e ∧ Moves env id e')) ∧
    ∀ e ∈ h, ∀ id, Moves env id e → Settles env (reqs e.thread) id e

/-- The states the writing statements meet: an expiry finds a row that is still
pending, or expired already; an approval that is not refused finds it in time. -/
def Timely (h : List (Event ι Stmt Db)) : Prop :=
  ∀ e ∈ h, (∀ id u, e.q = .expireUnlock id → e.before.unlockRequests.find? id = some u →
      u.state = .pending ∨ u.state = .expired) ∧
    ∀ payload id account phone u, e.q = .respondUnlock .approved payload id account phone →
      e.before.unlockRequests.find? id = some u → u.account = account → u.phoneDevice = phone →
      u.state = .pending → e.before.clock ≤ u.expiresAt

section Statements

variable (env : Env) {db : Db} {id : Uuid} {u : UnlockRequest}

theorem find?_expireUnlock (found : db.unlockRequests.find? id = some u) :
    (Stmt.exec env (.expireUnlock id) db).2.unlockRequests.find? id =
      some { u with state := .expired } := by
  simp [Stmt.exec, Table.find?_updateWhere, found, Table.key_of_find? found]

theorem find?_respondUnlock (found : db.unlockRequests.find? id = some u) (state : UnlockState)
    (payload : Option Bytes) (account phone : Uuid) :
    (Stmt.exec env (.respondUnlock state payload id account phone) db).2.unlockRequests.find? id =
      some (if u.account = account ∧ u.phoneDevice = phone ∧ u.state = .pending then
        { u with state, responsePayload := payload } else u) := by
  simp [Stmt.exec, Table.find?_updateWhere, found, Table.key_of_find? found]

/-- What a relay statement does to a row: nothing, its expiry, or its answer. -/
theorem RelayRequest.Performs.effect {r : RelayRequest} {q : Stmt} (performs : r.Performs q)
    (found : db.unlockRequests.find? id = some u) :
    (Stmt.exec env q db).2.unlockRequests.find? id = some u ∨
    (q = .expireUnlock id ∧ (Stmt.exec env q db).2.unlockRequests.find? id =
      some { u with state := .expired }) ∨
    ∃ state payload account phone, (state = .approved ∨ state = .denied) ∧
      q = .respondUnlock state payload id account phone ∧ u.account = account ∧
      u.phoneDevice = phone ∧ u.state = .pending ∧ r.FromPhone u ∧
      (Stmt.exec env q db).2.unlockRequests.find? id =
        some { u with state, responsePayload := payload } := by
  have key : u.id = id := Table.key_of_find? found
  rcases performs with reads | write
  · left
    rw [Stmt.exec_readOnly reads, found]
  cases r with
  | get token polled =>
      obtain rfl : q = .expireUnlock polled := write
      by_cases same : polled = id
      · subst same
        exact .inr (.inl ⟨rfl, find?_expireUnlock env found⟩)
      · left
        simp [Stmt.exec, Table.find?_updateWhere, found, key, Ne.symm same]
  | respond token answered body =>
      obtain ⟨state, payload, kind, rfl⟩ := write
      by_cases same : answered = id
      · subst same
        by_cases waiting : u.account = token.sub ∧ u.phoneDevice = token.dev ∧ u.state = .pending
        · obtain ⟨account, phone, pending⟩ := waiting
          refine .inr (.inr ⟨state, payload, _, _, kind, rfl, account, phone, pending,
            ⟨key.symm, account.symm, phone.symm⟩, ?_⟩)
          rw [find?_respondUnlock env found, if_pos ⟨account, phone, pending⟩]
        · left
          rw [find?_respondUnlock env found, if_neg waiting]
      · left
        simp [Stmt.exec, Table.find?_updateWhere, found, key, Ne.symm same]

end Statements

section Events

variable {env : Env} {r : RelayRequest} {e : Event ι Stmt Db} {id : Uuid}

/-- A row stays, and keeps its state unless it moves. -/
theorem state_of_not_moves (performs : r.Performs e.q) (still : ¬ Moves env id e)
    {u : UnlockRequest} (found : e.before.unlockRequests.find? id = some u) :
    ∃ u', (Stmt.exec env e.q e.before).2.unlockRequests.find? id = some u' ∧
      u'.state = u.state := by
  have after : ∃ u', (Stmt.exec env e.q e.before).2.unlockRequests.find? id = some u' := by
    rcases performs.effect env found with same | ⟨-, expired⟩ |
      ⟨_, _, _, _, -, -, -, -, -, -, answered⟩
    exacts [⟨_, same⟩, ⟨_, expired⟩, ⟨_, answered⟩]
  obtain ⟨u', found'⟩ := after
  refine ⟨u', found', ?_⟩
  by_contra moved
  exact still ⟨u, u', found, found', .inl moved⟩

/-- A timely move is a legal one. -/
theorem settles_of_moves (performs : r.Performs e.q) (timely : Timely [e])
    (moves : Moves env id e) : Settles env r id e := by
  obtain ⟨u, u', found, found', changed⟩ := moves
  obtain ⟨expiry, approval⟩ := timely e (List.mem_singleton_self e)
  refine ⟨u, u', found, found', ?_⟩
  rcases performs.effect env found with same | ⟨stmt, expired⟩ |
    ⟨state, payload, account, phone, kind, stmt, acc, dev, pending, fromPhone, answered⟩
  · rw [same] at found'
    cases found'
    simp at changed
  · rw [expired] at found'
    cases found'
    have pending : u.state = .pending := by
      rcases expiry id u stmt found with pending | already
      · exact pending
      · simp [already] at changed
    exact ⟨pending, by simp, by simp, by simp⟩
  · rw [answered] at found'
    cases found'
    refine ⟨pending, ?_, fun _ => fromPhone, ?_⟩
    · rcases kind with rfl | rfl <;> simp
    · rintro rfl
      exact approval payload id account phone u stmt found acc dev pending

/-- A history of legal moves met only timely states. -/
theorem timely_of_settles (legal : ∀ id, Moves env id e → Settles env r id e) : Timely [e] := by
  intro e' mem
  rw [List.mem_singleton.mp mem]
  constructor
  · intro id u stmt found
    by_contra neither
    obtain ⟨pending, expired⟩ := not_or.mp neither
    have after := find?_expireUnlock env found
    rw [← stmt] at after
    obtain ⟨v, -, found', -, settled, -⟩ := legal id ⟨u, _, found, after, .inl (Ne.symm expired)⟩
    rw [found] at found'
    cases found'
    exact pending settled
  · intro payload id account phone u stmt found acc dev pending
    have after := find?_respondUnlock env found .approved payload account phone
    rw [if_pos ⟨acc, dev, pending⟩, ← stmt] at after
    obtain ⟨v, v', before', after', -, -, -, inTime⟩ :=
      legal id ⟨u, _, found, after, .inl (by simp [pending])⟩
    rw [found] at before'
    rw [after] at after'
    cases before'
    cases after'
    exact inTime rfl

theorem timely_append {h : List (Event ι Stmt Db)} :
    Timely (h ++ [e]) ↔ Timely h ∧ Timely [e] := List.forall_mem_append

end Events

section Runs

variable [DecidableEq ι] (env : Env) (db : Db) (reqs : ι → RelayRequest)

/-- The requests of the pool. -/
def relay : ι → Handler Response := fun i => (reqs i).handler

/-- Every statement performed is one its request can perform, and in a timely
history the rows that have moved are no longer pending. -/
def RelayInvariant (h : List (Event ι Stmt Db)) (x : Db) : Prop :=
  (∀ e ∈ h, (reqs e.thread).Performs e.q) ∧
    (Timely h → OneShot env reqs h ∧
      ∀ e ∈ h, ∀ id, Moves env id e →
        ∃ u, x.unlockRequests.find? id = some u ∧ u.state ≠ .pending)

variable {env reqs}

omit [DecidableEq ι] in
theorem RelayInvariant.step {h : List (Event ι Stmt Db)} {x : Db} {i : ι} {q : Stmt}
    (performs : (reqs i).Performs q) (inv : RelayInvariant env reqs h x) :
    RelayInvariant env reqs (h ++ [⟨i, q, x⟩]) (Stmt.exec env q x).2 := by
  constructor
  · intro e mem
    rcases List.mem_append.mp mem with mem | mem
    · exact inv.1 e mem
    · rw [List.mem_singleton.mp mem]
      exact performs
  intro timely
  obtain ⟨past, now⟩ := timely_append.mp timely
  obtain ⟨⟨once, legal⟩, settled⟩ := inv.2 past
  have last : ∀ id, Moves env id (⟨i, q, x⟩ : Event ι Stmt Db) →
      Settles env (reqs i) id (⟨i, q, x⟩ : Event ι Stmt Db) :=
    fun id moves => settles_of_moves performs now moves
  -- a row that has moved is not pending, so the new statement cannot move it again
  have disjoint : ∀ e ∈ h, ∀ id, Moves env id e →
      ¬ Moves env id (⟨i, q, x⟩ : Event ι Stmt Db) := by
    intro e mem id moved again
    obtain ⟨u, found, left⟩ := settled e mem id moved
    obtain ⟨v, -, found', -, pending, -⟩ := last id again
    rw [found] at found'
    cases found'
    exact left pending
  refine ⟨⟨fun id => ?_, fun e mem id moves => ?_⟩, fun e mem id moves => ?_⟩
  · rw [List.pairwise_append]
    refine ⟨once id, List.pairwise_singleton _ _, fun e mem e' mem' both => ?_⟩
    rw [List.mem_singleton.mp mem'] at both
    exact disjoint e mem id both.1 both.2
  · rcases List.mem_append.mp mem with mem | mem
    · exact legal e mem id moves
    · rw [List.mem_singleton.mp mem] at moves ⊢
      exact last id moves
  · rcases List.mem_append.mp mem with mem | mem
    · obtain ⟨u, found, left⟩ := settled e mem id moves
      obtain ⟨u', found', same⟩ := state_of_not_moves performs (disjoint e mem id moves) found
      exact ⟨u', found', same ▸ left⟩
    · rw [List.mem_singleton.mp mem] at moves
      obtain ⟨-, u', -, found', -, left, -⟩ := last id moves
      exact ⟨u', found', left⟩

theorem relay_invariant (env : Env) (db : Db) (reqs : ι → RelayRequest) (ls : List (Label ι Nat)) :
    RelayInvariant env reqs (history env db (relay reqs) ls) (serve env db (relay reqs) ls).shared :=
  serve_within env db (relay reqs) (fun _ _ _ _ performs inv => inv.step performs)
    (fun _ _ _ inv => inv) (fun i => (reqs i).handler_within)
    ⟨by simp, fun _ => ⟨⟨by simp, by simp⟩, by simp⟩⟩ ls

end Runs

/-- On every interleaving of polls and answers, from any database: every unlock
request lives its one-shot life exactly when the expiry statements meet rows that
are pending or expired and the approvals that are not refused come in time. -/
theorem unlockRelay_oneShot_iff [DecidableEq ι] (env : Env) (db : Db) (reqs : ι → RelayRequest)
    (ls : List (Label ι Nat)) :
    OneShot env reqs (history env db (relay reqs) ls) ↔ Timely (history env db (relay reqs) ls) := by
  obtain ⟨performs, timely⟩ := relay_invariant env db reqs ls
  constructor
  · intro oneShot e mem
    exact timely_of_settles (oneShot.2 e mem) e (List.mem_singleton_self e)
  · exact fun h => (timely h).1

/-- Account 10 with a desktop 11 and a phone 12, and request 13, which has run out. -/
def overdueUnlock : Db where
  devices := ⟨[{ id := 12, account := 10, name := "phone", platform := .ios, status := .approved
                 phonePubP256 := none, pushToken := none, approvedBy := none, createdAt := 0 }],
    by decide⟩
  unlockRequests := ⟨[{ id := 13, account := 10, desktopDevice := 11, phoneDevice := 12
                        kind := .unlock, requestPayload := [], responsePayload := none
                        state := .pending, createdAt := 0, expiresAt := minutes 2 }], by decide⟩
  issued := [11, 12].map fun dev => { sub := 10, dev, iat := 0, exp := 600, tok := .access }
  clock := minutes 3
  supply := 20

/-- The desktop polls while the phone approves. -/
def pollAndAnswer : Bool → RelayRequest
  | false => .get { sub := 10, dev := 11, iat := 0, exp := 600, tok := .access } 13
  | true => .respond { sub := 10, dev := 12, iat := 0, exp := 600, tok := .access } 13
      { state := "approved", responsePayload := some (some [1]) }

/-- The poll finds the row overdue; before it writes, the phone's answer arrives. -/
def lateAnswer : List (Label Bool Nat) :=
  [false, false, false, false, true, true, true, true, false].map .thread

/-- The row is approved a minute after its expiry, and the poll then turns the
approved row into an expired one. -/
theorem lateAnswer_not_oneShot :
    ¬ OneShot Env.bare pollAndAnswer
      (history Env.bare overdueUnlock (relay pollAndAnswer) lateAnswer) := by
  intro oneShot
  have mem := List.get_mem (history Env.bare overdueUnlock (relay pollAndAnswer) lateAnswer)
    ⟨8, by decide⟩
  have moves : Moves Env.bare 13 ((history Env.bare overdueUnlock (relay pollAndAnswer)
      lateAnswer).get ⟨8, by decide⟩) :=
    ⟨_, _, rfl, rfl, .inl (by decide)⟩
  obtain ⟨u, -, found, -, pending, -⟩ := oneShot.2 _ mem 13 moves
  have approved : (((history Env.bare overdueUnlock (relay pollAndAnswer)
      lateAnswer).get ⟨8, by decide⟩).before.unlockRequests.find? 13).map UnlockRequest.state =
      some .approved := rfl
  rw [found, Option.map_some, pending] at approved
  cases approved

end Sentinel.Api
