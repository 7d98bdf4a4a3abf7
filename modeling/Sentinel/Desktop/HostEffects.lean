import Sentinel.Desktop.NativeHost

/-!
# What the requests of a browser do

A host without a key answers `LOCKED` and does nothing else. A host with a key never answers
`LOCKED`; it writes the vault for a saved login, a new passkey and a counter, each time one
item under its own key.
-/

namespace Sentinel.Desktop

open Vault Atomic

variable {c : HostSuite} {w : World} {vk : Key} {env : NmEnvelope}

/-- The kinds of requests for credentials. -/
def NmType.asksCredential : NmType → Bool
  | vaultSearch | vaultFieldsGet | vaultTotpGet | vaultSaveCandidate | vaultPasskeyRegister
  | vaultPasskeyAssert => true
  | _ => false

/-- The answer is `LOCKED`. -/
def NmEnvelope.IsLocked (reply : NmEnvelope) : Prop := reply.err.map NmError.code = some .locked

instance (reply : NmEnvelope) : Decidable reply.IsLocked := by
  unfold NmEnvelope.IsLocked
  infer_instance

/-- A host without a key answers at once. -/
theorem handle_none (asks : env.kind.asksCredential = true) :
    handle c none env = pure (NmEnvelope.locked env.id) := by
  rw [handle]
  cases kind : env.kind <;> first | rfl | (rw [kind] at asks; cases asks)

/-- How a host with a key ends a request. -/
def Answered (r : Except Failure NmEnvelope) : Prop := ∃ reply, r = .ok reply ∧ ¬ reply.IsLocked

theorem Answered.okReply (id : String) (kind : NmType) (payload : Json) :
    Answered (.ok (okReply id kind payload)) :=
  ⟨_, rfl, nofun⟩

theorem Answered.errorReply (env : NmEnvelope) {code : NmErrorCode} (message : String)
    (other : code ≠ .locked) : Answered (.ok (errorReply env code message)) := by
  refine ⟨_, rfl, ?_⟩
  intro locked
  exact other (Option.some.inj locked)

theorem payloadOf_error {α : Type} {parse : Json → Option α} {reply : NmEnvelope}
    (h : payloadOf parse env = .error reply) : Answered (.ok reply) := by
  unfold payloadOf at h
  cases parsed : parse (env.payload.getD .null) with
  | some req =>
      rw [parsed] at h
      cases h
  | none =>
      rw [parsed] at h
      cases h
      exact Answered.errorReply env _ nofun

/-- The items that `load_items` finds. -/
def opened (c : HostSuite) (vk : Key) (w : World) : List Item :=
  w.vault.listEnvelopes.filterMap fun e => (openItem c.toCrypto vk.bytes e).toOption

theorem loadItems_always :
    (loadItems c vk).Always exec (Still w) (fun _ r w' => w' = w ∧ r = .ok (opened c vk w)) w := by
  rw [loadItems, Routine.always_bind, always_listEnvelopes]
  exact ⟨rfl, rfl, rfl⟩

theorem lookup_always {id : String} :
    (lookup c vk id).Always exec (Still w) (fun _ r w' => w' = w ∧
      ((∃ e, r = .ok (.error e) ∧ e.1 ≠ .locked) ∨ ∃ item, r = .ok (.ok item))) w := by
  rw [lookup]
  cases c.parseUuid id with
  | none => exact ⟨rfl, .inl ⟨_, rfl, by rintro ⟨⟩⟩⟩
  | some uid =>
      simp only [Routine.always_bind, always_vaultGet, Routine.always_andThen_ok]
      refine ⟨rfl, ?_⟩
      cases w.vault.get uid with
      | none => exact ⟨rfl, .inl ⟨_, rfl, by rintro ⟨⟩⟩⟩
      | some stored =>
          refine ⟨rfl, ?_⟩
          cases openItem c.toCrypto vk.bytes stored with
          | error e => exact .inl ⟨_, rfl, by rintro ⟨⟩⟩
          | ok item => exact .inr ⟨item, rfl⟩

theorem itemTotpCode_always {item : Item} :
    (itemTotpCode c item).Always exec (Still w)
      (fun _ r w' => w' = w ∧ ∃ code, r = .ok code) w := by
  rw [itemTotpCode]
  cases item.login.bind Login.totp with
  | none => exact ⟨rfl, _, rfl⟩
  | some uri =>
      simp only
      cases TotpSecret.parse c.toTotpEngine uri with
      | error e => exact ⟨rfl, _, rfl⟩
      | ok secret =>
          simp only [Routine.always_bind]
          refine always_clock fun time _ _ => ⟨rfl, rfl, _, rfl⟩

theorem releasedFields_always {item : Item} {names : List String} {out : List (String × Json)} :
    (releasedFields c item names out).Always exec (Still w)
      (fun _ r w' => w' = w ∧ ∃ fields, r = .ok fields) w := by
  fun_induction releasedFields c item names out with
  | case1 out => exact ⟨rfl, out, rfl⟩
  | case2 rest out ih => exact ih
  | case3 rest out ih => exact ih
  | case4 rest out ih =>
      rw [Routine.always_bind]
      refine itemTotpCode_always.mono (fun _ _ still => still) ?_
      rintro t r w' ⟨rfl, code, rfl⟩
      exact ih code
  | case5 _ _ _ _ _ _ ih => exact ih

theorem fileItem_always {item : Item} {reply : NmEnvelope} (served : Answered (.ok reply)) :
    (fileItem c vk env item reply).Always exec
      (fun _ w' => w' = w ∨ Filed c.toSuite (some vk) item w w')
      (fun _ r w' => (w' = w ∨ Filed c.toSuite (some vk) item w w') ∧ Answered r) w := by
  rw [fileItem, Routine.always_bind]
  refine sessionSeal_always.mono (fun t w' still => .inl still) ?_
  rintro t r w' ⟨rfl, answer, rfl, made⟩
  rw [Routine.always_andThen_ok]
  cases answer with
  | error e => exact ⟨.inl rfl, Answered.errorReply env _ nofun⟩
  | ok stored =>
      obtain ⟨vk', nonce, same, sealed_⟩ := made stored rfl
      simp only [Routine.always_bind]
      refine always_upsert (fun e _ => ⟨.inl rfl, .inl rfl, Answered.errorReply env _ nofun⟩) ?_
      intro vault upserted
      have filed : Filed c.toSuite (some vk) item w' { w' with vault := vault } :=
        ⟨vk', nonce, stored, vault, same, sealed_, upserted, rfl⟩
      exact ⟨.inr filed, .inr filed, served⟩

/-- The item that `save_candidate` stores: a stored login with the new password, or a new one,
with the time of the clock. -/
def Candidate (c : HostSuite) (vk : Key) (env : NmEnvelope) (w : World) (t : Trace)
    (item : Item) : Prop :=
  ∃ req now, payloadOf SaveCandidateRequest.parse env = .ok req ∧ ⟨.clock, now⟩ ∈ t ∧
    -(2 ^ 63) ≤ now ∧ now < 2 ^ 63 ∧
    ((∃ it, candidateOf c (opened c vk w) req = some it ∧ item = candidateUpdated it req now) ∨
      candidateOf c (opened c vk w) req = none ∧ ∃ id, item = candidateCreated id req now)

/-- The item of a new passkey. -/
def NewPasskey (env : NmEnvelope) (t : Trace) (item : Item) : Prop :=
  ∃ req now id pk, payloadOf PasskeyRegisterReq.parse env = .ok req ∧ ⟨.clock, now⟩ ∈ t ∧
    -(2 ^ 63) ≤ now ∧ now < 2 ^ 63 ∧ item = passkeyItem id req pk now

/-- The item of a used passkey: its counter raised, with the time of the clock. -/
def Counted (c : HostSuite) (vk : Key) (env : NmEnvelope) (w : World) (t : Trace)
    (item : Item) : Prop :=
  ∃ req now it pk, payloadOf PasskeyAssertReq.parse env = .ok req ∧ ⟨.clock, now⟩ ∈ t ∧
    -(2 ^ 63) ≤ now ∧ now < 2 ^ 63 ∧ passkeyCandidate (opened c vk w) req = some (it, pk) ∧
    item = { it with passkey := some (countedUp pk), updatedAt := now }

/-- The stages of a request: nothing, or one item written. -/
def Serving (c : HostSuite) (vk : Key) (P : Trace → Item → Prop) (w : World) (t : Trace)
    (w' : World) : Prop :=
  w' = w ∨ ∃ item, P t item ∧ Filed c.toSuite (some vk) item w w'

theorem search_always :
    (search c vk env).Always exec (Still w) (fun _ r w' => w' = w ∧ Answered r) w := by
  rw [search]
  cases parsed : payloadOf VaultSearchRequest.parse env with
  | error reply => exact ⟨rfl, payloadOf_error parsed⟩
  | ok req =>
      simp only [Routine.always_bind]
      refine loadItems_always.mono (fun _ _ still => still) ?_
      rintro t r w' ⟨rfl, rfl⟩
      exact ⟨rfl, Answered.okReply _ _ _⟩

theorem fields_always :
    (fields c vk env).Always exec (Still w) (fun _ r w' => w' = w ∧ Answered r) w := by
  rw [fields]
  cases parsed : payloadOf VaultFieldsGetRequest.parse env with
  | error reply => exact ⟨rfl, payloadOf_error parsed⟩
  | ok req =>
      simp only [Routine.always_bind]
      refine lookup_always.mono (fun _ _ still => still) ?_
      rintro t r w' ⟨rfl, ⟨e, rfl, other⟩ | ⟨item, rfl⟩⟩
      · exact ⟨rfl, Answered.errorReply env _ other⟩
      · rw [Routine.always_andThen_ok]
        dsimp only
        by_cases allowed : originMatches c.parseUrl item.urls req.origin = true
        · rw [if_pos allowed, Routine.always_bind]
          refine releasedFields_always.mono (fun _ _ still => still) ?_
          rintro t' r w'' ⟨rfl, out, rfl⟩
          exact ⟨rfl, Answered.okReply _ _ _⟩
        · rw [if_neg allowed]
          exact ⟨rfl, Answered.errorReply env _ (by rintro ⟨⟩)⟩

theorem totp_always :
    (totp c vk env).Always exec (Still w) (fun _ r w' => w' = w ∧ Answered r) w := by
  rw [totp]
  cases parsed : payloadOf TotpGetRequest.parse env with
  | error reply => exact ⟨rfl, payloadOf_error parsed⟩
  | ok req =>
      simp only [Routine.always_bind]
      refine lookup_always.mono (fun _ _ still => still) ?_
      rintro t r w' ⟨rfl, ⟨e, rfl, other⟩ | ⟨item, rfl⟩⟩
      · exact ⟨rfl, Answered.errorReply env _ other⟩
      · rw [Routine.always_andThen_ok]
        dsimp only
        by_cases allowed : originMatches c.parseUrl item.urls req.origin = true
        · rw [if_pos allowed, Routine.always_bind]
          refine itemTotpCode_always.mono (fun _ _ still => still) ?_
          rintro t' r w'' ⟨rfl, code, rfl⟩
          cases code with
          | none => exact ⟨rfl, Answered.errorReply env _ (by rintro ⟨⟩)⟩
          | some digits => exact ⟨rfl, Answered.okReply _ _ _⟩
        · rw [if_neg allowed]
          exact ⟨rfl, Answered.errorReply env _ (by rintro ⟨⟩)⟩

theorem generate_always {id : String} :
    (generate c id).Always exec (Still w) (fun _ _ w' => w' = w) w := by
  rw [generate, Routine.always_bind]
  refine always_random fun drawn => ⟨rfl, ?_⟩
  rw [Routine.always_andThen_ok]
  cases c.generatorPassword drawn.1 with
  | none => rfl
  | some password => rfl

/-- Drawing an id changes nothing. -/
theorem newUuid_always : newUuid.Always exec (Still w) (fun _ r w' => w' = w ∧ ∃ id, r = .ok id) w := by
  rw [newUuid, Routine.always_bind]
  exact always_random fun drawn => ⟨rfl, rfl, _, rfl⟩

theorem saveCandidate_always :
    (saveCandidate c vk env).Always exec (Serving c vk (Candidate c vk env w) w)
      (fun t r w' => Serving c vk (Candidate c vk env w) w t w' ∧ Answered r) w := by
  rw [saveCandidate]
  cases parsed : payloadOf SaveCandidateRequest.parse env with
  | error reply => exact ⟨.inl rfl, payloadOf_error parsed⟩
  | ok req =>
      simp only
      by_cases empty : req.password = ""
      · rw [if_pos empty]
        exact ⟨.inl rfl, Answered.errorReply env _ nofun⟩
      rw [if_neg empty, Routine.always_bind]
      refine always_clock fun now low high => ⟨.inl rfl, ?_⟩
      rw [Routine.always_andThen_ok, Routine.always_bind]
      refine loadItems_always.mono (fun _ _ still => .inl still) ?_
      rintro t r w' ⟨rfl, rfl⟩
      rw [Routine.always_andThen_ok]
      have stage : ∀ {item : Item},
          ((∃ it, candidateOf c (opened c vk w') req = some it ∧
              item = candidateUpdated it req now) ∨
            candidateOf c (opened c vk w') req = none ∧ ∃ id, item = candidateCreated id req now) →
          ∀ (t' : Trace) (w'' : World), (w'' = w' ∨ Filed c.toSuite (some vk) item w' w'') →
          Serving c vk (Candidate c vk env w') w' (⟨.clock, now⟩ :: t') w'' := by
        rintro item shape t' w'' (rfl | filed)
        · exact .inl rfl
        · exact .inr ⟨item, ⟨req, now, parsed, List.mem_cons_self, low, high, shape⟩, filed⟩
      cases found : candidateOf c (opened c vk w') req with
      | some it =>
          simp only
          by_cases same : itemPassword it = some req.password
          · rw [if_pos same]
            exact ⟨.inl rfl, Answered.okReply _ _ _⟩
          · rw [if_neg same]
            have shape := stage (.inl ⟨it, found, rfl⟩)
            refine (fileItem_always (Answered.okReply _ _ _)).mono ?_ ?_
            · intro t' w'' written
              exact shape _ _ written
            · rintro t' r w'' ⟨written, answered⟩
              exact ⟨shape _ _ written, answered⟩
      | none =>
          simp only [Routine.always_bind]
          refine newUuid_always.mono (fun _ _ still => .inl still) ?_
          rintro t' r w'' ⟨rfl, id, rfl⟩
          have shape := stage (.inr ⟨found, id, rfl⟩)
          rw [Routine.always_andThen_ok]
          refine (fileItem_always (Answered.okReply _ _ _)).mono ?_ ?_
          · intro t'' w'' written
            exact shape _ _ written
          · rintro t'' r w'' ⟨written, answered⟩
            exact ⟨shape _ _ written, answered⟩

theorem passkeyRegister_always :
    (passkeyRegister c vk env).Always exec (Serving c vk (NewPasskey env) w)
      (fun t r w' => Serving c vk (NewPasskey env) w t w' ∧ Answered r) w := by
  rw [passkeyRegister]
  cases parsed : payloadOf PasskeyRegisterReq.parse env with
  | error reply => exact ⟨.inl rfl, payloadOf_error parsed⟩
  | ok req =>
      simp only
      cases rpIdMatchesOrigin req.rpId req.origin with
      | false => exact ⟨.inl rfl, Answered.errorReply env _ (by rintro ⟨⟩)⟩
      | true =>
          rw [if_pos rfl]
          cases c.urlSafeDecode req.userHandleB64u with
          | none => exact ⟨.inl rfl, Answered.errorReply env _ (by rintro ⟨⟩)⟩
          | some userHandle =>
              simp only [Routine.always_bind]
              refine always_random fun scalar => ⟨.inl rfl, ?_⟩
              rw [Routine.always_andThen_ok, Routine.always_bind]
              refine always_random fun credential => ⟨.inl rfl, ?_⟩
              rw [Routine.always_andThen_ok]
              generalize mintPasskey c req userHandle scalar.1 credential.1 = pk
              cases c.registrationAttestation pk with
              | error e => exact ⟨.inl rfl, Answered.errorReply env _ (by rintro ⟨⟩)⟩
              | ok made =>
                  obtain ⟨authData, attestation⟩ := made
                  simp only [Routine.always_bind]
                  refine always_clock fun now low high => ⟨.inl rfl, ?_⟩
                  rw [Routine.always_andThen_ok, Routine.always_bind]
                  refine newUuid_always.mono (fun _ _ still => .inl still) ?_
                  rintro t r w' ⟨rfl, id, rfl⟩
                  rw [Routine.always_andThen_ok]
                  have stage : ∀ (before : Trace) {after : Trace} {w'' : World},
                      (w'' = w' ∨ Filed c.toSuite (some vk) (passkeyItem id req pk now) w' w'') →
                      Serving c vk (NewPasskey env) w' (before ++ ⟨.clock, now⟩ :: after) w'' := by
                    rintro before after w'' (rfl | filed)
                    · exact .inl rfl
                    · exact .inr ⟨_, ⟨req, now, id, pk, parsed, by simp, low, high, rfl⟩, filed⟩
                  refine (fileItem_always (Answered.okReply _ _ _)).mono ?_ ?_
                  · intro t' w'' written
                    exact stage [⟨.random 32, scalar⟩, ⟨.random 16, credential⟩] written
                  · rintro t' r w'' ⟨written, answered⟩
                    exact ⟨stage [⟨.random 32, scalar⟩, ⟨.random 16, credential⟩] written, answered⟩

theorem persistCounter_always {item : Item} :
    (persistCounter c vk item).Always exec
      (fun _ w' => w' = w ∨ Filed c.toSuite (some vk) item w w')
      (fun _ r w' => (w' = w ∨ Filed c.toSuite (some vk) item w w') ∧ r = .ok ()) w := by
  rw [persistCounter, Routine.always_bind]
  refine sessionSeal_always.mono (fun t w' still => .inl still) ?_
  rintro t r w' ⟨rfl, answer, rfl, made⟩
  rw [Routine.always_andThen_ok]
  cases answer with
  | error e => exact ⟨.inl rfl, rfl⟩
  | ok stored =>
      obtain ⟨vk', nonce, same, sealed_⟩ := made stored rfl
      simp only [Routine.always_bind]
      refine always_upsert (fun e _ => ⟨.inl rfl, .inl rfl, rfl⟩) ?_
      intro vault upserted
      have filed : Filed c.toSuite (some vk) item w' { w' with vault := vault } :=
        ⟨vk', nonce, stored, vault, same, sealed_, upserted, rfl⟩
      exact ⟨.inr filed, .inr filed, rfl⟩

theorem passkeyAssert_always :
    (passkeyAssert c vk env).Always exec (Serving c vk (Counted c vk env w) w)
      (fun t r w' => Serving c vk (Counted c vk env w) w t w' ∧ Answered r) w := by
  rw [passkeyAssert]
  cases parsed : payloadOf PasskeyAssertReq.parse env with
  | error reply => exact ⟨.inl rfl, payloadOf_error parsed⟩
  | ok req =>
      simp only
      cases rpIdMatchesOrigin req.rpId req.origin with
      | false => exact ⟨.inl rfl, Answered.errorReply env _ nofun⟩
      | true =>
          rw [if_pos rfl, Routine.always_bind]
          refine loadItems_always.mono (fun _ _ still => .inl still) ?_
          rintro t r w' ⟨rfl, rfl⟩
          rw [Routine.always_andThen_ok]
          cases found : passkeyCandidate (opened c vk w') req with
          | none => exact ⟨.inl rfl, Answered.errorReply env _ nofun⟩
          | some candidate =>
              obtain ⟨it, pk⟩ := candidate
              dsimp only
              cases c.assertion (countedUp pk) (countedUp pk).signCount
                  (Api.utf8 req.clientDataJson) with
              | error e => exact ⟨.inl rfl, Answered.errorReply env _ nofun⟩
              | ok made =>
                  obtain ⟨authData, signature⟩ := made
                  dsimp only
                  rw [Routine.always_bind]
                  refine always_clock fun now low high => ⟨.inl rfl, ?_⟩
                  rw [Routine.always_andThen_ok, Routine.always_bind]
                  have stage : ∀ (before : Trace) {after : Trace} {w'' : World},
                      (w'' = w' ∨ Filed c.toSuite (some vk)
                        { it with passkey := some (countedUp pk), updatedAt := now } w' w'') →
                      Serving c vk (Counted c vk env w') w' (before ++ ⟨.clock, now⟩ :: after)
                        w'' := by
                    rintro before after w'' (rfl | filed)
                    · exact .inl rfl
                    · exact .inr ⟨_, ⟨req, now, it, pk, parsed, by simp, low, high, found, rfl⟩, filed⟩
                  refine persistCounter_always.mono ?_ ?_
                  · intro t' w'' written
                    exact stage t written
                  · rintro t' r w'' ⟨written, rfl⟩
                    exact ⟨stage t written, Answered.okReply _ _ _⟩

/-- What a host with a key does: it writes at most one item, under its key, and answers a
request for credentials otherwise than with `LOCKED`. -/
theorem handle_some_always :
    (handle c (some vk) env).Always exec (Serving c vk (fun _ _ => True) w)
      (fun t r w' => Serving c vk (fun _ _ => True) w t w' ∧
        (env.kind.asksCredential = true → Answered r)) w := by
  have weaken : ∀ {P : Trace → Item → Prop} {t : Trace} {w' : World}, Serving c vk P w t w' →
      Serving c vk (fun _ _ => True) w t w' := by
    rintro P t w' (rfl | ⟨item, -, filed⟩)
    · exact .inl rfl
    · exact .inr ⟨item, trivial, filed⟩
  rw [handle]
  cases env.kind with
  | hello | statusSubscribe | statusEvent | lockEvent => exact ⟨.inl rfl, nofun⟩
  | vaultSearch =>
      exact search_always.mono (fun _ _ still => .inl still) fun _ _ _ h => ⟨.inl h.1, fun _ => h.2⟩
  | vaultFieldsGet =>
      exact fields_always.mono (fun _ _ still => .inl still) fun _ _ _ h => ⟨.inl h.1, fun _ => h.2⟩
  | vaultTotpGet =>
      exact totp_always.mono (fun _ _ still => .inl still) fun _ _ _ h => ⟨.inl h.1, fun _ => h.2⟩
  | vaultGenerate =>
      exact generate_always.mono (fun _ _ still => .inl still) fun _ _ _ h => ⟨.inl h, nofun⟩
  | vaultSaveCandidate =>
      exact saveCandidate_always.mono (fun _ _ => weaken) fun _ _ _ h => ⟨weaken h.1, fun _ => h.2⟩
  | vaultPasskeyRegister =>
      exact passkeyRegister_always.mono (fun _ _ => weaken) fun _ _ _ h => ⟨weaken h.1, fun _ => h.2⟩
  | vaultPasskeyAssert =>
      exact passkeyAssert_always.mono (fun _ _ => weaken) fun _ _ _ h => ⟨weaken h.1, fun _ => h.2⟩

/-- Whatever a host without a key is asked, it writes nothing. -/
theorem handle_none_always :
    (handle c none env).Always exec (Still w) (fun _ _ w' => w' = w) w := by
  rw [handle]
  cases env.kind with
  | vaultGenerate => exact generate_always
  | _ => rfl

end Sentinel.Desktop
