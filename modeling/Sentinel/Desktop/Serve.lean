import Sentinel.Desktop.Runs
import Sentinel.Lib.Codec
import Sentinel.Lib.Framing
import Sentinel.Vault.Bundle

/-!
# Frames of the native-messaging host

`crates/core/src/nm/framing.rs` and the loop `serve` of `nmhost.rs`: a frame is the length of a
JSON text in four bytes and the text. The loop is `Framing.serve` over `decodeFrame`, with
`answer` for a frame: handle its envelope, then write the frame of the reply.

The serializer is a parameter. What the environment decides about the requests, the writes and
the end of the stream is a `Pipe`; a chunk without bytes is the end of the stream.
-/

namespace Sentinel.Desktop

open Vault Wire Atomic

/-! ## Frames -/

/-- `serde_json` on envelopes: `to_vec` and `from_slice`. -/
structure SerdeJson where
  toVec : NmEnvelope → Bytes
  fromSlice : Bytes → Option NmEnvelope
  /-- what `from_slice` reads where `to_vec` wrote a float, unless it is out of range: without
  the feature `float_roundtrip` it may be a neighbour -/
  floatBack : FiniteFloat → Option FiniteFloat

/-- `MAX_MESSAGE_BYTES`. -/
def maxMessageBytes : Nat := 1024 * 1024

inductive FrameError where
  | incomplete
  | tooLarge (len : Nat)
  | malformed
  deriving DecidableEq, Repr

section Frames

variable (j : SerdeJson)

/-- A text behind its length. -/
def frameOf (body : Bytes) : Bytes := leBytes 4 body.length ++ body

/-- `encode_frame`. -/
def encodeFrame (env : NmEnvelope) : Bytes := frameOf (j.toVec env)

/-- `decode_frame`. -/
def decodeFrame (buf : Bytes) : Checked FrameError (NmEnvelope × Nat) := do
  Checked.require (decide (4 ≤ buf.length)) .incomplete
  let len := leNat (← Checked.slice buf 0 4)
  Checked.require (decide (len ≤ maxMessageBytes)) (.tooLarge len)
  Checked.require (decide (4 + len ≤ buf.length)) .incomplete
  let body ← Checked.slice buf 4 len
  let env ← Checked.ofOption .malformed (j.fromSlice body)
  pure (env, 4 + len)

theorem decodeFrame_eq (buf : Bytes) : decodeFrame j buf =
    if 4 ≤ buf.length then
      if leNat (buf.take 4) ≤ maxMessageBytes then
        if 4 + leNat (buf.take 4) ≤ buf.length then
          match j.fromSlice ((buf.drop 4).take (leNat (buf.take 4))) with
          | some env => .ok (env, 4 + leNat (buf.take 4))
          | none => .err .malformed
        else .err .incomplete
      else .err (.tooLarge (leNat (buf.take 4)))
    else .err .incomplete := by
  rw [decodeFrame]
  by_cases long : 4 ≤ buf.length
  · rw [decide_eq_true long, if_pos long, Checked.slice_eq (show 0 + 4 ≤ _ from long),
      List.drop_zero]
    simp only [Checked.require_true, Checked.ok_bind]
    by_cases small : leNat (buf.take 4) ≤ maxMessageBytes
    · rw [decide_eq_true small, if_pos small]
      by_cases whole : 4 + leNat (buf.take 4) ≤ buf.length
      · rw [decide_eq_true whole, if_pos whole, Checked.slice_eq whole]
        simp only [Checked.require_true, Checked.ok_bind]
        cases j.fromSlice ((buf.drop 4).take (leNat (buf.take 4))) <;> rfl
      · rw [decide_eq_false whole, if_neg whole]
        rfl
    · rw [decide_eq_false small, if_neg small]
      rfl
  · rw [decide_eq_false long, if_neg long]
    rfl

theorem decodeFrame_ne_trap (buf : Bytes) : decodeFrame j buf ≠ .trap := by
  rw [decodeFrame_eq]
  split_ifs
  · cases j.fromSlice ((buf.drop 4).take (leNat (buf.take 4))) <;> simp
  all_goals simp

/-- What stands at the front of a buffer that decodes: a text of at most a mebibyte behind its
length. -/
theorem decodeFrame_ok_iff {buf : Bytes} {env : NmEnvelope} {n : Nat} :
    decodeFrame j buf = .ok (env, n) ↔ ∃ body rest, buf = frameOf body ++ rest ∧
      body.length ≤ maxMessageBytes ∧ j.fromSlice body = some env ∧ n = 4 + body.length := by
  constructor
  · intro decoded
    rw [decodeFrame_eq] at decoded
    split_ifs at decoded with long small whole
    have length : ((buf.drop 4).take (leNat (buf.take 4))).length = leNat (buf.take 4) := by
      rw [List.length_take, List.length_drop]
      omega
    have four : (buf.take 4).length = 4 := List.length_take_of_le long
    have counted : leBytes 4 (leNat (buf.take 4)) = buf.take 4 := by
      have back := leBytes_leNat (buf.take 4)
      rwa [four] at back
    refine ⟨(buf.drop 4).take (leNat (buf.take 4)), (buf.drop 4).drop (leNat (buf.take 4)), ?_, ?_,
      ?_⟩
    · rw [frameOf, length, counted, List.append_assoc, List.take_append_drop,
        List.take_append_drop]
    · rw [length]
      exact small
    · rw [length]
      cases read : j.fromSlice ((buf.drop 4).take (leNat (buf.take 4))) with
      | none =>
          rw [read] at decoded
          cases decoded
      | some env' =>
          rw [read] at decoded
          cases decoded
          exact ⟨rfl, rfl⟩
  · rintro ⟨body, rest, rfl, small, read, rfl⟩
    have four : (leBytes 4 body.length).length = 4 := length_leBytes 4 _
    have count : leNat ((frameOf body ++ rest).take 4) = body.length := by
      rw [frameOf, List.append_assoc, List.take_left' four, leNat_leBytes]
      refine Nat.mod_eq_of_lt (lt_of_le_of_lt small ?_)
      decide
    have inside : ((frameOf body ++ rest).drop 4).take body.length = body := by
      rw [frameOf, List.append_assoc, List.drop_left' four, List.take_left]
    have length : (frameOf body ++ rest).length = 4 + body.length + rest.length := by
      rw [frameOf, List.length_append, List.length_append, four]
    rw [decodeFrame_eq, count, if_pos (by omega), if_pos small, if_pos (by omega), inside, read]

/-- More input does not change an answer, other than that a frame is incomplete. -/
theorem decodeFrame_append {buf : Bytes} (decided : decodeFrame j buf ≠ .err .incomplete)
    (more : Bytes) : decodeFrame j (buf ++ more) = decodeFrame j buf := by
  rw [decodeFrame_eq j buf] at decided ⊢
  split_ifs at decided ⊢ with long small whole
  · have front : (buf ++ more).take 4 = buf.take 4 := List.take_append_of_le_length long
    have body : ((buf ++ more).drop 4).take (leNat (buf.take 4)) =
        (buf.drop 4).take (leNat (buf.take 4)) := by
      rw [List.drop_append_of_le_length long, List.take_append_of_le_length]
      rw [List.length_drop]
      omega
    have length : (buf ++ more).length = buf.length + more.length := List.length_append
    rw [decodeFrame_eq, front, body, if_pos (by omega), if_pos small, if_pos (by omega)]
  · exact absurd rfl decided
  · have front : (buf ++ more).take 4 = buf.take 4 := List.take_append_of_le_length long
    have length : (buf ++ more).length = buf.length + more.length := List.length_append
    rw [decodeFrame_eq, front, if_pos (by omega), if_neg small]
  · exact absurd rfl decided

/-- What ends the loop. -/
inductive Stop where
  | rejected (e : FrameError)
  | trapped

/-- What the loop does about the outcome of `decode_frame`. -/
def verdict : Checked FrameError (NmEnvelope × Nat) → Framing.Verdict NmEnvelope Stop
  | .ok (env, n) => .frame env n
  | .err .incomplete => .incomplete
  | .err e => .stop (.rejected e)
  | .trap => .stop .trapped

theorem verdict_frame_iff {r : Checked FrameError (NmEnvelope × Nat)} {env : NmEnvelope} {n : Nat} :
    verdict r = .frame env n ↔ r = .ok (env, n) := by
  cases r with
  | ok r => simp [verdict, Prod.ext_iff]
  | err e => cases e <;> simp [verdict]
  | trap => simp [verdict]

theorem verdict_ne_trapped {r : Checked FrameError (NmEnvelope × Nat)} (whole : r ≠ .trap) :
    verdict r ≠ .stop .trapped := by
  cases r with
  | ok r => simp [verdict]
  | err e => cases e <;> simp [verdict]
  | trap => exact absurd rfl whole

def frameDecoder : Framing.Decoder UInt8 NmEnvelope Stop where
  next b := verdict (decodeFrame j b)
  pos_of_frame := by
    intro b env n front
    obtain ⟨body, rest, -, -, -, rfl⟩ := (decodeFrame_ok_iff j).mp (verdict_frame_iff.mp front)
    omega
  le_of_frame := by
    intro b env n front
    obtain ⟨body, rest, rfl, -, -, rfl⟩ := (decodeFrame_ok_iff j).mp (verdict_frame_iff.mp front)
    rw [frameOf, List.length_append, List.length_append, length_leBytes]
    omega
  frame_append := by
    intro b env n front more
    rw [decodeFrame_append]
    · exact front
    · intro incomplete
      rw [incomplete] at front
      cases front
  stop_append := by
    intro b r front more
    rw [decodeFrame_append]
    · exact front
    · intro incomplete
      rw [incomplete] at front
      cases front

theorem next_frame_iff {b : Bytes} {env : NmEnvelope} {n : Nat} :
    (frameDecoder j).next b = .frame env n ↔ decodeFrame j b = .ok (env, n) := verdict_frame_iff

/-- The envelopes of the frames at the front of a stream, and what stands behind them. -/
def frames (stream : Bytes) : List NmEnvelope × Bytes := Framing.split (frameDecoder j) stream

/-- The frames of a stream are texts of at most a mebibyte behind their lengths, one after
another, and no frame stands behind them. -/
theorem frames_spec (stream : Bytes) : ∃ bodies : List Bytes,
    stream = bodies.flatMap frameOf ++ (frames j stream).2 ∧
      bodies.map j.fromSlice = (frames j stream).1.map some ∧
      (∀ body ∈ bodies, body.length ≤ maxMessageBytes) ∧
      ∀ env n, decodeFrame j (frames j stream).2 ≠ .ok (env, n) := by
  induction length : stream.length using Nat.strong_induction_on generalizing stream with
  | _ n ih =>
    subst length
    by_cases front : ∃ env n, decodeFrame j stream = .ok (env, n)
    · obtain ⟨env, n, decoded⟩ := front
      have next := (next_frame_iff j).mpr decoded
      obtain ⟨bodies, rest, read, small, last⟩ :=
        ih _ (Framing.length_drop_lt (frameDecoder j) next) (stream.drop n) rfl
      have step : frames j stream =
          (env :: (frames j (stream.drop n)).1, (frames j (stream.drop n)).2) :=
        Framing.split_frame (frameDecoder j) next
      obtain ⟨body, more, whole, fits, value, rfl⟩ := (decodeFrame_ok_iff j).mp decoded
      have behind : stream.drop (4 + body.length) = more := by
        rw [whole]
        refine List.drop_left' ?_
        rw [frameOf, List.length_append, length_leBytes]
      rw [step]
      refine ⟨body :: bodies, ?_, ?_, List.forall_mem_cons.mpr ⟨fits, small⟩, last⟩
      · rw [List.flatMap_cons, List.append_assoc, ← rest, behind]
        exact whole
      · rw [List.map_cons, List.map_cons, value, read]
    · have none_ : ∀ env n, decodeFrame j stream ≠ .ok (env, n) := fun env n decoded =>
        front ⟨env, n, decoded⟩
      have step : frames j stream = ([], stream) :=
        Framing.split_of_not_frame (frameDecoder j) fun env n next =>
          none_ env n ((next_frame_iff j).mp next)
      rw [step]
      exact ⟨[], rfl, rfl, List.forall_mem_nil _, none_⟩

theorem frames_frameOf {body : Bytes} {env : NmEnvelope} (small : body.length ≤ maxMessageBytes)
    (read : j.fromSlice body = some env) (rest : Bytes) :
    frames j (frameOf body ++ rest) = (env :: (frames j rest).1, (frames j rest).2) := by
  have decoded : decodeFrame j (frameOf body ++ rest) = .ok (env, 4 + body.length) :=
    (decodeFrame_ok_iff j).mpr ⟨body, rest, rfl, small, read, rfl⟩
  have behind : (frameOf body ++ rest).drop (4 + body.length) = rest := by
    refine List.drop_left' ?_
    rw [frameOf, List.length_append, length_leBytes]
  have step := Framing.split_frame (frameDecoder j) ((next_frame_iff j).mpr decoded)
  rw [behind] at step
  exact step

theorem frames_nil : frames j [] = ([], []) := by
  refine Framing.split_of_not_frame (frameDecoder j) fun env n front => ?_
  have within := (frameDecoder j).le_of_frame front
  exact absurd within (Nat.not_le.mpr ((frameDecoder j).pos_of_frame front))

end Frames

/-! ## Envelopes that are read back -/

mutual

/-- How deep a value nests. -/
def Json.nesting : Json → Nat
  | .array values => Json.nestings values + 1
  | .object fields => Json.fieldNestings fields + 1
  | _ => 0

def Json.nestings : List Json → Nat
  | [] => 0
  | v :: values => max v.nesting (Json.nestings values)

def Json.fieldNestings : List (String × Json) → Nat
  | [] => 0
  | (_, v) :: fields => max v.nesting (Json.fieldNestings fields)

end

mutual

/-- The floats of a value. -/
def Json.floats : Json → List FiniteFloat
  | .number (.float x) => [x]
  | .array values => Json.floatsOf values
  | .object fields => Json.fieldFloats fields
  | _ => []

def Json.floatsOf : List Json → List FiniteFloat
  | [] => []
  | v :: values => v.floats ++ Json.floatsOf values

def Json.fieldFloats : List (String × Json) → List FiniteFloat
  | [] => []
  | (_, v) :: fields => v.floats ++ Json.fieldFloats fields

end

section Reread

variable (back : FiniteFloat → Option FiniteFloat)

mutual

/-- A value as its text is read: each float is what its digits are taken for. -/
def Json.reread : Json → Option Json
  | .number (.float x) => (back x).map fun y => .number (.float y)
  | .array values => (Json.rereadAll values).map .array
  | .object fields => (Json.rereadFields fields).map .object
  | v => some v

def Json.rereadAll : List Json → Option (List Json)
  | [] => some []
  | v :: values => do
      let v' ← v.reread
      pure (v' :: (← Json.rereadAll values))

def Json.rereadFields : List (String × Json) → Option (List (String × Json))
  | [] => some []
  | (name, v) :: fields => do
      let v' ← v.reread
      pure ((name, v') :: (← Json.rereadFields fields))

end

mutual

/-- A value is read back as it was just if each of its floats is. -/
theorem Json.reread_eq_iff (v : Json) :
    v.reread back = some v ↔ ∀ x ∈ v.floats, back x = some x := by
  cases v with
  | number n => cases n <;> simp [Json.reread, Json.floats]
  | array values => simpa [Json.reread, Json.floats] using Json.rereadAll_eq_iff values
  | object fields => simpa [Json.reread, Json.floats] using Json.rereadFields_eq_iff fields
  | _ => simp [Json.reread, Json.floats]

theorem Json.rereadAll_eq_iff (values : List Json) :
    Json.rereadAll back values = some values ↔ ∀ x ∈ Json.floatsOf values, back x = some x := by
  cases values with
  | nil => simp [Json.rereadAll, Json.floatsOf]
  | cons v values =>
      rw [Json.floatsOf, List.forall_mem_append, ← Json.reread_eq_iff v,
        ← Json.rereadAll_eq_iff values]
      simp [Json.rereadAll, Option.bind_eq_some_iff]

theorem Json.rereadFields_eq_iff (fields : List (String × Json)) :
    Json.rereadFields back fields = some fields ↔
      ∀ x ∈ Json.fieldFloats fields, back x = some x := by
  cases fields with
  | nil => simp [Json.rereadFields, Json.fieldFloats]
  | cons field fields =>
      obtain ⟨name, v⟩ := field
      rw [Json.fieldFloats, List.forall_mem_append, ← Json.reread_eq_iff v,
        ← Json.rereadFields_eq_iff fields]
      simp [Json.rereadFields, Option.bind_eq_some_iff]

end

end Reread

/-- The objects of an envelope count too: its own, and the one of an error. -/
def NmEnvelope.nesting (env : NmEnvelope) : Nat :=
  1 + max ((env.payload.map Json.nesting).getD 0) (if env.err.isSome then 1 else 0)

/-- How deep `from_slice` reads. -/
def recursionLimit : Nat := 127

/-- The floats of the payload. -/
def NmEnvelope.floats (env : NmEnvelope) : List FiniteFloat :=
  (env.payload.map Json.floats).getD []

/-- An envelope as its text is read: an explicit `null` is an absent payload. -/
def NmEnvelope.reread (back : FiniteFloat → Option FiniteFloat) (env : NmEnvelope) :
    Option NmEnvelope :=
  match env.payload with
  | none => some env
  | some .null => some { env with payload := none }
  | some v => (v.reread back).map fun v' => { env with payload := some v' }

/-- What `from_slice` makes of what `to_vec` writes. -/
def SerdeJson.ReadsBack (j : SerdeJson) (env : NmEnvelope) : Prop :=
  j.fromSlice (j.toVec env) =
    if env.nesting ≤ recursionLimit then env.reread j.floatBack else none

theorem NmEnvelope.reread_eq_iff (back : FiniteFloat → Option FiniteFloat) (env : NmEnvelope) :
    env.reread back = some env ↔
      env.payload ≠ some .null ∧ ∀ x ∈ env.floats, back x = some x := by
  obtain ⟨id, kind, ok, payload, err⟩ := env
  cases payload with
  | none => simp [NmEnvelope.reread, NmEnvelope.floats]
  | some v =>
      have value := Json.reread_eq_iff back v
      cases v with
      | null => simp [NmEnvelope.reread]
      | _ => simpa [NmEnvelope.reread, NmEnvelope.floats] using value

/-- A frame that is at most a mebibyte is read back, whatever follows, just if its envelope is. -/
theorem decode_encodeFrame_iff {j : SerdeJson} {env : NmEnvelope} (reads : j.ReadsBack env)
    (small : (j.toVec env).length ≤ maxMessageBytes) (rest : Bytes) :
    decodeFrame j (encodeFrame j env ++ rest) = .ok (env, (encodeFrame j env).length) ↔
      env.payload ≠ some .null ∧ env.nesting ≤ recursionLimit ∧
        ∀ x ∈ env.floats, j.floatBack x = some x := by
  have length : (encodeFrame j env).length = 4 + (j.toVec env).length := by
    rw [encodeFrame, frameOf, List.length_append, length_leBytes]
  have back : j.fromSlice (j.toVec env) = some env ↔
      env.payload ≠ some .null ∧ env.nesting ≤ recursionLimit ∧
        ∀ x ∈ env.floats, j.floatBack x = some x := by
    rw [reads]
    by_cases shallow : env.nesting ≤ recursionLimit
    · rw [if_pos shallow, NmEnvelope.reread_eq_iff, eq_true shallow, true_and]
    · rw [if_neg shallow]
      simp [shallow]
  rw [← back, length]
  constructor
  · intro decoded
    obtain ⟨body, more, eq, -, value, same⟩ := (decodeFrame_ok_iff j).mp decoded
    have lengths : body.length = (j.toVec env).length := by omega
    rw [encodeFrame, frameOf, frameOf, lengths, List.append_assoc, List.append_assoc,
      List.append_cancel_left_eq] at eq
    rw [(List.append_inj eq lengths.symm).1]
    exact value
  · intro value
    exact (decodeFrame_ok_iff j).mpr ⟨j.toVec env, rest, rfl, small, value, rfl⟩

/-! ## Codes that cannot be computed -/

section Codes

variable (c : HostSuite)

/-- The item of an id that a request from an origin may read. -/
def readable (vk : Key) (vault : LocalVault) (id origin : String) : Option Item := do
  let uid ← c.parseUuid id
  let stored ← vault.get uid
  let item ← (openItem c.toCrypto vk.bytes stored).toOption
  if originMatches c.parseUrl item.urls origin then some item else none

/-- The item whose one-time code a request asks for. -/
def codeItem (vk : Key) (vault : LocalVault) (env : NmEnvelope) : Option Item :=
  match env.kind with
  | .vaultTotpGet => do
      let req ← (payloadOf TotpGetRequest.parse env).toOption
      readable c vk vault req.id req.origin
  | .vaultFieldsGet => do
      let req ← (payloadOf VaultFieldsGetRequest.parse env).toOption
      if "totp" ∈ req.fields then readable c vk vault req.id req.origin else none
  | _ => none

/-- The request makes `code_at` panic: its item has a secret with a period of zero, or with more
digits than the power of ten can take. -/
def codePanics (overflowChecks : Bool) (host : Option Key) (w : World) (env : NmEnvelope) : Bool :=
  ((host.bind fun vk => codeItem c vk w.vault env).bind fun item => item.login.bind Login.totp).any
    fun uri => match TotpSecret.parse c.toTotpEngine uri with
      | .ok secret => secret.codePanics overflowChecks
      | .error _ => false

end Codes

/-! ## The loop -/

/-- What the environment decides: the outcomes that the calls of each request meet, whether a
reply can be written, and whether the stream ends in an error. -/
structure Pipe where
  calls : Nat → List Outcome
  writes : Nat → Bool
  readFails : Bool

/-- The computer, how many requests were handled, and the frames written. -/
structure Port where
  world : World
  handled : Nat
  output : List Bytes

/-- How the loop ends: with `Ok(())`, with an error of the pipe, in a panic, or with the process
killed in the middle of a request. -/
inductive Ending where
  | finished | failed | panicked | killed
  deriving DecidableEq, Repr

section Loop

variable (c : HostSuite) (j : SerdeJson) (overflowChecks : Bool) (host : Option Key) (pipe : Pipe)

/-- The body of the loop for a frame. -/
def answer (env : NmEnvelope) (s : Port) : Except (Ending × Port) Port :=
  if codePanics c overflowChecks host s.world env then .error (.panicked, s)
  else
    let passage := observe (handle c host env) (pipe.calls s.handled) s.world
    let s' : Port := { s with world := passage.world, handled := s.handled + 1 }
    match passage.answer with
    | some (.ok reply) =>
        if pipe.writes s.handled then .ok { s' with output := s.output ++ [encodeFrame j reply] }
        else .error (.failed, s')
    | some (.error _) => .error (.panicked, s')
    | none => .error (.killed, s')

/-- Where the loop returns without reading on. -/
def stopped : Stop → Port → Ending × Port
  | .rejected _, s => (.finished, s)
  | .trapped, s => (.panicked, s)

/-- The end of the stream. -/
def ended (reads : List Bytes) (s : Port) : Ending × Port :=
  if pipe.readFails && reads.all fun chunk => chunk ≠ [] then (.failed, s) else (.finished, s)

/-- `serve`, on what its reads return. -/
def serve (reads : List Bytes) (s : Port) : Ending × Port :=
  Framing.serve (frameDecoder j) (answer c j overflowChecks host pipe) stopped (ended pipe reads) []
    (reads.takeWhile fun chunk => chunk ≠ []) s

/-- The frames, one after another. -/
def answerAll (envs : List NmEnvelope) (s : Port) : Except (Ending × Port) Port :=
  envs.foldlM (fun s env => answer c j overflowChecks host pipe env s) s

/-- How the loop ends behind the last frame. -/
def endOf (rest : Bytes) (s : Port) : Ending × Port :=
  match (frameDecoder j).next rest with
  | .stop _ => (.finished, s)
  | _ => (if pipe.readFails then .failed else .finished, s)

variable {c j overflowChecks host pipe}

/-- Every handler ends with a reply. -/
theorem handle_replies {env : NmEnvelope} {os : List Outcome} {w : World}
    {r : Except Failure NmEnvelope} (answered : (observe (handle c host env) os w).answer = some r) :
    ∃ reply, r = .ok reply := by
  have spec : (handle c host env).Always exec (fun _ _ => True)
      (fun _ r _ => ∃ reply, r = .ok reply) w := by
    by_cases asks : env.kind.asksCredential = true
    · cases host with
      | none =>
          rw [handle_none asks]
          exact ⟨_, rfl⟩
      | some vk =>
          refine handle_some_always.mono (fun _ _ _ => trivial) ?_
          rintro t r w' ⟨-, replied⟩
          obtain ⟨reply, rfl, -⟩ := replied asks
          exact ⟨reply, rfl⟩
    · rw [handle]
      cases kind : env.kind with
      | vaultGenerate =>
          rw [generate, Routine.always_bind, always_sys]
          intro o
          refine ⟨trivial, ?_⟩
          rw [Routine.always_andThen_ok]
          cases c.generatorPassword (exec (.random 20) o w).1.1 with
          | some password => exact ⟨_, rfl⟩
          | none => exact ⟨_, rfl⟩
      | hello | statusSubscribe | statusEvent | lockEvent => exact ⟨_, rfl⟩
      | vaultSearch | vaultFieldsGet | vaultTotpGet | vaultSaveCandidate | vaultPasskeyRegister
      | vaultPasskeyAssert =>
          rw [kind] at asks
          exact absurd rfl asks
  exact (observe_always spec trivial os).2 r answered

/-- A request panics just if its code does. -/
theorem answer_panicked_iff {env : NmEnvelope} {s : Port} :
    (∃ s', answer c j overflowChecks host pipe env s = .error (.panicked, s')) ↔
      codePanics c overflowChecks host s.world env = true := by
  constructor
  · rintro ⟨s', panicked⟩
    by_contra computes
    rw [answer, if_neg computes] at panicked
    dsimp only at panicked
    cases answered : (observe (handle c host env) (pipe.calls s.handled) s.world).answer with
    | none =>
        rw [answered] at panicked
        cases panicked
    | some r =>
        obtain ⟨reply, rfl⟩ := handle_replies answered
        rw [answered] at panicked
        dsimp only at panicked
        split at panicked <;> cases panicked
  · intro panics
    rw [answer, if_pos panics]
    exact ⟨s, rfl⟩

/-- A run of requests panics just if the code of one of them does, after those before it. -/
theorem answerAll_panicked_iff {envs : List NmEnvelope} {s : Port} :
    (∃ s', answerAll c j overflowChecks host pipe envs s = .error (.panicked, s')) ↔
      ∃ before env after s', envs = before ++ env :: after ∧
        answerAll c j overflowChecks host pipe before s = .ok s' ∧
        codePanics c overflowChecks host s'.world env = true := by
  induction envs generalizing s with
  | nil =>
      constructor
      · rintro ⟨s', impossible⟩
        cases impossible
      · rintro ⟨before, env, after, s', cut, -⟩
        cases before <;> cases cut
  | cons env envs ih =>
      have step : answerAll c j overflowChecks host pipe (env :: envs) s =
          answer c j overflowChecks host pipe env s >>=
            answerAll c j overflowChecks host pipe envs := rfl
      rw [step]
      cases first : answer c j overflowChecks host pipe env s with
      | error w =>
          have here := @answer_panicked_iff c j overflowChecks host pipe env s
          rw [first] at here
          constructor
          · rintro ⟨s', panicked⟩
            exact ⟨[], env, envs, s, rfl, rfl, here.mp ⟨s', panicked⟩⟩
          · rintro ⟨before, env', after, s', cut, ran, panics⟩
            cases before with
            | nil =>
                cases cut
                cases ran
                exact here.mpr panics
            | cons e before =>
                cases cut
                have stuck : (answer c j overflowChecks host pipe env s >>=
                  answerAll c j overflowChecks host pipe before) = .ok s' := ran
                rw [first] at stuck
                cases stuck
      | ok s₁ =>
          have computes : ¬ codePanics c overflowChecks host s.world env = true := by
            intro panics
            obtain ⟨s', panicked⟩ := answer_panicked_iff.mpr panics
            cases first.symm.trans panicked
          refine ih.trans ?_
          constructor
          · rintro ⟨before, env', after, s', rfl, ran, panics⟩
            refine ⟨env :: before, env', after, s', rfl, ?_, panics⟩
            change (answer c j overflowChecks host pipe env s >>=
              answerAll c j overflowChecks host pipe before) = .ok s'
            rw [first]
            exact ran
          · rintro ⟨before, env', after, s', cut, ran, panics⟩
            cases before with
            | nil =>
                cases cut
                cases ran
                exact absurd panics computes
            | cons e before =>
                cases cut
                have ran' : (answer c j overflowChecks host pipe env s >>=
                  answerAll c j overflowChecks host pipe before) = .ok s' := ran
                rw [first] at ran'
                exact ⟨before, env', after, s', rfl, ran', panics⟩

/-- However a stream is cut into chunks, the loop answers its frames one by one, and ends at what
stands behind them. -/
theorem serve_eq {reads : List Bytes} (full : ∀ chunk ∈ reads, chunk ≠ []) (s : Port) :
    serve c j overflowChecks host pipe reads s =
      match answerAll c j overflowChecks host pipe (frames j reads.flatten).1 s with
      | .ok s' => endOf j pipe (frames j reads.flatten).2 s'
      | .error w => w := by
  have all : reads.takeWhile (fun chunk => decide (chunk ≠ [])) = reads :=
    List.takeWhile_eq_self_iff.mpr fun chunk mem => decide_eq_true (full chunk mem)
  have open_ : (reads.all fun chunk => decide (chunk ≠ [])) = true :=
    List.all_eq_true.mpr fun chunk mem => decide_eq_true (full chunk mem)
  rw [serve, all, Framing.serve_eq, List.nil_append, Framing.whole_eq]
  cases answered : answerAll c j overflowChecks host pipe (frames j reads.flatten).1 s with
  | error w =>
      have folded : (Framing.split (frameDecoder j) reads.flatten).1.foldlM
          (fun s env => answer c j overflowChecks host pipe env s) s = .error w := answered
      rw [folded]
  | ok s' =>
      have folded : (Framing.split (frameDecoder j) reads.flatten).1.foldlM
          (fun s env => answer c j overflowChecks host pipe env s) s = .ok s' := answered
      have whole := verdict_ne_trapped (decodeFrame_ne_trap j (frames j reads.flatten).2)
      rw [folded]
      unfold endOf ended
      rw [open_, Bool.and_true, frames]
      cases next : (frameDecoder j).next (Framing.split (frameDecoder j) reads.flatten).2 with
      | frame env n => cases pipe.readFails <;> rfl
      | incomplete => cases pipe.readFails <;> rfl
      | stop r =>
          cases r with
          | rejected e => rfl
          | trapped => exact absurd next whole

theorem serve_panicked_iff {reads : List Bytes} (full : ∀ chunk ∈ reads, chunk ≠ []) (s : Port) :
    (serve c j overflowChecks host pipe reads s).1 = .panicked ↔
      ∃ before env after s', (frames j reads.flatten).1 = before ++ env :: after ∧
        answerAll c j overflowChecks host pipe before s = .ok s' ∧
        codePanics c overflowChecks host s'.world env = true := by
  rw [← answerAll_panicked_iff, serve_eq full]
  cases answerAll c j overflowChecks host pipe (frames j reads.flatten).1 s with
  | error w =>
      obtain ⟨ending, s'⟩ := w
      constructor
      · rintro rfl
        exact ⟨s', rfl⟩
      · rintro ⟨s'', same⟩
        cases same
        rfl
  | ok s' =>
      refine iff_of_false ?_ (by rintro ⟨s'', impossible⟩; cases impossible)
      unfold endOf
      cases (frameDecoder j).next (frames j reads.flatten).2 with
      | stop r => simp
      | frame env n => cases pipe.readFails <;> simp
      | incomplete => cases pipe.readFails <;> simp

end Loop

/-- The frames of a stream are answered one by one, each with the reply to its own envelope, and
however the stream is cut, up to the first that is too large or malformed; the loop panics just
at a request for a one-time code that cannot be computed; and the frame of an envelope is read
back just if its payload is no explicit `null`, it does not nest too deep, and each of its floats
is read back. -/
theorem framing_iff (c : HostSuite) (j : SerdeJson) (overflowChecks : Bool) (host : Option Key)
    (pipe : Pipe) :
    (∀ (reads : List Bytes) (s : Port), (∀ chunk ∈ reads, chunk ≠ []) →
      serve c j overflowChecks host pipe reads s =
        match answerAll c j overflowChecks host pipe (frames j reads.flatten).1 s with
        | .ok s' => endOf j pipe (frames j reads.flatten).2 s'
        | .error w => w) ∧
    (∀ stream, ∃ bodies : List Bytes, stream = bodies.flatMap frameOf ++ (frames j stream).2 ∧
      bodies.map j.fromSlice = (frames j stream).1.map some ∧
      (∀ body ∈ bodies, body.length ≤ maxMessageBytes) ∧
      ∀ env n, decodeFrame j (frames j stream).2 ≠ .ok (env, n)) ∧
    (∀ (reads : List Bytes) (s : Port), (∀ chunk ∈ reads, chunk ≠ []) →
      ((serve c j overflowChecks host pipe reads s).1 = .panicked ↔
        ∃ before env after s', (frames j reads.flatten).1 = before ++ env :: after ∧
          answerAll c j overflowChecks host pipe before s = .ok s' ∧
          codePanics c overflowChecks host s'.world env = true)) ∧
    ∀ env, j.ReadsBack env → (j.toVec env).length ≤ maxMessageBytes → ∀ rest,
      (decodeFrame j (encodeFrame j env ++ rest) = .ok (env, (encodeFrame j env).length) ↔
        env.payload ≠ some .null ∧ env.nesting ≤ recursionLimit ∧
          ∀ x ∈ env.floats, j.floatBack x = some x) :=
  ⟨fun _ s full => serve_eq full s, frames_spec j, fun _ s full => serve_panicked_iff full s,
    fun _ reads small rest => decode_encodeFrame_iff reads small rest⟩

/-! ## A code with a period of zero -/

def zeroPeriodUri : String := "otpauth://totp/x?secret=JBSWY3DPEHPK3PXP&period=0"

def zeroPeriodItem : Item :=
  { newLogin sampleId "x" 0 with
    urls := [⟨"https://example.com", .domain⟩]
    login := some { totp := some zeroPeriodUri } }

def zeroPeriodJson : Bytes :=
  Api.utf8 ("\x7b\"id\":\"07070707-0707-0707-0707-070707070707\",\"type\":\"login\"," ++
    "\"title\":\"x\",\"tags\":[],\"urls\":[\x7b\"url\":\"https://example.com\"," ++
    "\"mode\":\"domain\"\x7d],\"custom_fields\":[],\"login\":\x7b\"totp\":\"" ++ zeroPeriodUri ++
    "\"\x7d,\"created_at\":0,\"updated_at\":0,\"password_changed_at\":0\x7d")

def zeroPeriodSuite : HostSuite :=
  { Records.hostSuite { items := [(zeroPeriodItem, zeroPeriodJson)] } with
    parseUuid := fun s => if s = "07070707-0707-0707-0707-070707070707" then some sampleId else none
    queryPairs := fun uri => if uri = zeroPeriodUri then
      some [("secret", "JBSWY3DPEHPK3PXP"), ("period", "0")] else none }

/-- The item as the host stores it. -/
def zeroPeriodEnvelope : ItemEnvelope :=
  ⟨itemHeader sampleId 0 ++ (nonceOf 5).bytes ++
    zeroPeriodSuite.aeadSeal [] (itemHeader sampleId 0) (nonceOf 5) zeroPeriodJson⟩

def zeroPeriodWorld : World :=
  { freshComputer.world with
    vault := match LocalVault.empty.upsert zeroPeriodEnvelope with
      | .ok vault => vault
      | .error _ => .empty }

def codeRequest : NmEnvelope where
  id := "1"
  kind := .vaultTotpGet
  payload := some (.object [("id", .string "07070707-0707-0707-0707-070707070707"),
    ("origin", .string "https://example.com")])

def codeRequestJson : Bytes :=
  Api.utf8 ("\x7b\"id\":\"1\",\"type\":\"vault.totp.get\",\"payload\":\x7b\"id\":" ++
    "\"07070707-0707-0707-0707-070707070707\",\"origin\":\"https://example.com\"\x7d\x7d")

/-- A serializer that knows the request. -/
def codeSerde : SerdeJson where
  toVec _ := codeRequestJson
  fromSlice b := if b = codeRequestJson then some codeRequest else none
  floatBack := some

theorem codeRequestJson_small : codeRequestJson.length ≤ maxMessageBytes := by decide +kernel

theorem codeSerde_fromSlice : codeSerde.fromSlice codeRequestJson = some codeRequest := by
  change (if codeRequestJson = codeRequestJson then some codeRequest else none) = _
  exact if_pos rfl

theorem codeRequest_framed : decodeFrame codeSerde (encodeFrame codeSerde codeRequest ++ [0]) =
    .ok (codeRequest, (encodeFrame codeSerde codeRequest).length) := by
  have reads : codeSerde.ReadsBack codeRequest := codeSerde_fromSlice
  refine ((framing_iff zeroPeriodSuite codeSerde false none ⟨fun _ => [], fun _ => true, false⟩).2.2.2
    codeRequest reads codeRequestJson_small [0]).mpr ⟨?_, by decide, ?_⟩
  · intro null
    cases null
  · intro x mem
    cases mem

/-- One request for the code of that item, and the host divides by zero. -/
theorem codeRequest_panics :
    (serve zeroPeriodSuite codeSerde false (some sampleKey)
      ⟨fun _ => fineOutcomes, fun _ => true, false⟩ [encodeFrame codeSerde codeRequest]
      ⟨zeroPeriodWorld, 0, []⟩).1 = .panicked := by
  have full : ∀ chunk ∈ [encodeFrame codeSerde codeRequest], chunk ≠ [] := by
    intro chunk mem
    rw [List.mem_singleton.mp mem]
    exact List.cons_ne_nil _ _
  have stream : frames codeSerde (frameOf codeRequestJson ++ []) = ([codeRequest], []) := by
    rw [frames_frameOf codeSerde codeRequestJson_small codeSerde_fromSlice, frames_nil]
  rw [serve_panicked_iff full]
  refine ⟨[], codeRequest, [], ⟨zeroPeriodWorld, 0, []⟩, congrArg Prod.fst stream, rfl, ?_⟩
  decide +kernel

end Sentinel.Desktop
