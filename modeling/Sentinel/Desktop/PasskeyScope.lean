import Sentinel.Desktop.Runs
import Sentinel.Vault.SameSite

/-!
# The sites of a passkey

A page may register and use a passkey under an RP id that its origin ends in at a label. For a
name with a registrable domain of its own that keeps the passkey on one site. A public suffix
passes the same test for every site under it.
-/

namespace Sentinel.Desktop

open Vault Atomic

/-- An origin as a browser writes it. Hosts are in lower case; the ones with a colon are IPv6
addresses, which have no dots. -/
structure WebOrigin where
  scheme : String
  host : String
  port : Option Nat
  scheme_plain : ':' ∉ scheme.toList
  host_plain : '/' ∉ host.toList
  host_lower : asciiLower host = host
  host_colon : ':' ∈ host.toList → '.' ∉ host.toList

def WebOrigin.portText (o : WebOrigin) : List Char :=
  match o.port with
  | none => []
  | some n => ':' :: (Nat.repr n).toList

def WebOrigin.text (o : WebOrigin) : String :=
  String.ofList (o.scheme.toList ++ "://".toList ++ (o.host.toList ++ o.portText))

/-- The same host, or the same registrable domain. -/
def SameSite (a b : WebOrigin) : Prop :=
  a.host = b.host ∨ registrableDomain a.host = registrableDomain b.host

/-! ## What the gate compares -/

theorem splitScheme_append {scheme rest : List Char} (plain : ':' ∉ scheme) :
    splitScheme (scheme ++ "://".toList ++ rest) = some (scheme, rest) := by
  induction scheme with
  | nil => rfl
  | cons ch scheme ih =>
      rw [List.mem_cons, not_or] at plain
      have other : ch ≠ ':' := fun same => plain.1 same.symm
      rw [List.cons_append, List.cons_append, splitScheme, ih plain.2]
      · rfl
      · rintro rest' rfl
        exact absurd rfl other

theorem WebOrigin.slash_not_mem (o : WebOrigin) : '/' ∉ o.host.toList ++ o.portText := by
  rw [List.mem_append, not_or]
  refine ⟨o.host_plain, ?_⟩
  unfold portText
  cases o.port with
  | none => simp
  | some n =>
      rw [List.mem_cons, not_or]
      refine ⟨by decide, fun mem => ?_⟩
      rw [Nat.repr, String.toList_ofList] at mem
      have digit := Nat.isDigit_of_mem_toDigits (by decide) (by decide) mem
      revert digit
      decide

/-- The host that the gate cuts out of an origin: up to the first colon. -/
def WebOrigin.cutHost (o : WebOrigin) : List Char :=
  o.host.toList.takeWhile fun ch => decide (ch ≠ ':')

theorem WebOrigin.cut_rest (o : WebOrigin) :
    ((o.host.toList ++ o.portText).takeWhile fun ch => decide (ch ≠ '/')).takeWhile
      (fun ch => decide (ch ≠ ':')) = o.cutHost := by
  have whole : (o.host.toList ++ o.portText).takeWhile (fun ch => decide (ch ≠ '/')) =
      o.host.toList ++ o.portText := by
    rw [List.takeWhile_eq_self_iff]
    intro ch mem
    rw [decide_eq_true_iff]
    rintro rfl
    exact o.slash_not_mem mem
  have port : o.portText.takeWhile (fun ch => decide (ch ≠ ':')) = [] := by
    unfold portText
    cases o.port <;> rfl
  rw [whole, List.takeWhile_append, port, List.append_nil, cutHost]
  split
  · rename_i all
    exact ((List.takeWhile_prefix _).eq_of_length all).symm
  · rfl

theorem map_toLower_eq_self {host : String} (lower : asciiLower host = host) {ch : Char}
    (mem : ch ∈ host.toList) : ch.toLower = ch := by
  have chars : host.toList.map Char.toLower = host.toList := by
    rw [← String.toList_inj, asciiLower, String.toList_ofList] at lower
    exact lower
  exact List.map_inj_left.mp (chars.trans (List.map_id _).symm) ch mem

theorem WebOrigin.cutHost_lower (o : WebOrigin) : o.cutHost.map Char.toLower = o.cutHost :=
  (List.map_congr_left fun _ mem =>
    map_toLower_eq_self o.host_lower ((List.takeWhile_sublist _).subset mem)).trans (List.map_id _)

/-- `https`, or `http` on this computer. -/
def WebOrigin.schemeOk (o : WebOrigin) : Bool :=
  decide (o.scheme.toList.map Char.toLower = "https".toList) ||
    (decide (o.scheme.toList.map Char.toLower = "http".toList) &&
      (decide (o.cutHost = "localhost".toList) || decide (o.cutHost = "127.0.0.1".toList) ||
        ".localhost".toList.isSuffixOf o.cutHost))

/-- The gate asks for the labels of the RP id at the end of those of the host. -/
theorem rpIdMatchesOrigin_iff {rpId : String} {o : WebOrigin} :
    rpIdMatchesOrigin rpId o.text = true ↔
      rpId ≠ "" ∧ o.schemeOk = true ∧ labels (asciiLower rpId) <:+ o.cutHost.splitOn '.' := by
  unfold rpIdMatchesOrigin
  by_cases empty : rpId = ""
  · simp [empty]
  · rw [if_neg empty, WebOrigin.text, String.toList_ofList, splitScheme_append o.scheme_plain]
    dsimp only
    rw [o.cut_rest, o.cutHost_lower, ← WebOrigin.schemeOk, labels, asciiLower,
      String.toList_ofList, Labels.splitOn_suffix_iff]
    simp only [Bool.and_eq_true, Bool.or_eq_true, decide_eq_true_iff, List.isSuffixOf_iff_suffix]
    refine ⟨fun allowed => ⟨empty, allowed.1, ?_⟩, fun allowed => ⟨allowed.2.1, ?_⟩⟩
    · refine allowed.2.imp_right ?_
      rintro ⟨front, parts⟩
      exact ⟨front, parts.symm⟩
    · refine allowed.2.2.imp_right ?_
      rintro ⟨front, parts⟩
      exact ⟨front, parts.symm⟩

/-- A character of the host before the first colon. -/
theorem WebOrigin.mem_cutHost {o : WebOrigin} {ch : Char} (mem : ch ∈ o.cutHost) :
    ch ∈ o.host.toList ∧ ch ≠ ':' :=
  ⟨(List.takeWhile_sublist _).subset mem, by simpa using List.mem_takeWhile_imp mem⟩

theorem WebOrigin.cutHost_of_plain {o : WebOrigin} (plain : ':' ∉ o.host.toList) :
    o.cutHost = o.host.toList := by
  rw [cutHost, List.takeWhile_eq_self_iff]
  intro ch mem
  rw [decide_eq_true_iff]
  rintro rfl
  exact plain mem

/-! ## One site for each RP id -/

/-- A name that is a public suffix; no origin ends in a text with a slash or a colon. -/
structure BareSuffix (rpId : String) : Prop where
  nonempty : rpId ≠ ""
  slash : '/' ∉ rpId.toList
  colon : ':' ∉ rpId.toList
  suffix : PublicSuffix (labels (asciiLower rpId))

/-- All pages that may use the RP id are of one site. -/
def OneSite (rpId : String) : Prop :=
  ∀ a b : WebOrigin, rpIdMatchesOrigin rpId a.text = true → rpIdMatchesOrigin rpId b.text = true →
    SameSite a b

/-- The labels of an admitted RP id end those of the host, unless they are a public suffix. -/
theorem suffix_of_matches {rpId : String} {o : WebOrigin}
    (matches_ : rpIdMatchesOrigin rpId o.text = true) (notBare : ¬ BareSuffix rpId) :
    labels (asciiLower rpId) <:+ labels o.host ∧ ¬ PublicSuffix (labels (asciiLower rpId)) := by
  obtain ⟨nonempty, -, ends⟩ := rpIdMatchesOrigin_iff.mp matches_
  have chars : ∀ ch ∈ rpId.toList, ch.toLower ∈ o.cutHost := by
    intro ch mem
    have lower : ch.toLower ∈ (asciiLower rpId).toList := by
      rw [asciiLower, String.toList_ofList]
      exact List.mem_map_of_mem mem
    obtain whole | ⟨front, parts⟩ := Labels.splitOn_suffix_iff.mp ends
    · rwa [whole]
    · rw [parts]
      exact List.mem_append_right _ (List.mem_cons_of_mem _ lower)
  have notPublic : ¬ PublicSuffix (labels (asciiLower rpId)) := by
    refine fun suffix => notBare ⟨nonempty, fun mem => ?_, fun mem => ?_, suffix⟩
    · exact o.host_plain (WebOrigin.mem_cutHost (chars '/' mem)).1
    · exact (WebOrigin.mem_cutHost (chars ':' mem)).2 rfl
  refine ⟨?_, notPublic⟩
  by_cases colon : ':' ∈ o.host.toList
  · -- an IPv6 address has one label only
    have plain : '.' ∉ o.cutHost := fun mem => o.host_colon colon (WebOrigin.mem_cutHost mem).1
    rw [List.splitOn_eq_singleton plain] at ends
    have le := ends.length_le
    have pos : (labels (asciiLower rpId)).length ≠ 0 := fun none_ =>
      List.splitOn_ne_nil _ _ (List.length_eq_zero_iff.mp none_)
    rw [List.length_singleton] at le
    exact absurd (.inl (by omega)) notPublic
  · rw [WebOrigin.cutHost_of_plain colon] at ends
    exact ends

theorem sameSite_of_matches {rpId : String} (notBare : ¬ BareSuffix rpId) : OneSite rpId := by
  intro a b matchesA matchesB
  obtain ⟨endsA, notPublic⟩ := suffix_of_matches matchesA notBare
  obtain ⟨endsB, -⟩ := suffix_of_matches matchesB notBare
  right
  rw [registrableDomain_of_suffix endsA notPublic, registrableDomain_of_suffix endsB notPublic]

theorem eq_of_toLower {ch other : Char} (plain : other.isAlpha = false) (same : ch.toLower = other) :
    ch = other := by
  have alpha : ch.isAlpha = false := by
    rw [← Char.isAlpha_toLower_eq_isAlpha, same, plain]
  rw [← same, Char.toLower_eq_of_not_isUpper]
  intro upper
  rw [Char.isAlpha, upper, Bool.true_or] at alpha
  cases alpha

theorem not_mem_map_toLower {l : List Char} {other : Char} (plain : other.isAlpha = false)
    (absent : other ∉ l) : other ∉ l.map Char.toLower := by
  intro mem
  obtain ⟨ch, there, same⟩ := List.mem_map.mp mem
  exact absent (eq_of_toLower plain same ▸ there)

/-- A page one label under the RP id. -/
def pageUnder (label : Bool) (rpId : String) (bare : BareSuffix rpId) : WebOrigin where
  scheme := "https"
  host := String.ofList ((if label then 'a' else 'b') :: '.' :: rpId.toList.map Char.toLower)
  port := none
  scheme_plain := by decide
  host_plain := by
    have absent := not_mem_map_toLower (show '/'.isAlpha = false from rfl) bare.slash
    cases label <;> simpa using absent
  host_lower := by
    have chars : ((if label then 'a' else 'b').toLower) = (if label then 'a' else 'b') := by
      cases label <;> rfl
    have dot : '.'.toLower = '.' := rfl
    simp only [asciiLower, String.toList_ofList, List.map_cons, chars, dot, List.map_map]
    congr 3
    exact List.map_congr_left fun ch _ => Char.toLower_toLower_eq_toLower ch
  host_colon := by
    intro colon
    have absent := not_mem_map_toLower (show ':'.isAlpha = false from rfl) bare.colon
    exfalso
    revert colon
    cases label <;> simpa using absent

theorem labels_pageUnder (label : Bool) {rpId : String} (bare : BareSuffix rpId) :
    labels (pageUnder label rpId bare).host =
      [if label then 'a' else 'b'] :: labels (asciiLower rpId) := by
  have cut := List.splitOn_append_cons_self (a := '.') [if label then 'a' else 'b']
    (rpId.toList.map Char.toLower)
  rw [labels, labels, asciiLower, pageUnder, String.toList_ofList, String.toList_ofList]
  rw [List.singleton_append] at cut
  rw [cut, List.splitOn_eq_singleton, List.singleton_append]
  cases label <;> decide

theorem matches_pageUnder (label : Bool) {rpId : String} (bare : BareSuffix rpId) :
    rpIdMatchesOrigin rpId (pageUnder label rpId bare).text = true := by
  have plain : ':' ∉ (pageUnder label rpId bare).host.toList := by
    have absent := not_mem_map_toLower (show ':'.isAlpha = false from rfl) bare.colon
    cases label <;> simpa [pageUnder] using absent
  have https : "https".toList.map Char.toLower = "https".toList := by decide
  refine rpIdMatchesOrigin_iff.mpr
    ⟨bare.nonempty, Bool.or_eq_true_iff.mpr (.inl (decide_eq_true https)), ?_⟩
  rw [WebOrigin.cutHost_of_plain plain, ← labels, labels_pageUnder]
  exact List.suffix_cons _ _

/-- An RP id serves one site exactly if it is no public suffix. -/
theorem oneSite_iff (rpId : String) : OneSite rpId ↔ ¬ BareSuffix rpId := by
  refine ⟨fun one bare => ?_, sameSite_of_matches⟩
  have own : ∀ label, registrableDomain (pageUnder label rpId bare).host =
      (pageUnder label rpId bare).host := fun label =>
    registrableDomain_of_cons (labels_pageUnder label bare) (List.splitOn_ne_nil _ _) bare.suffix
  have hosts : (pageUnder true rpId bare).host ≠ (pageUnder false rpId bare).host := by
    rw [ne_eq, ← labels_injective, labels_pageUnder, labels_pageUnder]
    simp
  have same := one _ _ (matches_pageUnder true bare) (matches_pageUnder false bare)
  rw [SameSite, own, own, or_self] at same
  exact hosts same

/-! ## Requests -/

section Requests

variable (c : HostSuite)

/-- A host with a key is asked by a page of this origin to register a passkey, and stores it. -/
def Registers (s : Computer) (os : List Outcome) (op : Op) (origin : String) (pk : Passkey) :
    Prop :=
  ∃ i env vk req userHandle scalar credentialId stored,
    op = .request i env ∧ env.kind = .vaultPasskeyRegister ∧ s.hosts[i]? = some (some vk) ∧
      payloadOf PasskeyRegisterReq.parse env = .ok req ∧ req.origin = origin ∧
      pk = mintPasskey c req userHandle scalar credentialId ∧
      ⟨.upsert stored, .ok ()⟩ ∈ (op.passage c s os).trace

/-- A host with a key is asked by a page of this origin for an assertion, and answers with one
of the stored passkey. -/
def Asserts (s : Computer) (os : List Outcome) (op : Op) (origin : String) (pk : Passkey) :
    Prop :=
  ∃ i env vk req it reply,
    op = .request i env ∧ env.kind = .vaultPasskeyAssert ∧ s.hosts[i]? = some (some vk) ∧
      payloadOf PasskeyAssertReq.parse env = .ok req ∧ req.origin = origin ∧
      passkeyCandidate (opened c vk s.world) req = some (it, pk) ∧
      (observe (handle c (some vk) env) os s.world).answer = some (.ok reply) ∧
      reply.ok = some true

/-- A request to register a passkey under a bare public suffix. -/
def Op.RegistersBare (op : Op) : Prop :=
  ∃ i env req, op = .request i env ∧ env.kind = .vaultPasskeyRegister ∧
    payloadOf PasskeyRegisterReq.parse env = .ok req ∧ BareSuffix req.rpId

variable {c} {s : Computer} {os : List Outcome} {op : Op} {origin : String} {pk : Passkey}

/-- What is stored was admitted for the page. -/
theorem Registers.matches_ (registers : Registers c s os op origin pk) :
    rpIdMatchesOrigin pk.rpId origin = true ∧ (¬ op.RegistersBare → ¬ BareSuffix pk.rpId) := by
  obtain ⟨i, env, vk, req, userHandle, scalar, credentialId, stored, rfl, kind, host, parsed, rfl,
    rfl, upserted⟩ := registers
  refine ⟨?_, fun none_ bare => none_ ⟨i, env, req, rfl, kind, parsed, bare⟩⟩
  by_contra refused
  rw [Bool.not_eq_true] at refused
  have answers : handle c (some vk) env =
      pure (errorReply env .badOrigin "rpId is not valid for this origin") := by
    simp only [handle, kind, credential, passkeyRegister, parsed]
    rw [if_neg]
    rw [Bool.not_eq_true]
    exact refused
  simp only [Op.passage, host, answers, Passage.forget_trace] at upserted
  cases upserted

theorem passkeyCandidate_rpId {items : List Item} {req : PasskeyAssertReq} {it : Item}
    (found : passkeyCandidate items req = some (it, pk)) : pk.rpId = req.rpId := by
  obtain ⟨first, head, mapped⟩ := Option.bind_eq_some_iff.mp found
  obtain ⟨p, has, same⟩ := Option.map_eq_some_iff.mp mapped
  cases same
  have mem := List.mem_mergeSort.mp (List.mem_of_mem_head? head)
  have fits := (List.mem_filter.mp mem).2
  rw [has] at fits
  simp only [Bool.and_eq_true, decide_eq_true_eq, Option.any_some] at fits
  exact fits.2.1

/-- What is used was admitted for the page. -/
theorem Asserts.matches_ (asserts : Asserts c s os op origin pk) :
    rpIdMatchesOrigin pk.rpId origin = true := by
  obtain ⟨i, env, vk, req, it, reply, rfl, kind, host, parsed, rfl, found, answered, ok⟩ := asserts
  rw [passkeyCandidate_rpId found]
  by_contra refused
  rw [Bool.not_eq_true] at refused
  have answers : handle c (some vk) env =
      pure (errorReply env .badOrigin "rpId is not valid for this origin") := by
    simp only [handle, kind, credential, passkeyAssert, parsed]
    rw [if_neg]
    rw [Bool.not_eq_true]
    exact refused
  rw [answers] at answered
  cases answered
  cases ok

end Requests

/-- Each RP id serves one site exactly if it is no public suffix; and where no passkey is
registered under one, a page gets assertions only of passkeys that pages of its own site
registered. -/
theorem passkeys_stay (c : HostSuite) :
    (∀ rpId, OneSite rpId ↔ ¬ BareSuffix rpId) ∧
      ∀ (s : Computer) (run : Run), (∀ step ∈ run, ¬ step.1.RegistersBare) →
        ∀ i j op os op' os' (a b : WebOrigin) (pk used : Passkey),
          run[i]? = some (op, os) → run[j]? = some (op', os') →
          Registers c (s.after c (run.take i)) os op a.text pk →
          Asserts c (s.after c (run.take j)) os' op' b.text used →
          used.rpId = pk.rpId → used.credentialId = pk.credentialId → SameSite a b := by
  refine ⟨oneSite_iff, ?_⟩
  intro s run plain i j op os op' os' a b pk used first second registers asserts same _
  obtain ⟨admitted, notBare⟩ := registers.matches_
  have use := asserts.matches_
  rw [same] at use
  exact sameSite_of_matches (notBare (plain _ (List.mem_of_getElem? first))) a b admitted use

/-! ## Two pages of one site, and two of different sites -/

def webPage (host : String) (plain : '/' ∉ host.toList) (lower : asciiLower host = host)
    (colon : ':' ∈ host.toList → '.' ∉ host.toList) : WebOrigin where
  scheme := "https"
  host := host
  port := none
  scheme_plain := by decide
  host_plain := plain
  host_lower := lower
  host_colon := colon

def examplePage : WebOrigin := webPage "example.com" (by decide) (by decide) (by decide)

def loginPage : WebOrigin := webPage "login.example.com" (by decide) (by decide) (by decide)

/-- A request of `examplePage`. -/
def sampleRegisterReq : PasskeyRegisterReq where
  origin := "https://example.com"
  rpId := "example.com"
  rpName := none
  userName := "a"
  userDisplayName := none
  userHandleB64u := "YQ"

def registerEnvelope : NmEnvelope where
  id := "1"
  kind := .vaultPasskeyRegister
  payload := some (.object [("origin", .string "https://example.com"),
    ("rpId", .string "example.com"), ("userName", .string "a"), ("userHandleB64u", .string "YQ")])

def assertEnvelope : NmEnvelope where
  id := "2"
  kind := .vaultPasskeyAssert
  payload := some (.object [("origin", .string "https://login.example.com"),
    ("rpId", .string "example.com"), ("clientDataJson", .string "data")])

/-- The passkey made from a random source of nines, and its item. -/
def samplePasskey : Passkey :=
  mintPasskey sampleRecords.hostSuite sampleRegisterReq [97] (List.replicate 32 9)
    (List.replicate 16 9)

def samplePasskeyItem : Item :=
  passkeyItem (uuidV4 ⟨List.replicate 16 9, rfl⟩) sampleRegisterReq samplePasskey 0

def samplePasskeyJson (count : String) : Bytes :=
  Api.utf8 ("\x7b\"id\":\"09090909-0909-4909-8909-090909090909\",\"type\":\"passkey\"," ++
    "\"title\":\"a @ example.com\",\"tags\":[],\"urls\":[\x7b\"url\":\"https://example.com\"," ++
    "\"mode\":\"domain\"\x7d],\"custom_fields\":[],\"passkey\":\x7b\"rp_id\":\"example.com\"," ++
    "\"user_name\":\"a\",\"user_handle\":\"YQ\",\"credential_id\":\"CQkJCQkJCQkJCQkJCQkJCQ\"," ++
    "\"private_key\":\"CQkJCQkJCQkJCQkJCQkJCQkJCQkJCQkJCQkJCQkJCQk=\",\"algorithm\":-7," ++
    "\"sign_count\":" ++ count ++ "\x7d,\"created_at\":0,\"updated_at\":0\x7d")

/-- The host over the two states of that item. -/
def passkeySuite : HostSuite :=
  { Records.hostSuite
      { items := [(samplePasskeyItem, samplePasskeyJson "0"),
          ({ samplePasskeyItem with passkey := some (countedUp samplePasskey) },
            samplePasskeyJson "1")] } with
    urlSafeDecode := fun s => if s = "YQ" then some [97] else none
    registrationAttestation := fun _ => .ok ([], [])
    assertion := fun _ _ _ => .ok ([], []) }

def passkeyComputer : Computer := { freshComputer with hosts := [some sampleKey] }

def passkeyRun : Run :=
  [(.request 0 registerEnvelope, fineOutcomes), (.request 0 assertEnvelope, fineOutcomes)]

/-- An item was stored. -/
def isStored : Exchange Stmt Stmt.Result → Bool
  | ⟨.upsert _, .ok _⟩ => true
  | _ => false

theorem exists_of_isStored {t : Trace} (found : t.any isStored = true) :
    ∃ stored, ⟨.upsert stored, .ok ()⟩ ∈ t := by
  obtain ⟨⟨q, answer⟩, mem, stored⟩ := List.any_eq_true.mp found
  cases q with
  | upsert env =>
      cases answer with
      | ok u => exact ⟨env, mem⟩
      | error e => cases stored
  | _ => cases stored

def isServed : Option (Except Failure NmEnvelope) → Bool
  | some (.ok reply) => decide (reply.ok = some true)
  | _ => false

theorem exists_of_isServed {answer : Option (Except Failure NmEnvelope)}
    (served : isServed answer = true) :
    ∃ reply, answer = some (.ok reply) ∧ reply.ok = some true := by
  unfold isServed at served
  split at served
  · exact ⟨_, rfl, of_decide_eq_true served⟩
  · cases served

theorem passkeyRun_registers : Registers passkeySuite passkeyComputer fineOutcomes
    (.request 0 registerEnvelope) examplePage.text samplePasskey := by
  obtain ⟨stored, mem⟩ := exists_of_isStored (t := ((Op.request 0 registerEnvelope).passage
    passkeySuite passkeyComputer fineOutcomes).trace) (by decide +kernel)
  exact ⟨0, registerEnvelope, sampleKey, sampleRegisterReq, [97], List.replicate 32 9,
    List.replicate 16 9, stored, rfl, rfl, rfl, rfl, by decide, rfl, mem⟩

theorem passkeyRun_asserts : Asserts passkeySuite
    (passkeyComputer.after passkeySuite (passkeyRun.take 1)) fineOutcomes
    (.request 0 assertEnvelope) loginPage.text samplePasskey := by
  obtain ⟨reply, answered, ok⟩ := @exists_of_isServed (observe
    (handle passkeySuite (some sampleKey) assertEnvelope) fineOutcomes
    (passkeyComputer.after passkeySuite (passkeyRun.take 1)).world).answer (by decide +kernel)
  exact ⟨0, assertEnvelope, sampleKey, ⟨"https://login.example.com", "example.com", "data", []⟩,
    samplePasskeyItem, reply, rfl, rfl, by decide +kernel, rfl, by decide, by decide +kernel,
    answered, ok⟩

theorem passkeyRun_plain : ∀ step ∈ passkeyRun, ¬ step.1.RegistersBare := by
  have plain : ¬ PublicSuffix (labels (asciiLower "example.com")) := by
    unfold PublicSuffix
    decide +kernel
  have first : ¬ (Op.request 0 registerEnvelope).RegistersBare := by
    rintro ⟨i, env, req, request, -, parsed, bare⟩
    cases request
    have read : payloadOf PasskeyRegisterReq.parse registerEnvelope = .ok sampleRegisterReq := rfl
    cases read.symm.trans parsed
    exact plain bare.suffix
  have second : ¬ (Op.request 0 assertEnvelope).RegistersBare := by
    rintro ⟨i, env, req, request, kind, -, -⟩
    cases request
    cases kind
  rintro step (- | ⟨-, (- | ⟨-, ⟨⟩⟩)⟩)
  · exact first
  · exact second

/-- A page uses the passkey of another page of its site. -/
theorem passkeys_stay_login : SameSite examplePage loginPage :=
  (passkeys_stay passkeySuite).2 passkeyComputer passkeyRun passkeyRun_plain 0 1 _ _ _ _
    examplePage loginPage samplePasskey samplePasskey rfl rfl passkeyRun_registers
    passkeyRun_asserts rfl rfl

def evilPage : WebOrigin := webPage "evil.com" (by decide) (by decide) (by decide)

def bankPage : WebOrigin := webPage "bank.com" (by decide) (by decide) (by decide)

/-- Every page under `com` may use the passkeys of `com`. -/
theorem com_serves_two_sites : ¬ ∀ rpId, OneSite rpId := by
  intro one
  have same := one "com" evilPage bankPage (by decide +kernel) (by decide +kernel)
  revert same
  unfold SameSite
  decide +kernel

end Sentinel.Desktop
