import Sentinel.Vault.Matching
import Sentinel.Desktop.Items

/-!
# The native-messaging host

`nmhost.rs`: the process that a browser starts to serve its extension. It reads the key once,
when it starts (`openVault`), and answers requests until the browser closes the port; a host
without a key answers `LOCKED`. A request and its answer are JSON values here; how they are
framed on the pipe is left out.

The parser of addresses, Unicode lower case, the password generator and the authenticator
(P-256 keys, attestation objects and assertions) are parameters.
-/

namespace Sentinel.Desktop

open Vault Atomic

abbrev FiniteFloat := { x : Float // x.isFinite = true }

/-- `serde_json::Number`. -/
inductive JsonNumber where
  | posInt (n : UInt64)
  | negInt (n : Int64) (negative : n < 0)
  | float (x : FiniteFloat)

/-- `serde_json::Value`. The fields of an object stand in the order of their names. -/
inductive Json where
  | null
  | bool (b : Bool)
  | number (n : JsonNumber)
  | string (s : String)
  | array (values : List Json)
  | object (fields : List (String × Json))

inductive NmType where
  | hello | statusSubscribe | statusEvent | vaultSearch | vaultFieldsGet | vaultTotpGet
  | vaultGenerate | vaultSaveCandidate | vaultPasskeyRegister | vaultPasskeyAssert | lockEvent
  deriving DecidableEq, Repr

inductive NmErrorCode where
  | locked | badOrigin | notFound | badRequest | internal
  deriving DecidableEq, Repr

structure NmError where
  code : NmErrorCode
  message : String
  deriving DecidableEq, Repr

structure NmEnvelope where
  id : String
  kind : NmType
  ok : Option Bool := none
  payload : Option Json := none
  err : Option NmError := none

/-- `NmEnvelope::locked`: an answer without credential data. -/
def NmEnvelope.locked (id : String) : NmEnvelope where
  id := id
  kind := .lockEvent
  ok := some false
  err := some ⟨.locked, "vault is locked"⟩

/-- `nmhost::ok`. -/
def okReply (id : String) (kind : NmType) (payload : Json) : NmEnvelope where
  id := id
  kind := kind
  ok := some true
  payload := some payload

/-- `nmhost::error`. -/
def errorReply (env : NmEnvelope) (code : NmErrorCode) (message : String) : NmEnvelope where
  id := env.id
  kind := env.kind
  ok := some false
  err := some ⟨code, message⟩

/-- The third-party code of the host. -/
structure HostSuite extends Suite where
  parseUrl : String → Option ParsedUrl
  /-- `str::to_lowercase` -/
  lowercase : String → String
  /-- `generator::password` on the default specification, from random bytes -/
  generatorPassword : Bytes → Option String
  /-- the secret scalar of `SigningKey::random`, from random bytes -/
  signingScalar : Bytes → Bytes
  registrationAttestation : Passkey → Except CoreError (Bytes × Bytes)
  assertion : Passkey → Nat → Bytes → Except CoreError (Bytes × Bytes)
  appVersion : String

namespace Json

/-- `Value::from` on an `f64`. -/
def ofFloat (x : Float) : Json :=
  if finite : x.isFinite = true then number (.float ⟨x, finite⟩) else null

/-- The fields of a derived `Deserialize`, by name from an object or by position from an
array. A field that may be absent is marked. -/
def fields (names : List (String × Bool)) : Json → Option (List (Option Json))
  | object entries => names.mapM fun (name, optional) =>
      match entries.find? fun e => decide (e.1 = name) with
      | some e => some (some e.2)
      | none => if optional then some none else none
  | array values =>
      if names.length < values.length then none
      else (names.zipIdx).mapM fun ((_, optional), i) =>
        match values[i]? with
        | some v => some (some v)
        | none => if optional then some none else none
  | _ => none

def toText : Json → Option String
  | string s => some s
  | _ => none

def toTexts : Json → Option (List String)
  | array values => values.mapM toText
  | _ => none

/-- An `Option<String>`. -/
def toOptionalText : Json → Option (Option String)
  | null => some none
  | string s => some (some s)
  | _ => none

end Json

/-- A field that defaults when it is absent. -/
def orDefault {α : Type} (read : Json → Option α) (default : α) : Option Json → Option α
  | none => some default
  | some v => read v

structure VaultSearchRequest where
  query : String
  origin : String

structure VaultFieldsGetRequest where
  id : String
  fields : List String
  origin : String
  reason : String

structure TotpGetRequest where
  id : String
  origin : String

structure SaveCandidateRequest where
  origin : String
  username : String
  password : String
  title : String

structure PasskeyRegisterReq where
  origin : String
  rpId : String
  rpName : Option String
  userName : String
  userDisplayName : Option String
  userHandleB64u : String

structure PasskeyAssertReq where
  origin : String
  rpId : String
  clientDataJson : String
  allowCredentialIdsB64u : List String

def VaultSearchRequest.parse (v : Json) : Option VaultSearchRequest := do
  match ← v.fields [("query", false), ("origin", false)] with
  | [some query, some origin] =>
      pure { query := ← query.toText, origin := ← origin.toText }
  | _ => none

def VaultFieldsGetRequest.parse (v : Json) : Option VaultFieldsGetRequest := do
  match ← v.fields [("id", false), ("fields", false), ("origin", false), ("reason", false)] with
  | [some id, some fields, some origin, some reason] =>
      pure { id := ← id.toText, fields := ← fields.toTexts, origin := ← origin.toText,
             reason := ← reason.toText }
  | _ => none

def TotpGetRequest.parse (v : Json) : Option TotpGetRequest := do
  match ← v.fields [("id", false), ("origin", true)] with
  | [some id, origin] => pure { id := ← id.toText, origin := ← orDefault Json.toText "" origin }
  | _ => none

def SaveCandidateRequest.parse (v : Json) : Option SaveCandidateRequest := do
  match ← v.fields [("origin", false), ("username", true), ("password", false), ("title", true)] with
  | [some origin, username, some password, title] =>
      pure { origin := ← origin.toText, username := ← orDefault Json.toText "" username,
             password := ← password.toText, title := ← orDefault Json.toText "" title }
  | _ => none

def PasskeyRegisterReq.parse (v : Json) : Option PasskeyRegisterReq := do
  match ← v.fields [("origin", false), ("rpId", false), ("rpName", true), ("userName", false),
      ("userDisplayName", true), ("userHandleB64u", false)] with
  | [some origin, some rpId, rpName, some userName, userDisplayName, some userHandle] =>
      pure { origin := ← origin.toText, rpId := ← rpId.toText,
             rpName := ← orDefault Json.toOptionalText none rpName, userName := ← userName.toText,
             userDisplayName := ← orDefault Json.toOptionalText none userDisplayName,
             userHandleB64u := ← userHandle.toText }
  | _ => none

def PasskeyAssertReq.parse (v : Json) : Option PasskeyAssertReq := do
  match ← v.fields [("origin", false), ("rpId", false), ("clientDataJson", false),
      ("allowCredentialIdsB64u", true)] with
  | [some origin, some rpId, some clientData, allow] =>
      pure { origin := ← origin.toText, rpId := ← rpId.toText,
             clientDataJson := ← clientData.toText,
             allowCredentialIdsB64u := ← orDefault Json.toTexts [] allow }
  | _ => none

/-- `parse`: an absent payload is read as `null`. -/
def payloadOf {α : Type} (parse : Json → Option α) (env : NmEnvelope) : Except NmEnvelope α :=
  match parse (env.payload.getD .null) with
  | some req => .ok req
  | none => .error (errorReply env .badRequest "bad request payload")

/-- `split_once("://")`. -/
def splitScheme : List Char → Option (List Char × List Char)
  | ':' :: '/' :: '/' :: rest => some ([], rest)
  | ch :: rest => (splitScheme rest).map fun (scheme, after) => (ch :: scheme, after)
  | [] => none

/-- `nmhost::host_of`. -/
def hostOf (url : String) : String := asciiLower (hostOfUrl url)

/-- `match_quality`: an exact host ranks above a registrable domain, and later matches lower. -/
def matchQuality (item : Item) (origin : String) (rank : Nat) : Float :=
  let pageHost := hostOf origin
  let exact_ := item.urls.any fun u => decide (hostOf u.url = pageHost ∧ pageHost ≠ "")
  let base : Float := if exact_ then 1.0 else 0.75
  max (base - rank.toFloat * 0.02) 0.1

/-- `rp_id_matches_origin`: the RP id is the host of the origin or a suffix of it at a label. -/
def rpIdMatchesOrigin (rpId origin : String) : Bool :=
  if rpId = "" then false
  else match splitScheme origin.toList with
    | none => false
    | some (scheme, rest) =>
        let host := ((rest.takeWhile fun ch => decide (ch ≠ '/')).takeWhile
          fun ch => decide (ch ≠ ':')).map Char.toLower
        let isLocal := decide (host = "localhost".toList) || decide (host = "127.0.0.1".toList) ||
          ".localhost".toList.isSuffixOf host
        let schemeOk := decide (scheme.map Char.toLower = "https".toList) ||
          (decide (scheme.map Char.toLower = "http".toList) && isLocal)
        let rp := rpId.toList.map Char.toLower
        schemeOk && (decide (host = rp) || ('.' :: rp).isSuffixOf host)

/-- `URL_SAFE_NO_PAD.encode`. -/
def urlSafeEncode (bytes : Bytes) : String :=
  String.ofList (((Base64.encode bytes).toList.filter fun ch => decide (ch ≠ '=')).map fun ch =>
    if ch = '+' then '-' else if ch = '/' then '_' else ch)

section Handlers

variable (c : HostSuite)

/-- `load_items`: the items that open. -/
def loadItems (vk : Key) : Command (List Item) := do
  let envs ← sys .listEnvelopes
  pure (envs.filterMap fun e => (openItem c.toCrypto vk.bytes e).toOption)

/-- `lookup`. -/
def lookup (vk : Key) (id : String) : Command (Except (NmErrorCode × String) Item) := do
  match c.parseUuid id with
  | none => pure (.error (.badRequest, "bad item id"))
  | some uid => do
      match ← sys (.vaultGet uid) with
      | none => pure (.error (.notFound, "no such item"))
      | some env =>
          pure ((openItem c.toCrypto vk.bytes env).mapError fun _ => (.internal, "decrypt failed"))

/-- `nmhost::totp_code`. -/
def itemTotpCode (item : Item) : Command (Option String) := do
  match item.login.bind Login.totp with
  | none => pure none
  | some uri =>
      match TotpSecret.parse c.toTotpEngine uri with
      | .error _ => pure none
      | .ok secret => do
          let now ← sys .clock
          pure (some (secret.codeAt c.toTotpEngine (now % 2 ^ 64).toNat))

/-- `session.seal` and `vault.upsert` of a request, each with the answer to its failure. -/
def fileItem (vk : Key) (env : NmEnvelope) (item : Item) (reply : NmEnvelope) :
    Command NmEnvelope := do
  match ← sessionSeal c.toSuite (some vk) item with
  | .error _ => pure (errorReply env .internal "seal failed")
  | .ok sealed_ => do
      match ← sys (.upsert sealed_) with
      | .error _ => pure (errorReply env .internal "vault write failed")
      | .ok () => pure reply

def hello (host : Option Key) (id : String) : NmEnvelope :=
  okReply id .hello (.object
    [("appVersion", .string c.appVersion),
     ("caps", .array (["vault.search", "vault.fields.get", "vault.totp.get", "vault.generate",
       "vault.save_candidate", "vault.passkey.register", "vault.passkey.assert"].map .string)),
     ("locked", .bool host.isNone)])

/-- One entry of a search result; an absent field is left out. -/
def searchResult (origin : String) (rank : Nat) (it : Item) : Json :=
  .object ((it.urls.head?.map fun u => ("faviconDomain", Json.string (hostOf u.url))).toList ++
    [("id", Json.string (uuidText it.id)),
     ("matchQuality", Json.ofFloat (matchQuality it origin rank)),
     ("title", Json.string it.title)] ++
    ((itemUsername it).map fun u => ("username", Json.string u)).toList)

/-- The items of a search: those of the origin, the most recent first, and among them those
that the query finds. -/
def searchItems (items : List Item) (req : VaultSearchRequest) : List Item :=
  let matched := (items.filter fun it => originMatches c.parseUrl it.urls req.origin).mergeSort
    fun a b => decide (b.updatedAt ≤ a.updatedAt)
  let q := c.lowercase (Api.trim req.query)
  matched.filter fun it => decide (q = "") || decide (q.toList <:+: (c.lowercase it.title).toList) ||
    (itemUsername it).any fun u => decide (q.toList <:+: (c.lowercase u).toList)

def search (vk : Key) (env : NmEnvelope) : Command NmEnvelope := do
  match payloadOf VaultSearchRequest.parse env with
  | .error reply => pure reply
  | .ok req => do
      let items ← loadItems c vk
      let found := (searchItems c items req).zipIdx.map fun (it, rank) =>
        searchResult req.origin rank it
      pure (okReply env.id .vaultSearch (.object [("items", .array found)]))

/-- `Map::insert` on a map ordered by key. -/
def insertField (out : List (String × Json)) (name : String) (value : Json) :
    List (String × Json) :=
  (out.filter fun e => decide (e.1 < name)) ++ (name, value) ::
    out.filter fun e => decide (name < e.1)

/-- The loop of `fields` over the requested names. -/
def releasedFields (item : Item) : List String → List (String × Json) →
    Command (List (String × Json))
  | [], out => pure out
  | "username" :: rest, out =>
      releasedFields item rest ((itemUsername item).elim out fun u =>
        insertField out "username" (.string u))
  | "password" :: rest, out =>
      releasedFields item rest ((itemPassword item).elim out fun p =>
        insertField out "password" (.string p))
  | "totp" :: rest, out => do
      let code ← itemTotpCode c item
      releasedFields item rest (code.elim out fun t => insertField out "totp" (.string t))
  | _ :: rest, out => releasedFields item rest out

def fields (vk : Key) (env : NmEnvelope) : Command NmEnvelope := do
  match payloadOf VaultFieldsGetRequest.parse env with
  | .error reply => pure reply
  | .ok req => do
      match ← lookup c vk req.id with
      | .error e => pure (errorReply env e.1 e.2)
      | .ok item =>
          -- never leak to another origin
          if originMatches c.parseUrl item.urls req.origin then do
            let out ← releasedFields c item req.fields []
            pure (okReply env.id .vaultFieldsGet (.object [("fields", .object out)]))
          else pure (errorReply env .badOrigin "origin does not match this item")

def totp (vk : Key) (env : NmEnvelope) : Command NmEnvelope := do
  match payloadOf TotpGetRequest.parse env with
  | .error reply => pure reply
  | .ok req => do
      match ← lookup c vk req.id with
      | .error e => pure (errorReply env e.1 e.2)
      | .ok item =>
          if originMatches c.parseUrl item.urls req.origin then do
            match ← itemTotpCode c item with
            | some code => pure (okReply env.id .vaultTotpGet (.object [("code", .string code)]))
            | none => pure (errorReply env .notFound "item has no TOTP")
          else pure (errorReply env .badOrigin "origin does not match this item")

def generate (id : String) : Command NmEnvelope := do
  let drawn ← sys (.random 20)
  match c.generatorPassword drawn.1 with
  | some password =>
      pure (okReply id .vaultGenerate (.object [("password", .string password)]))
  | none => pure { id := id, kind := .vaultGenerate, ok := some false,
                   err := some ⟨.internal, "generate failed"⟩ }

/-- `Item::new_login`. -/
def newLogin (id : ItemId) (title : String) (now : Int) : Item where
  id := id
  itemType := .login
  title := title
  tags := []
  urls := []
  notes := none
  customFields := []
  login := some {}
  card := none
  identity := none
  passkey := none
  createdAt := now
  updatedAt := now
  passwordChangedAt := some now

/-- The stored login that `save_candidate` updates. -/
def candidateOf (items : List Item) (req : SaveCandidateRequest) : Option Item :=
  items.find? fun it => decide (it.itemType = .login) && originMatches c.parseUrl it.urls req.origin
    && decide ((itemUsername it).getD "" = req.username)

/-- The stored login with the new password. -/
def candidateUpdated (it : Item) (req : SaveCandidateRequest) (now : Int) : Item :=
  { it with
    login := some { it.login.getD {} with password := some req.password }
    updatedAt := now
    passwordChangedAt := some now }

/-- A new login for the origin. -/
def candidateCreated (id : ItemId) (req : SaveCandidateRequest) (now : Int) : Item :=
  { newLogin id (if Api.trim req.title = "" then hostOf req.origin else req.title) now with
    urls := [{ url := req.origin, mode := .domain }]
    login := some
      { username := if req.username = "" then none else some req.username
        password := some req.password } }

def savedReply (env : NmEnvelope) (action : String) (id : ItemId) : NmEnvelope :=
  okReply env.id .vaultSaveCandidate (.object
    [("action", .string action), ("id", .string (uuidText id)), ("saved", .bool true)])

def saveCandidate (vk : Key) (env : NmEnvelope) : Command NmEnvelope := do
  match payloadOf SaveCandidateRequest.parse env with
  | .error reply => pure reply
  | .ok req =>
      if req.password = "" then pure (errorReply env .badRequest "no password to save")
      else do
        let now ← sys .clock
        let items ← loadItems c vk
        match candidateOf c items req with
        | some it =>
            -- nothing changed: no redundant write
            if itemPassword it = some req.password then pure (savedReply env "unchanged" it.id)
            else fileItem c vk env (candidateUpdated it req now) (savedReply env "updated" it.id)
        | none => do
            let id ← newUuid
            fileItem c vk env (candidateCreated id req now) (savedReply env "created" id)

/-- `mint_passkey`. -/
def mintPasskey (req : PasskeyRegisterReq) (userHandle scalar credential : Bytes) : Passkey where
  rpId := req.rpId
  rpName := req.rpName
  userName := req.userName
  userDisplayName := req.userDisplayName
  userHandle := urlSafeEncode userHandle
  credentialId := urlSafeEncode credential
  privateKey := Base64.encode (c.signingScalar scalar)
  algorithm := -7
  signCount := 0

/-- The item of a new passkey. -/
def passkeyItem (id : ItemId) (req : PasskeyRegisterReq) (pk : Passkey) (now : Int) : Item :=
  { newLogin id (req.userName ++ " @ " ++ req.rpId) now with
    itemType := .passkey
    login := none
    passwordChangedAt := none
    urls := [{ url := req.origin, mode := .domain }]
    passkey := some pk }

def passkeyRegister (vk : Key) (env : NmEnvelope) : Command NmEnvelope := do
  match payloadOf PasskeyRegisterReq.parse env with
  | .error reply => pure reply
  | .ok req =>
      if rpIdMatchesOrigin req.rpId req.origin then
        match c.urlSafeDecode req.userHandleB64u with
        | none => pure (errorReply env .badRequest "bad user handle")
        | some userHandle => do
            let scalar ← sys (.random 32)
            let credential ← sys (.random 16)
            let pk := mintPasskey c req userHandle scalar.1 credential.1
            match c.registrationAttestation pk with
            | .error _ => pure (errorReply env .internal "attestation failed")
            | .ok (authData, attestation) => do
                let now ← sys .clock
                let id ← newUuid
                fileItem c vk env (passkeyItem id req pk now)
                  (okReply env.id .vaultPasskeyRegister (.object
                    [("attestationObjectB64u", .string (urlSafeEncode attestation)),
                     ("authenticatorDataB64u", .string (urlSafeEncode authData)),
                     ("credentialIdB64u", .string pk.credentialId)]))
      else pure (errorReply env .badOrigin "rpId is not valid for this origin")

/-- The passkey that `passkey_assert` uses: the newest of the RP that the page allows. -/
def passkeyCandidate (items : List Item) (req : PasskeyAssertReq) : Option (Item × Passkey) :=
  let candidates := items.filter fun it => decide (it.itemType = .passkey) &&
    it.passkey.any fun p => decide (p.rpId = req.rpId) &&
      (req.allowCredentialIdsB64u.isEmpty || decide (p.credentialId ∈ req.allowCredentialIdsB64u))
  (candidates.mergeSort fun a b => decide (b.updatedAt ≤ a.updatedAt)).head?.bind fun it =>
    it.passkey.map fun pk => (it, pk)

/-- The passkey with its counter raised. -/
def countedUp (pk : Passkey) : Passkey := { pk with signCount := (pk.signCount + 1) % 2 ^ 32 }

/-- Persist the counter, as far as that works. -/
def persistCounter (vk : Key) (item : Item) : Command Unit := do
  match ← sessionSeal c.toSuite (some vk) item with
  | .error _ => pure ()
  | .ok sealed_ => do
      let _ ← sys (.upsert sealed_)
      pure ()

def passkeyAssert (vk : Key) (env : NmEnvelope) : Command NmEnvelope := do
  match payloadOf PasskeyAssertReq.parse env with
  | .error reply => pure reply
  | .ok req =>
      if rpIdMatchesOrigin req.rpId req.origin then do
        let items ← loadItems c vk
        match passkeyCandidate items req with
        | none => pure (errorReply env .notFound "no passkey for this site")
        | some (item, stored) =>
            let pk := countedUp stored
            match c.assertion pk pk.signCount (Api.utf8 req.clientDataJson) with
            | .error _ => pure (errorReply env .internal "assertion failed")
            | .ok (authData, signature) => do
                let now ← sys .clock
                persistCounter c vk { item with passkey := some pk, updatedAt := now }
                pure (okReply env.id .vaultPasskeyAssert (.object
                  [("authenticatorDataB64u", .string (urlSafeEncode authData)),
                   ("credentialIdB64u", .string pk.credentialId),
                   ("signatureB64u", .string (urlSafeEncode signature)),
                   ("userHandleB64u", .string pk.userHandle)]))
      else pure (errorReply env .badOrigin "rpId is not valid for this origin")

/-- A request for credentials: with a key it is served, without one it is `LOCKED`. -/
def credential (serve : Key → NmEnvelope → Command NmEnvelope) (host : Option Key)
    (env : NmEnvelope) : Command NmEnvelope :=
  match host with
  | none => pure (NmEnvelope.locked env.id)
  | some vk => serve vk env

/-- `handle`: route one request. -/
def handle (host : Option Key) (env : NmEnvelope) : Command NmEnvelope :=
  match env.kind with
  | .hello => pure (hello c host env.id)
  | .vaultSearch => credential (search c) host env
  | .vaultFieldsGet => credential (fields c) host env
  | .vaultTotpGet => credential (totp c) host env
  | .vaultGenerate => generate c env.id
  | .vaultSaveCandidate => credential (saveCandidate c) host env
  | .vaultPasskeyRegister => credential (passkeyRegister c) host env
  | .vaultPasskeyAssert => credential (passkeyAssert c) host env
  | .statusSubscribe | .statusEvent | .lockEvent =>
      pure (errorReply env .badRequest "unsupported request")

end Handlers

end Sentinel.Desktop
