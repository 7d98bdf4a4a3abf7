import Sentinel.Desktop.Recorded
import Sentinel.Phone.VaultCrypto

/-!
# What opens a wrapped key

Wrapped keys are a format in the sense of `Lib/Sealing`: the wrapper's type and the parameters are
the clear part, and the whole front of the blob is the associated data. With an ideal AEAD
`WrappedBlob::open` accepts what was sealed and nothing else.

A master-password wrapper is read in four places: by the wrapper itself, by
`sync.rs: enroll_login_verifier`, and by `passwordBlobSalt` and `unwrapPasswordBlob` of the phone.
They agree on its salt.
-/

namespace Sentinel.Desktop

open Vault

namespace WrapperType

theorem fromCode_eq_ok {b : UInt8} {w : WrapperType} : fromCode b = .ok w ↔ b = w.code := by
  constructor
  · intro read
    unfold fromCode at read
    split at read
    · cases read
      assumption
    · split at read
      · cases read
        assumption
      · split at read
        · cases read
          assumption
        · split at read
          · cases read
            assumption
          · cases read
  · rintro rfl
    exact fromCode_code w

end WrapperType

namespace WrappedBlob

/-- The length of the parameters that a blob announces. -/
def announced (b : Bytes) : Nat := leNat ((b.drop 6).take 2)

theorem announced_lt (b : Bytes) : announced b < 65536 := by
  have short : ((b.drop 6).take 2).length ≤ 2 := List.length_take_le 2 _
  calc announced b < 256 ^ ((b.drop 6).take 2).length := leNat_lt _
    _ ≤ 256 ^ 2 := Nat.pow_le_pow_right (by norm_num) short

/-- A front with the right magic, version and type is the header of its parameters. -/
theorem header_of_take {b : Bytes} {w : WrapperType} (long : 8 + announced b ≤ b.length)
    (magic : b.take 4 = wrapMagic) (version : b.getD 4 0 = 0x01) (kind : b.getD 5 0 = w.code) :
    header w ((b.take (8 + announced b)).drop 8) = b.take (8 + announced b) := by
  have params : ((b.take (8 + announced b)).drop 8).length = announced b := by
    rw [List.length_drop, List.length_take]
    omega
  have size : leBytes 2 (announced b) = (b.drop 6).take 2 := by
    have two : ((b.drop 6).take 2).length = 2 := by
      rw [List.length_take, List.length_drop]
      omega
    have whole := leBytes_leNat ((b.drop 6).take 2)
    rwa [two] at whole
  have middle : (b.drop 4).take 2 = [0x01, w.code] := by
    rw [List.getD_eq_getElem _ _ (by omega)] at version kind
    rw [List.drop_eq_getElem_cons (by omega), List.drop_eq_getElem_cons (by omega), version, kind]
    rfl
  have eight : b.take 8 = wrapMagic ++ [0x01, w.code] ++ (b.drop 6).take 2 := by
    have six : b.take (4 + 2) = b.take 4 ++ (b.drop 4).take 2 := List.take_add
    have rest : b.take (6 + 2) = b.take 6 ++ (b.drop 6).take 2 := List.take_add
    rw [rest, six, magic, middle]
  have front : (b.take (8 + announced b)).take 8 = b.take 8 := by
    rw [List.take_take, Nat.min_eq_left (by omega)]
  rw [header, params, size, ← eight, ← front, List.take_append_drop]

/-- What parses has the length that it announces, and is what its parts serialise to. -/
theorem parse_eq_ok {w : WrapperType} {b : Bytes} {parts : Parts} :
    parse ⟨w, b⟩ = .ok parts ↔ parts.params.length < 65536 ∧ parts.ct.length = 48 ∧
      parts.header = header w parts.params ∧
        header w parts.params ++ parts.nonce.bytes ++ parts.ct = b := by
  constructor
  · intro read
    unfold parse at read
    dsimp only at read
    split at read
    · cases read
    · split at read
      · cases read
      · split at read
        · cases read
        · rename_i short magic version
          obtain ⟨wt, kind, read⟩ := bind_ok_iff.mp read
          rw [WrapperType.fromCode_eq_ok] at kind
          rw [throw_ok_iff] at read
          obtain ⟨same, read⟩ := read
          rw [not_not] at same
          subst same
          split at read
          · rename_i exact_
            cases read
            have total : b.length = 8 + announced b + 24 + 48 := exact_
            have hdr := header_of_take (w := wt) (by omega) (not_not.mp magic) (not_not.mp version)
              kind
            refine ⟨?_, ?_, hdr.symm, ?_⟩
            · have bound := announced_lt b
              rw [List.length_drop, List.length_take]
              change min (8 + announced b) b.length - 8 < 65536
              omega
            · rw [List.length_drop]
              change b.length - (8 + announced b + 24) = 48
              omega
            · have back : b.drop (8 + announced b + 24) = (b.drop (8 + announced b)).drop 24 := by
                rw [List.drop_drop]
              change header wt ((b.take (8 + announced b)).drop 8) ++
                (b.drop (8 + announced b)).take 24 ++ b.drop (8 + announced b + 24) = b
              rw [hdr, back, List.append_assoc, List.take_append_drop, List.take_append_drop]
          · cases read
  · rintro ⟨short, ctLen, hdr, rfl⟩
    rw [parse_append w short parts.nonce ctLen, ← hdr]

theorem announced_header (w : WrapperType) {params : Bytes} (short : params.length < 65536)
    (rest : Bytes) : announced (header w params ++ rest) = params.length := by
  have field : ((header w params ++ rest).drop 6).take 2 = leBytes 2 params.length := by
    rw [header_eq]
    simp only [List.drop_succ_cons, List.drop_zero, List.append_assoc]
    exact List.take_left' (length_leBytes 2 params.length)
  rw [announced, field, leNat_leBytes]
  exact Nat.mod_eq_of_lt short

/-- The parts of a blob of whatever type its bytes name. -/
def split (b : Bytes) : Option ((WrapperType × Bytes) × Nonce24 × Bytes) :=
  match WrapperType.fromCode (b.getD 5 0) with
  | .ok w => match parse ⟨w, b⟩ with
    | .ok parts => some ((w, parts.params), parts.nonce, parts.ct)
    | .error _ => none
  | .error _ => none

theorem split_eq_some {b : Bytes} {p : WrapperType × Bytes} {nonce : Nonce24} {ct : Bytes} :
    split b = some (p, nonce, ct) ↔ (p.2.length < 65536 ∧ ct.length = 48) ∧
      header p.1 p.2 ++ nonce.bytes ++ ct = b := by
  constructor
  · intro cut
    unfold split at cut
    split at cut
    · split at cut
      · rename_i read
        obtain ⟨rfl, rest⟩ := Prod.mk.inj (Option.some.inj cut)
        obtain ⟨rfl, rfl⟩ := Prod.mk.inj rest
        obtain ⟨short, ctLen, -, whole⟩ := parse_eq_ok.mp read
        exact ⟨⟨short, ctLen⟩, whole⟩
      · cases cut
    · cases cut
  · rintro ⟨⟨short, ctLen⟩, rfl⟩
    have kind : (header p.1 p.2 ++ nonce.bytes ++ ct).getD 5 0 = p.1.code := by
      rw [List.append_assoc, header_eq]
      rfl
    rw [split, kind, WrapperType.fromCode_code]
    dsimp only
    rw [parse_append p.1 short nonce ctLen]

/-- `header | nonce(24) | ct(48)`. -/
def format : Sealing.Format Nonce24 Bytes (WrapperType × Bytes) where
  Fits p ct := p.2.length < 65536 ∧ ct.length = 48
  join p nonce ct := header p.1 p.2 ++ nonce.bytes ++ ct
  split := split
  split_iff _ _ _ _ := split_eq_some

theorem laid_format : format.Laid (fun p => header p.1 p.2) Nonce24.bytes 24 where
  join_eq _ _ _ := rfl
  mid_length := Nonce24.length
  mid_inj := nonce_bytes_injective
  rigid := by
    intro p p' ct ct' fits fits' same
    rw [fits.2, fits'.2] at same
    exact Nat.add_right_cancel same

section Open

variable {c : Suite} {log : Set Use}

/-- The use of the AEAD that seals a key. -/
def wrapUse (w : WrapperType) (kek : Key32) (params : Bytes) (nonce : Nonce24) (vk : Key) : Use :=
  ⟨kek, header w params, nonce, vk.bytes⟩

theorem sealKey_bytes (w : WrapperType) (kek : Key32) (params : Bytes) (nonce : Nonce24) (vk : Key) :
    (sealKey c w kek params nonce vk).bytes =
      format.sealAs c.aead (fun _ => kek) (fun p => header p.1 p.2) (w, params) nonce vk.bytes :=
  rfl

theorem fits_sealKey (ideal : c.toCrypto.Ideal log) (w : WrapperType) (kek : Key32) {params : Bytes}
    (short : params.length < 65536) (nonce : Nonce24) (vk : Key) :
    format.Fits (w, params) (c.aead.sealed kek (header w params) nonce vk.bytes) := by
  have tagged := ideal.seal_length kek (header w params) nonce vk.bytes
  rw [vk.length] at tagged
  exact ⟨short, tagged⟩

theorem openKey_of_parse {blob : WrappedBlob} {parts : Parts} (read : blob.parse = .ok parts)
    {kek : Key32} {vk : Key} : openKey c blob kek = .ok vk ↔
      c.aeadOpen kek parts.header parts.nonce parts.ct = some vk.bytes := by
  rw [openKey, read, bind_ok_iff]
  simp only [bind_ok_iff, elim_ok_iff, Except.ok.injEq, exists_eq_left']
  constructor
  · rintro ⟨pt, opened, whole⟩
    split at whole
    · cases whole
      exact opened
    · cases whole
  · intro opened
    refine ⟨vk.bytes, opened, ?_⟩
    rw [dif_pos vk.length]
    rfl

/-- What opens has the type it is taken for, and opens as a text of the format. -/
theorem openKey_eq_ok {w : WrapperType} {b : Bytes} {kek : Key32} {vk : Key} :
    openKey c ⟨w, b⟩ kek = .ok vk ↔ ∃ params nonce ct,
      (params.length < 65536 ∧ ct.length = 48) ∧ header w params ++ nonce.bytes ++ ct = b ∧
        c.aeadOpen kek (header w params) nonce ct = some vk.bytes := by
  constructor
  · intro opens
    obtain ⟨parts, read, -⟩ := bind_ok_iff.mp opens
    obtain ⟨short, ctLen, hdr, joined⟩ := parse_eq_ok.mp read
    have opened := (openKey_of_parse read).mp opens
    rw [hdr] at opened
    exact ⟨parts.params, parts.nonce, parts.ct, ⟨short, ctLen⟩, joined, opened⟩
  · rintro ⟨params, nonce, ct, ⟨short, ctLen⟩, rfl, opened⟩
    exact (openKey_of_parse (parse_append w short nonce ctLen)).mpr opened

theorem openAs_of_openKey {w : WrapperType} {b : Bytes} {kek : Key32} {vk : Key}
    (opens : openKey c ⟨w, b⟩ kek = .ok vk) :
    format.openAs c.aead (fun _ => kek) (fun p => header p.1 p.2) b = some vk.bytes := by
  obtain ⟨params, nonce, ct, fits, rfl, opened⟩ := openKey_eq_ok.mp opens
  exact (Sealing.Format.openAs_join (f := format) (p := (w, params)) fits).trans opened

/-- A wrapped key opens just if it was sealed: as its type and under the key it opens with. -/
theorem openKey_iff (ideal : c.toCrypto.Ideal log) {w : WrapperType} {b : Bytes} {kek : Key32}
    {vk : Key} : openKey c ⟨w, b⟩ kek = .ok vk ↔ ∃ params nonce, params.length < 65536 ∧
      wrapUse w kek params nonce vk ∈ log ∧ (sealKey c w kek params nonce vk).bytes = b := by
  rw [openKey_eq_ok]
  constructor
  · rintro ⟨params, nonce, ct, ⟨short, -⟩, rfl, opened⟩
    obtain ⟨mem, rfl⟩ := (ideal.opened_iff _ _ _ _ _).mp opened
    exact ⟨params, nonce, short, mem, rfl⟩
  · rintro ⟨params, nonce, short, mem, rfl⟩
    exact ⟨params, nonce, _, fits_sealKey ideal w kek short nonce vk, rfl, ideal.opened_sealed mem⟩

/-- A wrapped key opens as no other type and under no other key. -/
theorem openKey_of_ne (ideal : c.toCrypto.Ideal log) {w : WrapperType} {kek : Key32}
    {params : Bytes} (short : params.length < 65536) {nonce : Nonce24} {vk : Key}
    (mem : wrapUse w kek params nonce vk ∈ log) {w' : WrapperType} {kek' : Key32}
    (other : w' ≠ w ∨ kek' ≠ kek) (vk' : Key) :
    openKey c ⟨w', (sealKey c w kek params nonce vk).bytes⟩ kek' ≠ .ok vk' := by
  intro opens
  have fits := fits_sealKey ideal w kek short nonce vk
  obtain types | keys := other
  · obtain ⟨params', nonce', ct', fits', joined, -⟩ := openKey_eq_ok.mp opens
    have same : (w', params') = (w, params) ∧ _ ∧ _ :=
      Sealing.Format.join_inj (f := format) fits' fits joined
    exact types (congrArg Prod.fst same.1)
  · have shut : format.openAs c.aead (fun _ => kek') (fun p => header p.1 p.2)
        (format.sealAs c.aead (fun _ => kek) (fun p => header p.1 p.2) (w, params) nonce
          vk.bytes) = none := by
      refine Sealing.Format.openAs_of_ne ideal.toIdeal ?_ fits (.inl keys)
      exact mem
    rw [← sealKey_bytes, openAs_of_openKey opens] at shut
    cases shut

/-- A wrapped key does not open when one byte of it is changed. -/
theorem openKey_set (ideal : c.toCrypto.Ideal log) (fresh : Set.InjOn Sealing.Call.nonce log)
    {w : WrapperType} {kek : Key32} {params : Bytes} (short : params.length < 65536)
    {nonce : Nonce24} {vk : Key} (mem : wrapUse w kek params nonce vk ∈ log) {i : Nat} {x : UInt8}
    (changed : (sealKey c w kek params nonce vk).bytes.set i x ≠
      (sealKey c w kek params nonce vk).bytes) (w' : WrapperType) (kek' : Key32) (vk' : Key) :
    openKey c ⟨w', (sealKey c w kek params nonce vk).bytes.set i x⟩ kek' ≠ .ok vk' := by
  intro opens
  have shut : format.openAs c.aead (fun _ => kek') (fun p => header p.1 p.2)
      ((format.sealAs c.aead (fun _ => kek) (fun p => header p.1 p.2) (w, params) nonce
        vk.bytes).set i x) = none := by
    refine laid_format.openAs_set ideal.toIdeal fresh ?_ (fits_sealKey ideal w kek short nonce vk)
      (fun _ same => same) changed
    exact mem
  rw [← sealKey_bytes, openAs_of_openKey opens] at shut
  cases shut

end Open

end WrappedBlob

/-! ## Master passwords -/

namespace PasswordWrapper

/-- `PasswordWrapper::derive_kek`. -/
def deriveKek (c : Suite) (password : String) (salt : Bytes) : Key32 :=
  c.argon2idKek (Api.utf8 password) salt

/-- `PasswordWrapper::login_proof_from_kek`. -/
def loginProofFromKek (c : Suite) (kek : Key32) : Key32 := c.hkdf32 kek none .authLogin

/-- `PasswordWrapper::login_proof`. -/
def loginProof (c : Suite) (password : String) (salt : Bytes) : Key32 :=
  loginProofFromKek c (deriveKek c password salt)

/-- `PasswordWrapper::wrap`; the salt and the nonce are those the random source gave. -/
def wrap (c : Suite) (password : String) (salt : Bytes) (nonce : Nonce24) (vk : Key) : WrappedBlob :=
  WrappedBlob.sealKey c .password (deriveKek c password salt) salt nonce vk

end PasswordWrapper

/-- The body of `POST /auth/password/enroll`. -/
structure EnrollBody where
  saltB64 : String
  verifierB64 : String
  deriving DecidableEq, Repr

/-- The status of a response, and its text. -/
structure HttpStatus where
  code : Nat
  text : String
  deriving DecidableEq, Repr

/-- What `enroll_login_verifier` sends. -/
def enrollBody (c : Suite) (password : String) (blobBytes : Bytes) : Except String EnrollBody := do
  if blobBytes.length < 24 then throw "malformed wrapped-key blob"
  let salt := (blobBytes.drop 8).take 16
  let proof := PasswordWrapper.loginProof c password salt
  pure { saltB64 := Base64.encode salt, verifierB64 := Base64.encode proof }

/-- What `enroll_login_verifier` makes of the response. -/
def enrolled (status : HttpStatus) : Except String Unit :=
  if status.code = 404 then .error "this server predates master-password sign-in — update it"
  else if ¬ (200 ≤ status.code ∧ status.code < 300) then
    .error ("enroll verifier: HTTP " ++ status.text)
  else .ok ()

/-- `enroll_login_verifier`. -/
def enrollLoginVerifier (c : Suite) (authed : EnrollBody → Except String HttpStatus)
    (password : String) (blobBytes : Bytes) : Except String Unit := do
  let body ← enrollBody c password blobBytes
  let status ← authed body
  enrolled status

section Passwords

open Phone

variable {c : Suite}

/-- The two bytes of the length on the phone. -/
theorem announced_eq_sixteen {b : Bytes} (long : 8 ≤ b.length) :
    (b.getD 6 0).toNat ||| (b.getD 7 0).toNat <<< 8 = 16 ↔ WrappedBlob.announced b = 16 := by
  have field : (b.drop 6).take 2 = [b[6], b[7]] := by
    rw [List.drop_eq_getElem_cons (by omega), List.drop_eq_getElem_cons (by omega)]
    rfl
  have low : b[6].toNat < 2 ^ 8 := b[6].toNat_lt
  have joined := Nat.shiftLeft_add_eq_or_of_lt low b[7].toNat
  rw [WrappedBlob.announced, field, List.getD_eq_getElem _ _ (by omega),
    List.getD_eq_getElem _ _ (by omega), Nat.lor_comm, ← joined, Nat.shiftLeft_eq]
  simp only [leNat]
  omega

/-- A blob with a salt for the phone has 96 bytes, and the desktop parses it to that salt. -/
theorem parse_of_salt {b s : Bytes} (salt : VaultCrypto.passwordBlobSalt b = .ok s) :
    ∃ whole : b.length = 96, s = (b.drop 8).take 16 ∧ WrappedBlob.parse ⟨.password, b⟩ =
      .ok ⟨b.take 24, s, VaultCrypto.wrappedNonceAt b (by omega), b.drop 48⟩ := by
  unfold VaultCrypto.passwordBlobSalt at salt
  split at salt
  · rename_i good
    obtain ⟨total, magic, version, kind, size⟩ := good
    cases salt
    have sixteen := (announced_eq_sixteen (b := b) (by omega)).mp size
    have hdr := WrappedBlob.header_of_take (w := .password) (by omega) magic version kind
    have front : (b.take (8 + 16)).drop 8 = (b.drop 8).take 16 := by
      rw [List.drop_take, Nat.add_sub_cancel_left]
    rw [sixteen, front] at hdr
    have short : ((b.drop 8).take 16).length < 65536 := by
      rw [List.length_take, List.length_drop]
      omega
    have tail : (b.drop 48).length = 48 := by
      rw [List.length_drop]
      omega
    refine ⟨total, rfl, WrappedBlob.parse_eq_ok.mpr ⟨short, tail, hdr.symm, ?_⟩⟩
    have back : b.drop 48 = (b.drop 24).drop 24 := by rw [List.drop_drop]
    change WrappedBlob.header .password ((b.drop 8).take 16) ++ (b.drop 24).take 24 ++ b.drop 48 = b
    rw [hdr, back, List.append_assoc, List.take_append_drop, List.take_append_drop]
  · cases salt

theorem salt_of_parse {b : Bytes} {parts : WrappedBlob.Parts}
    (read : WrappedBlob.parse ⟨.password, b⟩ = .ok parts) (sixteen : parts.params.length = 16) :
    VaultCrypto.passwordBlobSalt b = .ok parts.params := by
  obtain ⟨short, ctLen, -, rfl⟩ := WrappedBlob.parse_eq_ok.mp read
  have total : (WrappedBlob.header .password parts.params ++ parts.nonce.bytes ++
      parts.ct).length = 8 + 16 + 24 + 48 := by
    rw [List.length_append, List.length_append, WrappedBlob.length_header, parts.nonce.length,
      ctLen, sixteen]
  have size := WrappedBlob.announced_header .password short (parts.nonce.bytes ++ parts.ct)
  rw [← List.append_assoc, sixteen] at size
  have field := (announced_eq_sixteen (by omega)).mpr size
  have front : (WrappedBlob.header .password parts.params).drop 8 = parts.params := by
    have eight : (wrapMagic ++ [0x01, WrapperType.password.code] ++
        leBytes 2 parts.params.length).length = 8 := by
      simp [wrapMagic]
    rw [WrappedBlob.header, List.drop_left' eight]
  have salt : ((WrappedBlob.header .password parts.params ++ parts.nonce.bytes ++
      parts.ct).drop 8).take 16 = parts.params := by
    rw [List.append_assoc, List.drop_append_of_le_length
      (by rw [WrappedBlob.length_header]; omega), front, List.take_left' sixteen]
  unfold VaultCrypto.passwordBlobSalt
  refine (if_pos ⟨total, ?_, ?_, ?_, field⟩).trans (congrArg Except.ok salt)
  · rw [List.append_assoc, WrappedBlob.header_eq]
    rfl
  · rw [List.append_assoc, WrappedBlob.header_eq]
    rfl
  · rw [List.append_assoc, WrappedBlob.header_eq]
    rfl

/-- What the enrollment sends is made of the salt that the phone takes. -/
theorem enrollLoginVerifier_of_salt {b s : Bytes} (salt : VaultCrypto.passwordBlobSalt b = .ok s)
    (authed : EnrollBody → Except String HttpStatus) (password : String) :
    enrollLoginVerifier c authed password b =
      authed ⟨Base64.encode s, Base64.encode (PasswordWrapper.loginProof c password s)⟩ >>=
        enrolled := by
  obtain ⟨whole, rfl, -⟩ := parse_of_salt salt
  have long : ¬ b.length < 24 := by omega
  rw [enrollLoginVerifier, enrollBody, if_neg long]
  rfl

/-- The desktop opens the blob under the key derived from that salt. -/
theorem passwordUnwrap_of_salt {b s : Bytes} (salt : VaultCrypto.passwordBlobSalt b = .ok s)
    (password : String) : passwordUnwrap c password ⟨.password, b⟩ =
      WrappedBlob.openKey c ⟨.password, b⟩ (PasswordWrapper.deriveKek c password s) := by
  obtain ⟨whole, rfl, read⟩ := parse_of_salt salt
  have sixteen : ¬ ((b.drop 8).take 16).length ≠ 16 := by
    rw [List.length_take, List.length_drop]
    omega
  rw [passwordUnwrap, read]
  exact if_neg sixteen

/-- The phone opens the blob as the desktop does. -/
theorem unwrapPasswordBlobKek_iff {b s : Bytes} (salt : VaultCrypto.passwordBlobSalt b = .ok s)
    {kek : Key32} {vk : Key} : VaultCrypto.unwrapPasswordBlobKek c.toCrypto b kek = .ok vk.bytes ↔
      WrappedBlob.openKey c ⟨.password, b⟩ kek = .ok vk := by
  obtain ⟨whole, rfl, read⟩ := parse_of_salt salt
  have tagged : ¬ (b.drop 48).length < 16 := by
    rw [List.length_drop]
    omega
  rw [WrappedBlob.openKey_of_parse read, VaultCrypto.unwrapPasswordBlobKek, salt]
  change (if long : 48 ≤ b.length then _ else _) = _ ↔
    c.aeadOpen kek (b.take 24) (VaultCrypto.wrappedNonceAt b (by omega)) (b.drop 48) = _
  rw [dif_pos (by omega), xchachaOpen, if_neg tagged]
  cases c.aeadOpen kek (b.take 24) (VaultCrypto.wrappedNonceAt b (by omega)) (b.drop 48) with
  | none =>
      constructor
      · intro opens
        cases opens
      · intro opens
        cases opens
  | some pt =>
      rw [Option.elim_some, Option.some.injEq]
      dsimp only
      constructor
      · intro opens
        split at opens
        · exact Except.ok.inj opens
        · cases opens
      · rintro rfl
        exact if_pos vk.length

theorem unwrapPasswordBlob_of_salt {b s : Bytes} (salt : VaultCrypto.passwordBlobSalt b = .ok s)
    (password : String) : VaultCrypto.unwrapPasswordBlob c b password =
      VaultCrypto.unwrapPasswordBlobKek c.toCrypto b (PasswordWrapper.deriveKek c password s) := by
  rw [VaultCrypto.unwrapPasswordBlob, salt]
  rfl

/-- The phone takes a salt just from what the desktop parses to a salt of sixteen bytes. -/
theorem passwordBlobSalt_iff {b s : Bytes} : VaultCrypto.passwordBlobSalt b = .ok s ↔
    s.length = 16 ∧ ∃ parts, WrappedBlob.parse ⟨.password, b⟩ = .ok parts ∧ parts.params = s := by
  constructor
  · intro salt
    obtain ⟨whole, rfl, read⟩ := parse_of_salt salt
    refine ⟨?_, _, read, rfl⟩
    rw [List.length_take, List.length_drop]
    omega
  · rintro ⟨sixteen, parts, read, rfl⟩
    exact salt_of_parse read sixteen

theorem passwordBlobSalt_wrap {log : Set Use} (ideal : c.toCrypto.Ideal log) (password : String)
    {salt : Bytes} (sixteen : salt.length = 16) (nonce : Nonce24) (vk : Key) :
    VaultCrypto.passwordBlobSalt (PasswordWrapper.wrap c password salt nonce vk).bytes =
      .ok salt := by
  have length : salt.length < 65536 := by omega
  obtain ⟨short, tagged⟩ := WrappedBlob.fits_sealKey ideal .password
    (PasswordWrapper.deriveKek c password salt) length nonce vk
  exact salt_of_parse (WrappedBlob.parse_append .password short nonce tagged) sixteen

end Passwords

/-- Wrapped keys open as they were sealed and as nothing else; what parses is what its parts
serialise to; and the four readers of a password wrapper take the salt it was sealed with. -/
theorem wrapped_key_blobs {c : Suite} {log : Set Use} (ideal : c.toCrypto.Ideal log) :
    (∀ w kek params nonce vk, params.length ≤ 65535 →
      WrappedBlob.wrapUse w kek params nonce vk ∈ log →
      ∀ blob, WrappedBlob.sealKey c w kek params nonce vk = blob →
        blob.openKey c kek = .ok vk ∧
        (∀ w' kek', w' ≠ w ∨ kek' ≠ kek → ∀ vk',
          WrappedBlob.openKey c ⟨w', blob.bytes⟩ kek' ≠ .ok vk') ∧
        (Set.InjOn Sealing.Call.nonce log → ∀ i x, blob.bytes.set i x ≠ blob.bytes →
          ∀ w' kek' vk', WrappedBlob.openKey c ⟨w', blob.bytes.set i x⟩ kek' ≠ .ok vk')) ∧
    (∀ w b kek vk, WrappedBlob.openKey c ⟨w, b⟩ kek = .ok vk ↔ ∃ params nonce,
      params.length ≤ 65535 ∧ WrappedBlob.wrapUse w kek params nonce vk ∈ log ∧
        (WrappedBlob.sealKey c w kek params nonce vk).bytes = b) ∧
    (∀ w b parts, WrappedBlob.parse ⟨w, b⟩ = .ok parts →
      b.length = 8 + WrappedBlob.announced b + 24 + 48 ∧
        parts.params.length = WrappedBlob.announced b ∧
          WrappedBlob.header w parts.params ++ parts.nonce.bytes ++ parts.ct = b) ∧
    (∀ b s, Phone.VaultCrypto.passwordBlobSalt b = .ok s ↔ s.length = 16 ∧ ∃ parts,
      WrappedBlob.parse ⟨.password, b⟩ = .ok parts ∧ parts.params = s) ∧
    (∀ b s password, Phone.VaultCrypto.passwordBlobSalt b = .ok s →
      ∀ kek, PasswordWrapper.deriveKek c password s = kek →
        passwordUnwrap c password ⟨.password, b⟩ =
          WrappedBlob.openKey c ⟨.password, b⟩ kek ∧
        Phone.VaultCrypto.unwrapPasswordBlob c b password =
          Phone.VaultCrypto.unwrapPasswordBlobKek c.toCrypto b kek ∧
        (∀ vk, Phone.VaultCrypto.unwrapPasswordBlobKek c.toCrypto b kek = .ok vk.bytes ↔
          WrappedBlob.openKey c ⟨.password, b⟩ kek = .ok vk) ∧
        ∀ authed, enrollLoginVerifier c authed password b =
          authed ⟨Base64.encode s,
            Base64.encode (Phone.VaultCrypto.loginProof c.toCrypto kek)⟩ >>= enrolled) ∧
    (∀ password salt nonce vk, salt.length = 16 →
      WrappedBlob.wrapUse .password (PasswordWrapper.deriveKek c password salt) salt nonce vk ∈ log →
      ∀ blob, PasswordWrapper.wrap c password salt nonce vk = blob →
        Phone.VaultCrypto.passwordBlobSalt blob.bytes = .ok salt ∧
        passwordUnwrap c password blob = .ok vk ∧
        Phone.VaultCrypto.unwrapPasswordBlob c blob.bytes password = .ok vk.bytes) := by
  refine ⟨?_, ?_, ?_, fun b s => passwordBlobSalt_iff, ?_, ?_⟩
  · rintro w kek params nonce vk short mem _ rfl
    have inside : params.length < 65536 := Nat.lt_succ_of_le short
    exact ⟨(WrappedBlob.openKey_iff ideal).mpr ⟨params, nonce, inside, mem, rfl⟩,
      fun w' kek' other => WrappedBlob.openKey_of_ne ideal inside mem other,
      fun fresh i x changed => WrappedBlob.openKey_set ideal fresh inside mem changed⟩
  · intro w b kek vk
    rw [WrappedBlob.openKey_iff ideal]
    simp only [Nat.lt_succ_iff]
  · intro w b parts read
    obtain ⟨short, ctLen, -, whole⟩ := WrappedBlob.parse_eq_ok.mp read
    have size := WrappedBlob.announced_header w short (parts.nonce.bytes ++ parts.ct)
    rw [← List.append_assoc, whole] at size
    refine ⟨?_, size.symm, whole⟩
    have total := congrArg List.length whole
    rw [List.length_append, List.length_append, WrappedBlob.length_header, parts.nonce.length,
      ctLen] at total
    rw [← total, size]
  · rintro b s password salt _ rfl
    exact ⟨passwordUnwrap_of_salt salt password, unwrapPasswordBlob_of_salt salt password,
      fun vk => unwrapPasswordBlobKek_iff salt,
      fun authed => enrollLoginVerifier_of_salt salt authed password⟩
  · rintro password salt nonce vk sixteen mem _ rfl
    have read := passwordBlobSalt_wrap ideal password sixteen nonce vk
    have opens : WrappedBlob.openKey c (PasswordWrapper.wrap c password salt nonce vk)
        (PasswordWrapper.deriveKek c password salt) = .ok vk :=
      (WrappedBlob.openKey_iff ideal).mpr ⟨salt, nonce, by omega, mem, rfl⟩
    refine ⟨read, (passwordUnwrap_of_salt read password).trans opens, ?_⟩
    rw [unwrapPasswordBlob_of_salt read, unwrapPasswordBlobKek_iff read]
    exact opens

/-- The two recorded password wrappers. -/
def wrapTable : List (Use × Bytes) := sampleRecords.seals.take 2

/-- The sample suite with an AEAD that opens the recorded texts only, and with the sign-in proof
of `correct horse`. -/
def wrapSuite : Suite where
  toCodec := { sampleSuite.toCodec with
    aeadSeal := (Sealing.Aead.recorded wrapTable spareText).sealed
    aeadOpen := (Sealing.Aead.recorded wrapTable spareText).opened
    hkdf32 := fun ikm salt info => if ikm = horseKek ∧ salt = none ∧ info = .authLogin then
        [237, 111, 240, 168, 236, 47, 56, 231, 217, 96, 180, 236, 171, 130, 62, 235, 117, 218, 37,
         113, 101, 39, 110, 15, 31, 16, 70, 46, 184, 103, 124, 38]
      else sampleSuite.hkdf32 ikm salt info }
  toTotpEngine := sampleSuite.toTotpEngine
  argon2idKek := sampleSuite.argon2idKek
  recoveryKitDecode := sampleSuite.recoveryKitDecode
  base64Error := sampleSuite.base64Error
  urlSafeDecode := sampleSuite.urlSafeDecode
  joinBundleFromJson := sampleSuite.joinBundleFromJson
  parseUuid := sampleSuite.parseUuid

theorem wrapTable_facts : wrapSuite.toCrypto.Ideal {call | ∃ ct, (call, ct) ∈ wrapTable} ∧
    Set.InjOn Sealing.Call.nonce {call : Use | ∃ ct, (call, ct) ∈ wrapTable} :=
  ⟨Crypto.ideal_of_recorded rfl (by decide +kernel) (by decide +kernel) (by decide +kernel),
    Sealing.Aead.nonce_injOn_recorded (by decide +kernel)⟩

theorem ideal_wrapSuite : wrapSuite.toCrypto.Ideal {call | ∃ ct, (call, ct) ∈ wrapTable} :=
  wrapTable_facts.1

theorem fresh_wrapTable :
    Set.InjOn Sealing.Call.nonce {call : Use | ∃ ct, (call, ct) ∈ wrapTable} :=
  wrapTable_facts.2

/-- The wrapper sealed under `correct horse` opens on both sides, and not with its first byte
changed. -/
theorem wrapped_key_blobs_horse :
    passwordUnwrap wrapSuite "correct horse" (PasswordWrapper.wrap wrapSuite "correct horse"
        (List.replicate 16 1) (nonceOf 2) sampleKey) = .ok sampleKey ∧
      Phone.VaultCrypto.unwrapPasswordBlob wrapSuite (PasswordWrapper.wrap wrapSuite
        "correct horse" (List.replicate 16 1) (nonceOf 2) sampleKey).bytes "correct horse" =
          .ok sampleKey.bytes ∧
      WrappedBlob.openKey wrapSuite ⟨.password, (PasswordWrapper.wrap wrapSuite "correct horse"
        (List.replicate 16 1) (nonceOf 2) sampleKey).bytes.set 0 0⟩ horseKek ≠ .ok sampleKey := by
  have mem : WrappedBlob.wrapUse .password
      (PasswordWrapper.deriveKek wrapSuite "correct horse" (List.replicate 16 1))
      (List.replicate 16 1) (nonceOf 2) sampleKey ∈ {call | ∃ ct, (call, ct) ∈ wrapTable} := by
    have kek : PasswordWrapper.deriveKek wrapSuite "correct horse" (List.replicate 16 1) =
        horseKek := by decide +kernel
    rw [kek]
    exact ⟨_, List.mem_cons_self⟩
  obtain ⟨opens, -, -, -, -, passwords⟩ := wrapped_key_blobs ideal_wrapSuite
  obtain ⟨-, desktop, phone⟩ := passwords "correct horse" (List.replicate 16 1) (nonceOf 2)
    sampleKey rfl mem _ rfl
  obtain ⟨-, -, altered⟩ := opens .password _ (List.replicate 16 1) (nonceOf 2) sampleKey
    (by decide) mem _ rfl
  exact ⟨desktop, phone, altered fresh_wrapTable 0 0 (by decide +kernel) .password horseKek
    sampleKey⟩

end Sentinel.Desktop
