import Jolt.Core.EncryptedObject
import Jolt.Core.Sample
import Jolt.Lib.Runs
import Jolt.Network.DeviceWriterCache

/-! # Identity import

The import of a recovery bundle (`export_bundle.rs`, `identity_recovery.rs`) and what the next start
of the node does with the files that it leaves (`keypair.rs`, `encryption.rs`). A bundle holds the
signing key of an identity and its encryption key pairs, of which there may be none. The import
replaces the signing key, and the encryption key pair if the bundle brings one. The start refuses an
encryption key pair of another identity.

So an import leaves a node that starts exactly if the bundle brings a key pair, or the stored one is
of the imported identity, or there is none (`startable_after_imports_iff`). -/

namespace Jolt.Server.IdentityRecovery

open Lib.Checks Lib.Runs Jolt.Core Jolt.Core.Types Address SignedRecords EncryptedObject
  Network.DeviceWriterCache List

/-! ### Bundles -/

def magic : String := "jolt.identity.export"
def plaintextType : String := "jolt.identity.export.plaintext"
def version : UInt16 := 1
def kdfName : String := "argon2id"
def cipherName : String := "xchacha20poly1305"
def saltLen : ℕ := 16
def nonceLen : ℕ := 24
def maxKdfMemoryKib : UInt32 := 65536
def maxKdfIterations : UInt32 := 3
def maxKdfParallelism : UInt32 := 1

structure IdentityExportKdfParams where
  memoryKib : UInt32
  iterations : UInt32
  parallelism : UInt32
deriving DecidableEq

structure IdentityExportKdf where
  name : String
  params : IdentityExportKdfParams
  salt : String

structure IdentityExportCipher where
  name : String
  nonce : String

/-- The time of the export is not read by the import. -/
structure IdentityExportBundle where
  magic : String
  version : UInt16
  kdf : IdentityExportKdf
  cipher : IdentityExportCipher
  identity : String
  ciphertext : String

structure ExportedIdentity where
  id : String
  address : String
  publicKeyEd25519 : String
  secretKeyEd25519 : String

/-- `ExportedIdentityEncryptionKeypair`, and `LocalIdentityEncryptionKeypair`, which has the same
fields. -/
structure EncryptionKeypair where
  publicKey : IdentityEncryptionKey
  privateKey : IdentityEncryptionPrivateKey
deriving DecidableEq

/-- What is encrypted. The description of its source is not read by the import. -/
structure IdentityExportPlaintext where
  type : String
  version : UInt16
  identity : ExportedIdentity
  identityEncryptionKeys : List EncryptionKeypair

inductive IdentityExportError where
  | unsupportedBundle
  | unsupportedProtection
  | invalidEncoding (message : String)
  | decryptionFailed
  | invalidPlaintext (message : String)
  | kdfFailed

inductive IdentityError where
  | keyNotFound (path : String)
  | invalidKey (message : String)
  | io (message : String)

def IdentityError.toString : IdentityError → String
  | keyNotFound path => s!"Key not found at: {path}"
  | invalidKey message => s!"Invalid key: {message}"
  | io message => s!"IO error: {message}"

structure ExportCrypto where
  /-- `BASE64URL_NOPAD.decode`, with the text of its errors. -/
  decode : String → Except String Bytes
  /-- Whether `argon2::Params::new` takes the parameters. -/
  paramsAccepted : IdentityExportKdfParams → Bool
  /-- `Argon2::hash_password_into`: parameters, passphrase, salt. -/
  argon2id : IdentityExportKdfParams → Bytes → Bytes → Option Bytes32
  /-- `XChaCha20Poly1305::decrypt`: key, nonce, message, associated data. -/
  decrypt : Bytes32 → Bytes → Bytes → Bytes → Option Bytes
  /-- `serde_json::from_slice`, with the text of its errors. -/
  fromSlice : Bytes → Except String IdentityExportPlaintext

/-! ### The identity of a node -/

structure NodeIdentity where
  signingKey : Bytes32

namespace NodeIdentity

def fromSigningKeyBytes (bytes : Bytes) : Except IdentityError NodeIdentity :=
  (okOr (Bytes32.ofBytes? bytes) (.invalidKey "key must be 32 bytes")).map (⟨·⟩)

variable (P : Primitives) (identity : NodeIdentity)

def publicKeyBytes : Bytes32 := P.verifyingKey identity.signingKey

def identityId : IdentityId := .fromPublicKey (identity.publicKeyBytes P)

/-- The text of `jolt_address`, the root address. -/
def address : String := JoltAddress.toString P ⟨identity.identityId P, "/"⟩

end NodeIdentity

/-! ### Decryption -/

section

variable (P : Primitives) (C : ExportCrypto) (plaintext : IdentityExportPlaintext)

def decode (value : String) : Except IdentityExportError Bytes :=
    (C.decode value).mapError .invalidEncoding

def deriveKey (passphrase : String) (salt : Bytes) (params : IdentityExportKdfParams) :
    Except IdentityExportError Bytes32 := do
  ensure (C.paramsAccepted params = true) .unsupportedProtection
  okOr (C.argon2id params (asBytes passphrase) salt) .kdfFailed

def associatedData (identity : String) : Bytes :=
  asBytes s!"{magic}\x00{version}\x00{identity}\x00{kdfName}\x00{cipherName}"

/-- The check of one key pair, for the identity of the signing key. -/
def validateKeypair (expectedId : IdentityId) (keypair : EncryptionKeypair) :
    Except IdentityExportError Unit := do
  ensure (keypair.publicKey.keyId = keypair.privateKey.keyId)
    (.invalidPlaintext "encryption key id mismatch")
  ensure (keypair.privateKey.identity = expectedId)
    (.invalidPlaintext "encryption private key identity mismatch")
  ensure (keypair.publicKey.suiteFamily = keypair.privateKey.suiteFamily)
    (.invalidPlaintext "encryption key suite mismatch")
  ensure (keypair.publicKey.publicKey.length = 32 ∧ keypair.privateKey.privateKey.length = 32)
    (.invalidPlaintext "encryption key material has invalid length")

def identityOf : Except IdentityExportError NodeIdentity := do
  let secret ← decode C plaintext.identity.secretKeyEd25519
  (NodeIdentity.fromSigningKeyBytes secret).mapError fun e => .invalidPlaintext e.toString

def validatePlaintext (expectedAddress : String) : Except IdentityExportError Unit := do
  ensure (plaintext.type = plaintextType ∧ plaintext.version = version)
    (.invalidPlaintext "unsupported plaintext type or version")
  let identity ← identityOf C plaintext
  let publicKey ← decode C plaintext.identity.publicKeyEd25519
  ensure (publicKey = (identity.publicKeyBytes P).bytes)
    (.invalidPlaintext "public key does not match signing secret")
  let expectedId := IdentityId.fromPublicKey (identity.publicKeyBytes P)
  ensure (plaintext.identity.id = P.identityToString expectedId ∧
      plaintext.identity.address = identity.address P ∧ plaintext.identity.address =
        expectedAddress)
    (.invalidPlaintext "identity id/address mismatch")
  plaintext.identityEncryptionKeys.forM (validateKeypair expectedId)

def decryptIdentityExport (bundle : IdentityExportBundle) (passphrase : String) :
    Except IdentityExportError IdentityExportPlaintext := do
  ensure (bundle.magic = magic ∧ bundle.version = version) .unsupportedBundle
  ensure (bundle.kdf.name = kdfName ∧ bundle.cipher.name = cipherName) .unsupportedProtection
  ensure (bundle.kdf.params.memoryKib ≤ maxKdfMemoryKib ∧ bundle.kdf.params.iterations ≤
    maxKdfIterations ∧
    bundle.kdf.params.parallelism ≤ maxKdfParallelism) .unsupportedProtection
  let salt ← decode C bundle.kdf.salt
  let nonce ← decode C bundle.cipher.nonce
  ensure (salt.length = saltLen ∧ nonce.length = nonceLen) .unsupportedProtection
  let ciphertext ← decode C bundle.ciphertext
  let key ← deriveKey C passphrase salt bundle.kdf.params
  let plaintextBytes ← okOr (C.decrypt key nonce ciphertext (associatedData bundle.identity))
    .decryptionFailed
  let plaintext ← (C.fromSlice plaintextBytes).mapError .invalidPlaintext
  validatePlaintext P C plaintext bundle.identity
  return plaintext

def identityFromExport : Except IdentityExportError NodeIdentity := do
  let identity ← identityOf C plaintext
  validatePlaintext P C plaintext (identity.address P)
  return identity

end

/-! ### Files -/

/-- What the import reads and writes: the bytes of `keypair.bin`, and the file of the encryption key
pair with what its JSON reads as. -/
structure Profile where
  keypairBin : Option Bytes
  encryptionKeypair : Option (Except String EncryptionKeypair)

/-- How the file operations of an import end. A write of `keypair.bin` that fails may leave anything
there. -/
structure Outcomes where
  keyRead : Except String Unit
  keyWritten : Except (String × Option Bytes) Unit
  /-- The public key file and the permissions, which come after the key. -/
  restWritten : Except String Unit
  keypairSaved : Except String Unit

namespace NodeIdentity

def load (profile : Profile) (read : Except String Unit) : Except IdentityError NodeIdentity :=
  match profile.keypairBin with
  | none => .error (.keyNotFound "keypair.bin")
  | some bytes => do
    read.mapError .io
    fromSigningKeyBytes bytes

def save (identity : NodeIdentity) (outcomes : Outcomes) (profile : Profile) :
    Except IdentityError Unit × Profile :=
  match outcomes.keyWritten with
  | .error (e, left) => (.error (.io e), { profile with keypairBin := left })
  | .ok () =>
    (outcomes.restWritten.mapError .io,
      { profile with keypairBin := some identity.signingKey.bytes })

end NodeIdentity

variable (P : Primitives) (profile : Profile)

/-- `load_persisted_local_encryption_key`. -/
def loadPersistedLocalEncryptionKey (identity : NodeIdentity) :
    Except NetworkError (Option EncryptionKeypair) :=
  match profile.encryptionKeypair with
  | none => .ok none
  | some (.error e) => .error (.protocol s!"Serialization error: {e}")
  | some (.ok keypair) => do
    ensure (keypair.publicKey.keyId = keypair.privateKey.keyId)
      (.protocol "local identity encryption keypair has mismatched key ids")
    ensure (keypair.privateKey.identity = identity.identityId P)
      (.protocol "local identity encryption private key belongs to a different identity")
    return some keypair

/-! ### Import -/

structure ImportIdentityRequest where
  passphrase : Option String
  bundle : IdentityExportBundle
  allowOverwrite : Bool

structure ImportIdentityResponse where
  identity : String
  imported : Bool
  restartRequired : Bool
  encryptionKeyCount : ℕ
  appSessionsImported : Bool

inductive IdentityRecoveryError where
  | bundle (error : IdentityExportError)
  | identity (error : IdentityError)
  | store (message : String)
  | wouldOverwrite (existing incoming : String)

def saveImportedEncryptionKeypairs (keypairs : List EncryptionKeypair) (outcomes : Outcomes)
    (profile : Profile) :
    Except IdentityRecoveryError Unit × Profile :=
  match keypairs.head? with
  | none => (.ok (), profile)
  | some keypair =>
    match outcomes.keypairSaved with
    | .error e => (.error (.store e), profile)
    | .ok () => (.ok (), { profile with encryptionKeypair := some (.ok keypair) })

/-- Another identity is replaced only if the request allows it. -/
def checkOverwrite (request : ImportIdentityRequest) (outcomes : Outcomes) (incoming : String) :
    Except IdentityRecoveryError Unit :=
  match NodeIdentity.load profile outcomes.keyRead with
  | .ok existing =>
    ensure (existing.address P = incoming ∨ request.allowOverwrite = true)
      (.wouldOverwrite (existing.address P) incoming)
  | .error _ => .ok ()

/-- The checks of an import, up to the first write: the identity and the key pairs that the bundle
brings. -/
def checkImport (C : ExportCrypto) (profile : Profile) (request : ImportIdentityRequest)
    (outcomes : Outcomes) :
    Except IdentityRecoveryError (NodeIdentity × List EncryptionKeypair) := do
  let plaintext ← (decryptIdentityExport P C request.bundle (request.passphrase.getD "")).mapError
    .bundle
  let identity ← (identityFromExport P C plaintext).mapError .bundle
  checkOverwrite P profile request outcomes (identity.address P)
  return (identity, plaintext.identityEncryptionKeys)

def importIdentity (C : ExportCrypto) (profile : Profile) (request : ImportIdentityRequest)
    (outcomes : Outcomes) :
    Except IdentityRecoveryError ImportIdentityResponse × Profile :=
  match checkImport P C profile request outcomes with
  | .error e => (.error e, profile)
  | .ok (identity, keypairs) =>
    match identity.save outcomes profile with
    | (.error e, profile) => (.error (.identity e), profile)
    | (.ok (), profile) =>
      match saveImportedEncryptionKeypairs keypairs outcomes profile with
      | (.error e, profile) => (.error e, profile)
      | (.ok (), profile) => (.ok ⟨identity.address P, true, true, keypairs.length, false⟩, profile)

/-! ### What an import leaves -/

/-- The files are those of an identity, and a node that starts with them loads its encryption key,
if there is one, which belongs to the identity. -/
def Startable : Prop :=
  ∃ identity, NodeIdentity.load profile (.ok ()) = .ok identity ∧
    ∃ loaded, loadPersistedLocalEncryptionKey P profile identity = .ok loaded

/-- The stored encryption key pair, if there is one, is of the identity. -/
def StoredFits (identity : NodeIdentity) : Prop :=
  ∀ stored, profile.encryptionKeypair = some stored →
    ∃ keypair, stored = .ok keypair ∧ keypair.publicKey.keyId = keypair.privateKey.keyId ∧
      keypair.privateKey.identity = identity.identityId P

variable {P : Primitives} {C : ExportCrypto} {profile profile' : Profile}
  {request : ImportIdentityRequest} {outcomes : Outcomes} {identity : NodeIdentity}
  {keypairs : List EncryptionKeypair} (letter : Char)

theorem loads_iff_storedFits :
    (∃ loaded, loadPersistedLocalEncryptionKey P profile identity = .ok loaded) ↔
      StoredFits P profile identity := by
  unfold loadPersistedLocalEncryptionKey StoredFits
  rcases profile.encryptionKeypair with - | (e | keypair)
  · simp
  · simp
  · simp only [bind_eq_ok, ensure_eq_ok, pure_eq_ok, Option.some.injEq]
    constructor
    · rintro ⟨loaded, -, hid, -, hidentity, -⟩ stored rfl
      exact ⟨keypair, rfl, hid, hidentity⟩
    · intro h
      obtain ⟨keypair', hsame, hid, hidentity⟩ := h _ rfl
      cases hsame
      exact ⟨_, (), hid, (), hidentity, rfl⟩

theorem load_of_keypairBin (h : profile.keypairBin = some identity.signingKey.bytes) :
    NodeIdentity.load profile (.ok ()) = .ok identity := by
  unfold NodeIdentity.load NodeIdentity.fromSigningKeyBytes Bytes32.ofBytes?
  rw [h]
  dsimp only
  rw [dif_pos identity.signingKey.length_bytes]
  rfl

theorem startable_iff (h : profile.keypairBin = some identity.signingKey.bytes) :
    Startable P profile ↔ StoredFits P profile identity := by
  unfold Startable
  rw [load_of_keypairBin h, ← loads_iff_storedFits]
  constructor
  · rintro ⟨identity', hidentity, hloads⟩
    cases hidentity
    exact hloads
  · intro hloads
    exact ⟨identity, rfl, hloads⟩

theorem fits_of_checkImport
    (h : checkImport P C profile request outcomes = .ok (identity, keypairs))
    {keypair : EncryptionKeypair} (hmem : keypair ∈ keypairs) :
    keypair.publicKey.keyId = keypair.privateKey.keyId ∧ keypair.privateKey.identity =
      identity.identityId P := by
  simp only [checkImport, bind_eq_ok, mapError_eq_ok, pure_eq_ok, Prod.mk.injEq] at h
  obtain ⟨plaintext, -, identity', hidentity, -, -, rfl, rfl⟩ := h
  simp only [identityFromExport, validatePlaintext, bind_eq_ok, pure_eq_ok] at hidentity
  obtain ⟨identity'', hof, _, ⟨_, -, checked, hof', _, -, _, -, _, -, hkeys⟩, rfl⟩ := hidentity
  obtain rfl : identity'' = checked := Except.ok.inj (hof.symm.trans hof')
  have hkeypair := forM_eq_ok_iff.mp hkeys keypair hmem
  simp only [validateKeypair, bind_eq_ok, ensure_eq_ok] at hkeypair
  obtain ⟨-, hid, -, hof, -⟩ := hkeypair
  exact ⟨hid, hof⟩

/-- If the bundle passes the checks, brings no key pair and its signing key is written, the stored
key pair is of its identity. -/
def KeyFits (P : Primitives) (C : ExportCrypto) (profile : Profile)
    (imported : ImportIdentityRequest × Outcomes) :
    Prop :=
  ∀ identity, checkImport P C profile imported.1 imported.2 = .ok (identity, []) →
    imported.2.keyWritten = .ok () → imported.2.restWritten = .ok () → StoredFits P profile identity

/-- An import that succeeds leaves a node that starts. -/
def LeavesStartable (P : Primitives) (C : ExportCrypto) (profile : Profile)
    (imported : ImportIdentityRequest × Outcomes) : Prop :=
  ∀ response, (importIdentity P C profile imported.1 imported.2).1 = .ok response →
    Startable P (importIdentity P C profile imported.1 imported.2).2

theorem leavesStartable_iff (imported : ImportIdentityRequest × Outcomes) :
    LeavesStartable P C profile imported ↔ KeyFits P C profile imported := by
  obtain ⟨request, outcomes⟩ := imported
  unfold LeavesStartable KeyFits importIdentity
  rcases hcheck : checkImport P C profile request outcomes with e | ⟨identity, keypairs⟩
  · simp
  unfold NodeIdentity.save
  rcases hkey : outcomes.keyWritten with ⟨e, left⟩ | u
  · simp
  rcases hrest : outcomes.restWritten with e | u
  · simp [Except.mapError]
  cases keypairs with
  | nil =>
    have hiff := @startable_iff P { profile with keypairBin := some identity.signingKey.bytes }
      identity rfl
    simp only [Except.mapError, saveImportedEncryptionKeypairs, head?_nil,
      Except.ok.injEq, forall_eq',
      Prod.mk.injEq, and_true, forall_const]
    exact hiff
  | cons keypair keypairs =>
    -- the key pair of the bundle takes the place of the stored one, and the checks say whose it is
    refine iff_of_true ?_ (by simp)
    rcases hsaved : outcomes.keypairSaved with e | u
    · simp [Except.mapError, saveImportedEncryptionKeypairs, hsaved]
    intro response hresponse
    obtain ⟨hid, hidentity⟩ := fits_of_checkImport hcheck (mem_cons_self)
    simp only [Except.mapError, saveImportedEncryptionKeypairs, head?_cons, hsaved]
    refine (startable_iff rfl).mpr ?_
    intro stored hstored
    cases hstored
    exact ⟨keypair, rfl, hid, hidentity⟩

def step (P : Primitives) (C : ExportCrypto) (profile : Profile)
    (imported : ImportIdentityRequest × Outcomes) :
    Profile :=
  (importIdentity P C profile imported.1 imported.2).2

/-- **After every import that succeeds the node starts with its encryption key**, in the sequences
of imports in which no bundle without key pairs meets a stored key pair of another identity, and
only in those. -/
theorem startable_after_imports_iff (P : Primitives) (C : ExportCrypto) (profile : Profile)
    (imports : List (ImportIdentityRequest × Outcomes)) :
    Along (step P C) (LeavesStartable P C) profile imports ↔ Along (step P C)
      (KeyFits P C) profile imports :=
  along_iff (I := fun _ => True) (fun _ _ _ _ => trivial)
    (fun _ imported _ => leavesStartable_iff imported) trivial

/-! ### A bundle without key pairs -/

/-- Letters for base64, a key derivation and a cipher that leave their input, and a reader that
knows one plaintext. -/
def sampleCrypto (plaintext : IdentityExportPlaintext) : ExportCrypto where
  decode text := .ok (asBytes text)
  paramsAccepted _ := true
  argon2id _ _ _ := some (Sample.key 0)
  decrypt _ _ message _ := some message
  fromSlice _ := .ok plaintext

def letterIdentity : NodeIdentity := ⟨⟨List.replicate 32 letter.toNat.toUInt8, length_replicate⟩⟩

def letterPlaintext (keypairs : List EncryptionKeypair) : IdentityExportPlaintext where
  type := plaintextType
  version := version
  identity :=
    { id := Sample.primitives.identityToString ((letterIdentity letter).identityId
      Sample.primitives)
      address := (letterIdentity letter).address Sample.primitives
      publicKeyEd25519 := String.ofList (List.replicate 32 letter)
      secretKeyEd25519 := String.ofList (List.replicate 32 letter) }
  identityEncryptionKeys := keypairs

def letterBundle : IdentityExportBundle where
  magic := magic
  version := version
  kdf := ⟨kdfName, ⟨65536, 3, 1⟩, "sixteen letters!"⟩
  cipher := ⟨cipherName, "twenty-four letters long"⟩
  identity := (letterIdentity letter).address Sample.primitives
  ciphertext := ""

def letterKeypair : EncryptionKeypair where
  publicKey := ⟨"enc_x25519_local_v0", keySuiteFamily, keyType, keyCurve, List.replicate 32 1, 0, 0,
    none, "active"⟩
  privateKey :=
    ⟨(letterIdentity letter).identityId Sample.primitives, "enc_x25519_local_v0", keySuiteFamily,
      List.replicate 32 2⟩

def letterProfile :
    Profile := ⟨some (letterIdentity letter).signingKey.bytes, some (.ok (letterKeypair letter))⟩

/-- Another identity is imported in the place of the stored one, without key pairs. The import
succeeds, the old key pair stays, and the node does not start any more. -/
theorem import_without_keys_blocks_start :
    let imported := importIdentity Sample.primitives (sampleCrypto (letterPlaintext 'b' []))
      (letterProfile 'a')
      ⟨none, letterBundle 'b', true⟩ ⟨.ok (), .ok (), .ok (), .ok ()⟩
    Startable Sample.primitives (letterProfile 'a') ∧ imported.1.isOk = true ∧
      ¬ Startable Sample.primitives imported.2 := by
  have hfile : ∀ profile : Profile, profile.keypairBin =
    some (letterIdentity 'b').signingKey.bytes →
      profile.encryptionKeypair = some (.ok (letterKeypair 'a')) →
        ¬ Startable Sample.primitives profile := by
    intro profile hkey hstored hstart
    obtain ⟨keypair, hsame, -, hidentity⟩ := (startable_iff hkey).mp hstart _ hstored
    cases hsame
    exact absurd hidentity (by decide)
  refine ⟨(startable_iff rfl).mpr ?_, by decide +kernel, hfile _ ?_ ?_⟩
  · intro stored hstored
    cases hstored
    exact ⟨_, rfl, rfl, rfl⟩
  · decide +kernel
  · decide +kernel

end Jolt.Server.IdentityRecovery
