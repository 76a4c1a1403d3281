import Jolt.Authority.Chain
import Jolt.Core.Sample

/-! # Which authority chains are accepted

`verifyIdentityAuthorityChain` is a loop with a table of devices and the hash of the record before.
Here the same is said of each record and the records before it, without a loop: it continues them
(`Continues`) and its body is one the code supports (`Supported`). A chain is accepted exactly if
all its records do (`verify_isOk_iff`). What an accepted chain says of a device is read off two of
its operations, the last one on the device and the last one that authorizes it
(`lastWord_deviceOf`), and a valid operation appended to it is accepted (`exists_append`). -/

namespace Jolt.Authority.Accepted

open Std Lib.Checks Jolt.Core Jolt.Core.Types IdentityAuthority Chain List Option
open Sample (authorizeLaptop owner primitives revoke sign)

variable {P : Primitives} {identity : IdentityId} {records front : List DeviceAuthorizationRecord}
  {record : DeviceAuthorizationRecord} {authority : VerifiedIdentityAuthority}
  {operation : DeviceAuthorizationOperation} {body : DeviceAuthorizationRecordBody} {s : ChainState}
  {deviceId : String} {rootPublicKey : Bytes}

/-! ### Operations -/

def subject : DeviceAuthorizationOperation → String
  | .authorizeDevice deviceId .. => deviceId
  | .revokeDevice deviceId .. => deviceId

def isAuthorization : DeviceAuthorizationOperation → Bool
  | .authorizeDevice .. => true
  | .revokeDevice .. => false

/-- Signing and encryption keys have 32 bytes. -/
def WellFormedKeys : DeviceAuthorizationOperation → Prop
  | .authorizeDevice _ deviceSigningPublicKey deviceEncryptionKeys _ _ _ =>
    deviceSigningPublicKey.length = 32 ∧ ∀ key ∈ deviceEncryptionKeys, key.publicKey.length = 32
  | .revokeDevice .. => True

/-- A revocation names a device that one of the records `front` authorizes. -/
def RevokesKnown (front : List DeviceAuthorizationRecord)
    (operation : DeviceAuthorizationOperation) : Prop :=
  isAuthorization operation = false → ∃ key, Authorizes front (subject operation) key

theorem validateOperation_eq_ok_iff : validateOperation operation = .ok () ↔
      WellFormedKeys operation ∧ trimIsEmpty (subject operation) = false := by
  cases operation with
  | authorizeDevice deviceId key encryptionKeys capabilities label createdAt =>
    simp only [validateOperation, validateDeviceId, validateDeviceSigningPublicKey,
      validateDeviceEncryptionKey, bind_eq_ok, ensure_eq_ok, forM_eq_ok_iff,
        WellFormedKeys, subject]
    constructor
    · rintro ⟨_, hid, _, hkey, hkeys⟩
      exact ⟨⟨hkey, hkeys⟩, hid⟩
    · rintro ⟨⟨hkey, hkeys⟩, hid⟩
      exact ⟨(), hid, (), hkey, hkeys⟩
  | revokeDevice deviceId cutoff reason createdAt =>
    simp [validateOperation, validateDeviceId, WellFormedKeys, subject]

theorem exists_applyOperation_iff {devices : ExtTreeMap String AuthorizedDevice} :
    (∃ devices', applyOperation devices operation = .ok devices') ↔
      validateOperation operation = .ok () ∧
        (isAuthorization operation = false → devices[subject operation]? ≠ none) := by
  cases operation with
  | authorizeDevice deviceId key encryptionKeys capabilities label createdAt =>
    simp only [applyOperation, validateOperation, bind_eq_ok, pure_eq_ok, isAuthorization]
    constructor
    · rintro ⟨_, _, hid, _, hkey, _, hkeys, -⟩
      exact ⟨⟨(), hid, (), hkey, hkeys⟩, by simp⟩
    · rintro ⟨⟨_, hid, _, hkey, hkeys⟩, -⟩
      exact ⟨_, (), hid, (), hkey, (), hkeys, rfl⟩
  | revokeDevice deviceId cutoff reason createdAt =>
    simp only [applyOperation, validateOperation, bind_eq_ok, pure_eq_ok, okOr_eq_ok,
      isAuthorization,
      subject, forall_const, ne_eq]
    constructor
    · rintro ⟨_, _, hid, device, hdevice, -⟩
      exact ⟨hid, by simp [hdevice]⟩
    · rintro ⟨hid, hknown⟩
      obtain ⟨device, hdevice⟩ := ne_none_iff_exists'.mp hknown
      exact ⟨_, (), hid, device, hdevice, rfl⟩

/-! ### A record and the records before it -/

/-- The record continues the records `front` of the identity: it is signed with the identity's root
key, has the next sequence and the hash of the record before, and its operation fits. -/
structure Continues (P : Primitives) (identity : IdentityId)
    (front : List DeviceAuthorizationRecord) (record : DeviceAuthorizationRecord) : Prop where
  identity_eq : record.body.identity = identity
  rootPublicKey_eq : record.body.rootPublicKey = identity.publicKey.bytes
  verifySignature : record.verifySignature P = .ok ()
  sequence_eq : record.body.sequence.toNat = front.length
  previousRecordHash_eq : record.body.previousRecordHash = front.getLast?.map (·.recordHash P)
  wellFormedKeys : WellFormedKeys record.body.operation
  revokesKnown : RevokesKnown front record.body.operation

/-- The body has the type and version of the format, and names a device. -/
structure Supported (body : DeviceAuthorizationRecordBody) : Prop where
  recordType_eq : body.recordType = recordType
  version_eq : body.version = recordVersion
  deviceId : trimIsEmpty (subject body.operation) = false

/-- A non-empty chain, every record of which continues the records before it. -/
def Chained (P : Primitives) (identity : IdentityId) (records : List DeviceAuthorizationRecord) :
    Prop :=
  records ≠ [] ∧ ∀ (i : ℕ) (hi : i < records.length), Continues P identity (records.take i)
    (records.get ⟨i, hi⟩)

theorem validateBody_eq_ok_iff : validateBody body = .ok () ↔
      body.rootPublicKey = body.identity.publicKey.bytes ∧ WellFormedKeys body.operation ∧
        Supported body := by
  simp only [validateBody, validateRootPublicKey, bind_eq_ok, ensure_eq_ok, okOr_eq_ok,
    validateOperation_eq_ok_iff]
  constructor
  · rintro ⟨_, htype, _, hversion, _, hlen, root, hroot, _, hid, hkeys, hdevice⟩
    rw [Bytes32.ofBytes?, dif_pos (show _ = 32 from hlen)] at hroot
    cases hroot
    refine ⟨?_, hkeys, ⟨htype, hversion, hdevice⟩⟩
    rw [← hid]
    rfl
  · rintro ⟨hroot, hkeys, ⟨htype, hversion, hdevice⟩⟩
    have hlen : body.rootPublicKey.length = 32 := by
      rw [hroot, body.identity.publicKey.length_bytes]
    refine ⟨(), htype, (), hversion, (), hlen, body.identity.publicKey, ?_, (), rfl, hkeys, hdevice⟩
    rw [Bytes32.ofBytes?, dif_pos hlen]
    exact congrArg some (Bytes32.ext hroot)

theorem verifyPosition_eq_ok_iff (hs : s.previousHash = front.getLast?.map (·.recordHash P)) :
    verifyPosition s front.length record = .ok () ↔ record.body.sequence.toNat = front.length ∧
        record.body.previousRecordHash = front.getLast?.map (·.recordHash P) := by
  unfold verifyPosition
  split_ifs with h0
  · obtain rfl := length_eq_zero_iff.mp h0
    simp [← UInt64.toNat_inj]
  · simp [hs]

/-! ### What the chain says of a device -/

theorem deviceStep_of_ne {known : Option AuthorizedDevice} (h : subject operation ≠ deviceId) :
    deviceStep deviceId known operation = known := by
  cases operation with
  | authorizeDevice id => exact if_neg h
  | revokeDevice id => exact if_neg h

theorem deviceOf_ne_none_iff : deviceOf records deviceId ≠ none ↔
    ∃ key, Authorizes records deviceId key := by
  constructor
  · intro h
    obtain ⟨device, hdevice⟩ := ne_none_iff_exists'.mp h
    exact ⟨_, authorizes_of_deviceOf hdevice⟩
  · rintro ⟨key, record, hmem, encryptionKeys, capabilities, label, createdAt, hop⟩
    induction records using List.reverseRecOn with
    | nil => simp at hmem
    | append_singleton records last ih =>
      rw [deviceOf_concat]
      rcases mem_append.mp hmem with hmem | hmem
      · exact isSome_iff_ne_none.mp (isSome_deviceStep (isSome_iff_ne_none.mpr (ih hmem))
          last.body.operation)
      · obtain rfl := mem_singleton.mp hmem
        simp [hop, deviceStep]

/-- The operations of the records on one device, in order. -/
def operationsOn (records : List DeviceAuthorizationRecord) (deviceId : String) :
    List DeviceAuthorizationOperation :=
  (records.map (·.body.operation)).filter (subject · = deviceId)

def statusAfter : DeviceAuthorizationOperation → AuthorizedDeviceStatus
  | .authorizeDevice .. => .active
  | .revokeDevice .. => .revoked

def cutoffAfter : DeviceAuthorizationOperation → Option UInt64
  | .authorizeDevice .. => none
  | .revokeDevice _ acceptedThroughDeviceSequence _ _ => acceptedThroughDeviceSequence

/-- The signing key and the encryption keys an operation gives. -/
def keysGiven : DeviceAuthorizationOperation → Option (Bytes × List DeviceEncryptionPublicKey)
  | .authorizeDevice _ deviceSigningPublicKey deviceEncryptionKeys _ _ _ =>
    some (deviceSigningPublicKey, deviceEncryptionKeys)
  | .revokeDevice .. => none

/-- The device as the last operation on it and the last one that gives it keys say. -/
structure LastWord (operations : List DeviceAuthorizationOperation) (device : AuthorizedDevice) :
    Prop where
  status_eq : operations.getLast?.map statusAfter = some device.status
  cutoff_eq : operations.getLast?.map cutoffAfter = some device.acceptedThroughDeviceSequence
  keys_eq : (operations.filterMap keysGiven).getLast? = some (device.signingPublicKey,
    device.encryptionKeys)

theorem operationsOn_concat (deviceId : String) : operationsOn (front ++ [record]) deviceId =
      if subject record.body.operation = deviceId then
        operationsOn front deviceId ++ [record.body.operation]
      else operationsOn front deviceId := by
  unfold operationsOn
  rw [map_append, filter_append, map_cons, map_nil]
  split_ifs with h
  · simp [h]
  · simp [h]

/-- **The last word on a device.** -/
theorem lastWord_deviceOf {device : AuthorizedDevice}
    (h : deviceOf records deviceId = some device) :
    LastWord (operationsOn records deviceId) device := by
  induction records using List.reverseRecOn generalizing device with
  | nil => simp [deviceOf] at h
  | append_singleton records record ih =>
    rw [deviceOf_concat] at h
    rw [operationsOn_concat]
    split_ifs with hsub
    · cases hop : record.body.operation with
      | authorizeDevice id key encryptionKeys capabilities label createdAt =>
        obtain rfl : id = deviceId := by simpa [hop, subject] using hsub
        rw [hop, deviceStep, if_pos rfl] at h
        cases h
        constructor <;> simp [statusAfter, cutoffAfter, keysGiven]
      | revokeDevice id cutoff reason createdAt =>
        obtain rfl : id = deviceId := by simpa [hop, subject] using hsub
        rw [hop, deviceStep, if_pos rfl] at h
        obtain ⟨before, hbefore, rfl⟩ := map_eq_some_iff.mp h
        -- A revocation gives no keys: those of the device before stay.
        have hkeys := (ih hbefore).keys_eq
        constructor
        · simp [statusAfter]
        · simp [cutoffAfter]
        · simpa [keysGiven] using hkeys
    · rw [deviceStep_of_ne hsub] at h
      exact ih h

/-! ### The loop -/

theorem previousHash_verifyRecords
    (h : verifyRecords P identity rootPublicKey ⟨∅, none⟩ 0 records = .ok s) :
    s.previousHash = records.getLast?.map (·.recordHash P) := by
  induction records using List.reverseRecOn with
  | nil =>
    cases h
    rfl
  | append_singleton records record ih =>
    obtain ⟨s', -, h⟩ := verifyRecords_append.mp h
    simp only [verifyRecords, verifyRecord, bind_eq_ok, pure_eq_ok] at h
    obtain ⟨_, ⟨_, -, _, -, _, -, _, -, _, -, devices, -, rfl⟩, h⟩ := h
    cases h
    simp

/-- One turn of the loop after the records `front` passes exactly if the record continues them and
is supported. -/
theorem exists_verifyRecord_iff
    (h : verifyRecords P identity identity.publicKey.bytes ⟨∅, none⟩ 0 front = .ok s) :
    (∃ s', verifyRecord P identity identity.publicKey.bytes s front.length record = .ok s') ↔
      Continues P identity front record ∧ Supported record.body := by
  have hdevices : s.devices[subject record.body.operation]? ≠ none ↔
      ∃ key, Authorizes front (subject record.body.operation) key := by
    rw [getElem?_verifyRecords h, ExtTreeMap.getElem?_empty]
    exact deviceOf_ne_none_iff
  simp only [verifyRecord, bind_eq_ok, pure_eq_ok, ensure_eq_ok]
  constructor
  · rintro ⟨_, _, hbody, _, hid, _, hroot, _, hsig, _, hpos, devices, happly, -⟩
    obtain ⟨-, hkeys, hsupported⟩ := validateBody_eq_ok_iff.mp hbody
    obtain ⟨hseq, hprev⟩ := (verifyPosition_eq_ok_iff (previousHash_verifyRecords h)).mp hpos
    obtain ⟨-, hknown⟩ := exists_applyOperation_iff.mp ⟨devices, happly⟩
    exact ⟨⟨hid, hroot, hsig, hseq, hprev, hkeys, fun hop => hdevices.mp (hknown hop)⟩, hsupported⟩
  · rintro ⟨⟨hid, hroot, hsig, hseq, hprev, hkeys, hknown⟩, hsupported⟩
    have hbody : validateBody record.body = .ok () :=
      validateBody_eq_ok_iff.mpr ⟨by rw [hroot, hid], hkeys, hsupported⟩
    have hvalid : validateOperation record.body.operation = .ok () :=
      validateOperation_eq_ok_iff.mpr ⟨hkeys, hsupported.deviceId⟩
    obtain ⟨devices, happly⟩ := exists_applyOperation_iff.mpr ⟨hvalid, fun hop =>
      hdevices.mpr (hknown hop)⟩
    exact ⟨_, (), hbody, (), hid, (), hroot, (), hsig, (),
      (verifyPosition_eq_ok_iff (previousHash_verifyRecords h)).mpr ⟨hseq, hprev⟩,
        devices, happly, rfl⟩

/-- A property of every record and the records before it, over a chain with one record more. -/
theorem forall_take_concat {C : List DeviceAuthorizationRecord → DeviceAuthorizationRecord → Prop} :
    (∀ (i : ℕ) (hi : i < (front ++ [record]).length),
        C ((front ++ [record]).take i) ((front ++ [record]).get ⟨i, hi⟩)) ↔
      (∀ (i : ℕ) (hi : i < front.length), C (front.take i) (front.get ⟨i, hi⟩)) ∧
        C front record := by
  constructor
  · intro h
    refine ⟨fun i hi => ?_, ?_⟩
    · have hi' := h i (by simp; omega)
      rwa [take_append_of_le_length hi.le, get_eq_getElem, getElem_append_left hi] at hi'
    · have hlast := h front.length (by simp)
      simpa using hlast
  · rintro ⟨hfront, hlast⟩ i hi
    rcases Nat.lt_or_ge i front.length with hlt | hge
    · rw [take_append_of_le_length hlt.le, get_eq_getElem, getElem_append_left hlt]
      exact hfront i hlt
    · obtain rfl : i = front.length := by
        simp only [length_append, length_singleton] at hi
        omega
      simpa using hlast

theorem exists_verifyRecords_iff :
    (∃ s, verifyRecords P identity identity.publicKey.bytes ⟨∅, none⟩ 0 records = .ok s) ↔
      ∀ (i : ℕ) (hi : i < records.length), Continues P identity (records.take i)
        (records.get ⟨i, hi⟩) ∧
          Supported (records.get ⟨i, hi⟩).body := by
  induction records using List.reverseRecOn with
  | nil => simp [verifyRecords]
  | append_singleton records record ih =>
    rw [forall_take_concat (C := fun front record =>
      Continues P identity front record ∧ Supported record.body), ← ih]
    simp only [verifyRecords_append, verifyRecords, bind_eq_ok, Nat.zero_add]
    constructor
    · rintro ⟨_, s, hs, s', hs', -⟩
      exact ⟨⟨s, hs⟩, (exists_verifyRecord_iff hs).mp ⟨s', hs'⟩⟩
    · rintro ⟨⟨s, hs⟩, hrecord⟩
      obtain ⟨s', hs'⟩ := (exists_verifyRecord_iff hs).mpr hrecord
      exact ⟨s', s, hs, s', hs', rfl⟩

/-! ### Chains -/

theorem rootPublicKey_of_verifyRecords {first : DeviceAuthorizationRecord}
    {rest : List DeviceAuthorizationRecord}
    (h : verifyRecords P identity rootPublicKey ⟨∅, none⟩ 0 (first :: rest) = .ok s) :
    first.body.rootPublicKey = identity.publicKey.bytes := by
  simp only [verifyRecords, verifyRecord, bind_eq_ok, ensure_eq_ok] at h
  obtain ⟨_, ⟨_, hbody, _, hid, -⟩, -⟩ := h
  rw [(validateBody_eq_ok_iff.mp hbody).1, hid]

/-- **Which chains are accepted.** -/
theorem verify_isOk_iff :
    (∃ authority, verifyIdentityAuthorityChain P identity records = .ok authority) ↔
      Chained P identity records ∧ ∀ record ∈ records, Supported record.body := by
  have hsplit : (Chained P identity records ∧ ∀ record ∈ records, Supported record.body) ↔
      records ≠ [] ∧ ∃ s, verifyRecords P identity identity.publicKey.bytes ⟨∅, none⟩ 0 records =
        .ok s := by
    rw [exists_verifyRecords_iff, Chained, and_assoc]
    refine and_congr_right fun _ => ?_
    constructor
    · rintro ⟨hcontinues, hsupported⟩ i hi
      exact ⟨hcontinues i hi, hsupported _ (get_mem records ⟨i, hi⟩)⟩
    · intro h
      refine ⟨fun i hi => (h i hi).1, fun record hrecord => ?_⟩
      obtain ⟨⟨i, hi⟩, rfl⟩ := mem_iff_get.mp hrecord
      exact (h i hi).2
  rw [hsplit]
  constructor
  · rintro ⟨authority, h⟩
    obtain ⟨hne, s, hs, -⟩ := verify_eq_ok_iff.mp h
    obtain ⟨first, rest, rfl⟩ := exists_cons_of_ne_nil hne
    rw [head_cons, rootPublicKey_of_verifyRecords hs] at hs
    exact ⟨hne, s, hs⟩
  · rintro ⟨hne, s, hs⟩
    obtain ⟨first, rest, rfl⟩ := exists_cons_of_ne_nil hne
    refine ⟨_, verify_eq_ok_iff.mpr ⟨hne, s, ?_, rfl⟩⟩
    rwa [head_cons, rootPublicKey_of_verifyRecords hs]

theorem chained_concat (hfront : front ≠ []) :
    Chained P identity (front ++ [record]) ↔ Chained P identity front ∧
      Continues P identity front record := by
  unfold Chained
  rw [forall_take_concat]
  simp [hfront]

theorem deviceOf_eq_none_iff (h : Chained P identity records) :
    deviceOf records deviceId = none ↔ operationsOn records deviceId = [] := by
  constructor
  · intro hnone
    by_contra hne
    obtain ⟨operation, hop⟩ := exists_mem_of_ne_nil _ hne
    simp only [operationsOn, List.mem_filter, List.mem_map, decide_eq_true_eq] at hop
    obtain ⟨⟨record, hrecord, rfl⟩, rfl⟩ := hop
    refine deviceOf_ne_none_iff.mpr ?_ hnone
    obtain ⟨⟨i, hi⟩, rfl⟩ := mem_iff_get.mp hrecord
    cases hop : (records.get ⟨i, hi⟩).body.operation with
    | authorizeDevice id key encryptionKeys capabilities label createdAt =>
      exact ⟨key, _, hrecord, _, _, _, _, hop⟩
    | revokeDevice id cutoff reason createdAt =>
      have hknown := (h.2 i hi).revokesKnown
      rw [hop] at hknown
      obtain ⟨key, hkey⟩ := hknown rfl
      exact ⟨key, hkey.mono (take_subset i records)⟩
  · intro hnil
    by_contra hne
    obtain ⟨device, hdevice⟩ := ne_none_iff_exists'.mp hne
    have hstatus := (lastWord_deviceOf hdevice).status_eq
    rw [hnil] at hstatus
    simp at hstatus

/-! ### Appending -/

/-- An operation that may be appended to the records. -/
structure ValidOperation (records : List DeviceAuthorizationRecord)
    (operation : DeviceAuthorizationOperation) : Prop where
  wellFormedKeys : WellFormedKeys operation
  deviceId : trimIsEmpty (subject operation) = false
  revokesKnown : RevokesKnown records operation

theorem verifySignature_of_sign {key : Bytes32} (hkey : P.verifyingKey key = identity.publicKey)
    (hroot : body.rootPublicKey = identity.publicKey.bytes) :
    DeviceAuthorizationRecord.verifySignature P ⟨body, P.sign key (body.canonicalBytes P)⟩ = .ok
      () := by
  simp only [DeviceAuthorizationRecord.verifySignature, IdentityAuthority.verifySignature,
    validateRootPublicKey, validateSignatureLen, bind_eq_ok, ensure_eq_ok, hroot, ← hkey]
  exact ⟨(), (P.verifyingKey key).length_bytes, (), P.length_sign _ _, (),
    P.keyFromBytes_verifyingKey key, P.verifyStrict_sign _ _⟩

/-- **A valid operation appended to an accepted chain is accepted.** The bound on the length says
that the sequence of the last record can be increased; a vector has fewer elements. -/
theorem exists_append (h : verifyIdentityAuthorityChain P identity records = .ok authority)
    (hne : records ≠ []) (hlen : records.length < 2 ^ 64) {key : Bytes32}
    (hkey : P.verifyingKey key = identity.publicKey) (hop : ValidOperation records operation)
    (issuedAt : UInt64) :
    ∃ record, (records.getLast hne).append P operation issuedAt (P.sign key) = .ok record ∧
      record.body.operation = operation ∧
      ∃ authority', verifyIdentityAuthorityChain P identity (records ++ [record]) =
        .ok authority' := by
  obtain ⟨hchained, hsupported⟩ := verify_isOk_iff.mp ⟨authority, h⟩
  have hpos := length_pos_iff.mpr hne
  have hlast := hchained.2 (records.length - 1) (by omega)
  rw [get_eq_getElem, ← getLast_eq_getElem hne] at hlast
  have hseq : (records.getLast hne).body.sequence.toNat + 1 = records.length := by
    rw [hlast.sequence_eq, length_take]
    omega
  set body : DeviceAuthorizationRecordBody :=
    { recordType
      version := recordVersion
      rootPublicKey := (records.getLast hne).body.rootPublicKey
      identity := (records.getLast hne).body.identity
      sequence := (records.getLast hne).body.sequence + 1
      previousRecordHash := some ((records.getLast hne).recordHash P)
      operation
      issuedAt } with hbody
  have hroot : body.rootPublicKey = identity.publicKey.bytes := hlast.rootPublicKey_eq
  have hsup : Supported body := ⟨rfl, rfl, hop.deviceId⟩
  have hvalid : validateBody body = .ok () := by
    refine validateBody_eq_ok_iff.mpr ⟨?_, hop.wellFormedKeys, hsup⟩
    rw [hroot]
    exact congrArg (·.publicKey.bytes) hlast.identity_eq.symm
  refine ⟨⟨body, P.sign key (body.canonicalBytes P)⟩, ?_, rfl, verify_isOk_iff.mpr ⟨?_, ?_⟩⟩
  · show DeviceAuthorizationRecord.signBody P body (P.sign key) = _
    simp only [DeviceAuthorizationRecord.signBody, validateSignatureLen, bind_eq_ok,
      ensure_eq_ok, pure_eq_ok]
    exact ⟨(), hvalid, (), P.length_sign _ _, trivial⟩
  · refine (chained_concat hne).mpr ⟨hchained, ?_⟩
    refine ⟨hlast.identity_eq, hroot, verifySignature_of_sign hkey hroot, ?_, ?_,
      hop.wellFormedKeys, hop.revokesKnown⟩
    · show ((records.getLast hne).body.sequence + 1).toNat = records.length
      rw [UInt64.toNat_add, UInt64.toNat_one, hseq, Nat.mod_eq_of_lt hlen]
    · rw [getLast?_eq_some_getLast hne]
      rfl
  · intro record hrecord
    rcases mem_append.mp hrecord with hrecord | hrecord
    · exact hsupported record hrecord
    · obtain rfl := mem_singleton.mp hrecord
      exact hsup

/-! ### The contract of the verifier -/

/-- **What verifying a chain means.** A chain is accepted exactly if it is non-empty, each record
continues the records before it, and all bodies are supported; an accepted chain gives the fold of
its operations, which for every device is the last word on it; and the record that `append` makes of
a valid operation extends it to an accepted chain. -/
theorem chain_contract (P : Primitives) (identity : IdentityId)
    (records : List DeviceAuthorizationRecord) :
    ((∃ authority, verifyIdentityAuthorityChain P identity records = .ok authority) ↔
        Chained P identity records ∧ ∀ record ∈ records, Supported record.body) ∧
      ∀ authority, verifyIdentityAuthorityChain P identity records = .ok authority →
        (∀ deviceId, authority.devices[deviceId]? = deviceOf records deviceId) ∧
        (∀ deviceId, authority.devices[deviceId]? = none ↔ operationsOn records deviceId = []) ∧
        (∀ deviceId device, authority.devices[deviceId]? = some device →
          LastWord (operationsOn records deviceId) device) ∧
        ∀ hne : records ≠ [], records.length < 2 ^ 64 → ∀ key,
          P.verifyingKey key = identity.publicKey → ∀ operation, ValidOperation records operation →
          ∀ issuedAt, ∃ record, (records.getLast hne).append P operation issuedAt
            (P.sign key) = .ok record ∧
            record.body.operation = operation ∧
            ∃ authority', verifyIdentityAuthorityChain P identity (records ++ [record]) =
              .ok authority' := by
  refine ⟨verify_isOk_iff, fun authority h => ?_⟩
  have hfold := getElem?_devices_of_verify h
  refine ⟨hfold, fun deviceId => ?_, fun deviceId device hdevice => ?_,
    fun hne hlen key hkey operation hop issuedAt => exists_append h hne hlen hkey hop issuedAt⟩
  · rw [hfold]
    exact deviceOf_eq_none_iff (verify_isOk_iff.mp ⟨authority, h⟩).1
  · rw [hfold] at hdevice
    exact lastWord_deviceOf hdevice

theorem chain_contract_laptop : (Chained primitives owner [authorizeLaptop] ∧
      ∀ record ∈ [authorizeLaptop], Supported record.body) ∧
    ∃ record, authorizeLaptop.append primitives (revoke "laptop" (some 3)) 7
          (primitives.sign owner.publicKey) = .ok record ∧
        ∃ authority, verifyIdentityAuthorityChain primitives owner [authorizeLaptop, record] =
          .ok authority := by
  obtain ⟨hiff, hok⟩ := chain_contract primitives owner [authorizeLaptop]
  obtain ⟨authority, h⟩ : ∃ authority, verifyIdentityAuthorityChain primitives owner
        [authorizeLaptop] = .ok authority := exists_eq_ok_of_isOk (by decide +kernel)
  have hvalid : ValidOperation [authorizeLaptop] (revoke "laptop" (some 3)) :=
    ⟨trivial, by decide, fun _ => ⟨(Sample.key 1).bytes, authorizeLaptop, by simp, [], [], none,
      1700000000, rfl⟩⟩
  obtain ⟨-, -, -, happend⟩ := hok authority h
  obtain ⟨record, hrecord, -, hverify⟩ := happend (by simp) (by simp) owner.publicKey rfl _
    hvalid 7
  exact ⟨hiff.mp ⟨authority, h⟩, record, hrecord, hverify⟩

/-! ### A chain of a later version -/

/-- The laptop's authorization in a record of version 2. -/
def laterVersion : DeviceAuthorizationRecord :=
  let body := { authorizeLaptop.body with version := 2 }
  ⟨body, sign owner.publicKey (body.canonicalBytes primitives)⟩

/-- **Continuing is not enough.** A record of another version is signed, in place and well formed,
and the chain is refused. -/
theorem chained_not_accepted : Chained primitives owner [laterVersion] ∧
      ¬ ∃ authority, verifyIdentityAuthorityChain primitives owner
        [laterVersion] = .ok authority := by
  constructor
  · refine ⟨by simp, fun i hi => ?_⟩
    obtain rfl : i = 0 := by simpa using hi
    have hsig : laterVersion.verifySignature primitives = .ok () := by decide +kernel
    exact ⟨rfl, rfl, hsig, rfl, rfl, ⟨by decide, by simp⟩, by simp [RevokesKnown,
      laterVersion, authorizeLaptop, Sample.record, Sample.authorize, isAuthorization]⟩
  · intro h
    have hversion := ((verify_isOk_iff.mp h).2 laterVersion (by simp)).version_eq
    exact absurd hversion (by decide)

end Jolt.Authority.Accepted
