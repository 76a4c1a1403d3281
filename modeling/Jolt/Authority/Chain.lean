import Jolt.Core.IdentityAuthority

/-! # Authority chains, device by device

What `verifyIdentityAuthorityChain` makes of a chain it accepts. The record at index `i` has
sequence `i`, so the latest sequence counts the records (`latestSequence_of_verify`), and every
non-empty prefix of an accepted chain is accepted (`verify_of_isPrefix`). The table of devices is,
for each device on its own, the fold of the operations over what is known of that device
(`getElem?_devices_of_verify`). -/

namespace Jolt.Authority.Chain

open Std Lib.Checks Core.Types Core.IdentityAuthority List Option ExtTreeMap

variable {P : Primitives} {identity : IdentityId} {rootPublicKey : Bytes}
  {records : List DeviceAuthorizationRecord} {authority : VerifiedIdentityAuthority}
  {operation : DeviceAuthorizationOperation} {s s' : ChainState} {index : ℕ}

/-! ### One device -/

/-- What an operation makes of what is known of one device. -/
def deviceStep (deviceId : String) (known : Option AuthorizedDevice) :
    DeviceAuthorizationOperation → Option AuthorizedDevice
  | .authorizeDevice id deviceSigningPublicKey deviceEncryptionKeys capabilities label createdAt =>
    if id = deviceId then
      some
        { deviceId := id
          signingPublicKey := deviceSigningPublicKey
          encryptionKeys := deviceEncryptionKeys
          capabilities
          label
          status := .active
          authorizedAt := createdAt
          revokedAt := none
          revocationReason := none
          acceptedThroughDeviceSequence := none }
    else known
  | .revokeDevice id acceptedThroughDeviceSequence reason createdAt =>
    if id = deviceId then
      known.map fun device =>
        { device with
          status := .revoked
          revokedAt := some createdAt
          revocationReason := reason
          acceptedThroughDeviceSequence }
    else known

def deviceOf (records : List DeviceAuthorizationRecord) (deviceId : String) :
    Option AuthorizedDevice :=
  records.foldl (fun known record => deviceStep deviceId known record.body.operation) none

theorem deviceOf_concat (records : List DeviceAuthorizationRecord)
    (record : DeviceAuthorizationRecord) (d : String) :
    deviceOf (records ++ [record]) d = deviceStep d
    (deviceOf records d) record.body.operation := by
  rw [deviceOf, foldl_append]
  rfl

theorem isSome_deviceStep {d : String} {known : Option AuthorizedDevice}
    (h : known.isSome = true) (operation : DeviceAuthorizationOperation) :
    (deviceStep d known operation).isSome = true := by
  cases operation with
  | authorizeDevice id key encryptionKeys capabilities label createdAt =>
    rw [deviceStep]
    split_ifs
    · rfl
    · exact h
  | revokeDevice id cutoff reason createdAt =>
    rw [deviceStep]
    split_ifs
    · rwa [isSome_map]
    · exact h

variable {devices devices' : ExtTreeMap String AuthorizedDevice}

theorem getElem?_applyOperation (h : applyOperation devices operation = .ok devices')
    (deviceId : String) :
    devices'[deviceId]? = deviceStep deviceId devices[deviceId]? operation := by
  cases operation with
  | authorizeDevice id key encryptionKeys capabilities label createdAt =>
    simp only [applyOperation, bind_eq_ok, pure_eq_ok] at h
    obtain ⟨_, -, _, -, _, -, rfl⟩ := h
    simp [deviceStep, ExtTreeMap.getElem?_insert]
  | revokeDevice id cutoff reason createdAt =>
    simp only [applyOperation, bind_eq_ok, pure_eq_ok, okOr_eq_ok] at h
    obtain ⟨_, -, device, hd, rfl⟩ := h
    by_cases hid : id = deviceId
    · subst hid
      simp [deviceStep, hd]
    · simp [deviceStep, ExtTreeMap.getElem?_insert, hid]

/-! ### The loop over the records -/

theorem verifyRecord_eq_ok {record : DeviceAuthorizationRecord}
    (h : verifyRecord P identity rootPublicKey s index record = .ok s') :
    record.body.sequence.toNat = index ∧
      applyOperation s.devices record.body.operation = .ok s'.devices := by
  simp only [verifyRecord, bind_eq_ok, pure_eq_ok] at h
  obtain ⟨_, -, _, -, _, -, _, -, _, hpos, devices, happly, rfl⟩ := h
  refine ⟨?_, happly⟩
  unfold verifyPosition at hpos
  split_ifs at hpos with h0
  · simp only [bind_eq_ok, ensure_eq_ok] at hpos
    obtain ⟨_, hseq, -⟩ := hpos
    simp [hseq, h0]
  · simp only [bind_eq_ok, ensure_eq_ok] at hpos
    obtain ⟨_, hseq, -⟩ := hpos
    exact hseq

theorem verifyRecords_append {s'' : ChainState} {front back : List DeviceAuthorizationRecord} :
    verifyRecords P identity rootPublicKey s index (front ++ back) = .ok s'' ↔
      ∃ s', verifyRecords P identity rootPublicKey s index front = .ok s' ∧
        verifyRecords P identity rootPublicKey s' (index + front.length) back = .ok s'' := by
  induction front generalizing s index with
  | nil => simp [verifyRecords]
  | cons record front ih =>
    simp only [cons_append, verifyRecords, bind_eq_ok, ih, length_cons, Nat.add_right_comm index 1,
      ← Nat.add_assoc]
    constructor
    · rintro ⟨s₁, h₁, s', h', h''⟩
      exact ⟨s', ⟨s₁, h₁, h'⟩, h''⟩
    · rintro ⟨s', ⟨s₁, h₁, h'⟩, h''⟩
      exact ⟨s₁, h₁, s', h', h''⟩

section

variable (h : verifyRecords P identity rootPublicKey s index records = .ok s')
include h

theorem getElem?_verifyRecords (deviceId : String) : s'.devices[deviceId]? = records.foldl
      (fun known record => deviceStep deviceId known record.body.operation)
        s.devices[deviceId]? := by
  induction records generalizing s index with
  | nil =>
    cases h
    rfl
  | cons record records ih =>
    simp only [verifyRecords, bind_eq_ok] at h
    obtain ⟨s₁, h₁, h⟩ := h
    rw [ih h, foldl_cons, getElem?_applyOperation (verifyRecord_eq_ok h₁).2]

theorem sequence_of_verifyRecords (hne : records ≠ []) :
    (records.getLast hne).body.sequence.toNat + 1 = index + records.length := by
  have hsplit := dropLast_append_getLast hne
  rw [← hsplit] at h
  obtain ⟨s₁, -, h₁⟩ := verifyRecords_append.mp h
  simp only [verifyRecords, bind_eq_ok] at h₁
  obtain ⟨s₂, h₂, -⟩ := h₁
  have hlen := length_pos_iff.mpr hne
  rw [(verifyRecord_eq_ok h₂).1, length_dropLast]
  omega

end

/-! ### Accepted chains -/

theorem verify_eq_ok_iff : verifyIdentityAuthorityChain P identity records = .ok authority ↔
      ∃ (hne : records ≠ []) (s : ChainState),
        verifyRecords P identity (records.head hne).body.rootPublicKey ⟨∅, none⟩ 0 records = .ok s ∧
        authority = ⟨identity, (records.getLast hne).body.sequence, s.devices⟩ := by
  cases records with
  | nil => simp [verifyIdentityAuthorityChain]
  | cons first rest =>
    simp only [verifyIdentityAuthorityChain, bind_eq_ok, pure_eq_ok, head_cons]
    constructor
    · rintro ⟨s, hs, rfl⟩
      exact ⟨by simp, s, hs, rfl⟩
    · rintro ⟨_, s, hs, rfl⟩
      exact ⟨s, hs, rfl⟩

section

variable (h : verifyIdentityAuthorityChain P identity records = .ok authority)
include h

theorem ne_nil_of_verify : records ≠ [] := (verify_eq_ok_iff.mp h).1

theorem identity_of_verify : authority.identity = identity := by
  obtain ⟨_, s, -, rfl⟩ := verify_eq_ok_iff.mp h
  rfl

theorem head?_identity_of_verify : records.head?.map (·.body.identity) = some identity := by
  obtain ⟨hne, s, hs, -⟩ := verify_eq_ok_iff.mp h
  cases records with
  | nil => exact absurd rfl hne
  | cons first rest =>
    simp only [verifyRecords, verifyRecord, bind_eq_ok, ensure_eq_ok] at hs
    obtain ⟨_, ⟨_, -, _, hidentity, -⟩, -⟩ := hs
    rw [head?_cons, map_some, hidentity]

theorem latestSequence_of_verify : authority.latestSequence.toNat + 1 = records.length := by
  obtain ⟨hne, s, hs, rfl⟩ := verify_eq_ok_iff.mp h
  have hseq := sequence_of_verifyRecords hs hne
  rwa [Nat.zero_add] at hseq

/-- **The table of devices, device by device.** -/
theorem getElem?_devices_of_verify (deviceId : String) :
    authority.devices[deviceId]? = deviceOf records deviceId := by
  obtain ⟨hne, s, hs, rfl⟩ := verify_eq_ok_iff.mp h
  rw [getElem?_verifyRecords hs deviceId, getElem?_empty]
  rfl

/-- **Prefixes of an accepted chain are accepted.** -/
theorem verify_of_isPrefix {short : List DeviceAuthorizationRecord} (hne : short ≠ [])
    (hp : short <+: records) :
    ∃ authority', verifyIdentityAuthorityChain P identity short = .ok authority' := by
  obtain ⟨_, s, hs, -⟩ := verify_eq_ok_iff.mp h
  obtain ⟨rest, rfl⟩ := hp
  obtain ⟨s', hs', -⟩ := verifyRecords_append.mp hs
  refine ⟨_, verify_eq_ok_iff.mpr ⟨hne, s', ?_, rfl⟩⟩
  rwa [head_append_of_ne_nil hne] at hs'

end

/-! ### Keys -/

/-- A record authorizes the device with the key. -/
def Authorizes (records : List DeviceAuthorizationRecord) (deviceId : String)
    (key : Bytes) : Prop :=
  ∃ record ∈ records, ∃ encryptionKeys capabilities label createdAt, record.body.operation =
      .authorizeDevice deviceId key encryptionKeys capabilities label createdAt

theorem Authorizes.mono {records' : List DeviceAuthorizationRecord} {deviceId : String}
    {key : Bytes} (h : Authorizes records deviceId key) (hsub : records ⊆ records') :
    Authorizes records' deviceId key := by
  obtain ⟨record, hr, hop⟩ := h
  exact ⟨record, hsub hr, hop⟩

/-- The signing key of a known device is one that a record authorizes it with. -/
theorem authorizes_of_deviceOf {deviceId : String} {device : AuthorizedDevice}
    (h : deviceOf records deviceId = some device) :
    Authorizes records deviceId device.signingPublicKey := by
  induction records using List.reverseRecOn generalizing device with
  | nil => simp [deviceOf] at h
  | append_singleton records record ih =>
    have hmem : record ∈ records ++ [record] := by simp
    have hsub : records ⊆ records ++ [record] := subset_append_left _ _
    rw [deviceOf_concat] at h
    cases hop : record.body.operation with
    | authorizeDevice id key encryptionKeys capabilities label createdAt =>
      simp only [hop, deviceStep] at h
      split_ifs at h with hid
      · subst hid
        cases h
        exact ⟨record, hmem, _, _, _, _, hop⟩
      · exact (ih h).mono hsub
    | revokeDevice id cutoff reason createdAt =>
      simp only [hop, deviceStep] at h
      split_ifs at h with hid
      · obtain ⟨device', hd', rfl⟩ := map_eq_some_iff.mp h
        exact (ih hd').mono hsub
      · exact (ih h).mono hsub

end Jolt.Authority.Chain
