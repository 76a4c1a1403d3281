import Jolt.Authority.Chain
import Jolt.Encryption.Envelopes
import Jolt.Lib.PushUnique
import Jolt.Server.Recipients

/-! # Which keys are selected

The keys that are returned for a list of recipients are those of the local identity, without
repetition, and those of the other identities in the order of the list, as they are published
(`resolveRecipientKeys_parts`). So no pair of identity and key identifier is repeated exactly if the
other identities and their key identifiers are not, and the keys of all active devices are there
exactly if, among the local key and theirs, a key identifier stands for one key. -/

namespace Jolt.Server.RecipientSelection

open Std Lib.Checks Lib.PushUnique Jolt.Core Jolt.Core.Types IdentityAuthority SignedRecords
  EncryptedObject EncryptionKeys Authority.Chain Encryption Envelopes AppApi Recipients List
open Sample (authorityOf owner primitives sign)
open SampleCiphers (ciphers)

/-! ### The two parts of the result -/

section

variable (P : Primitives) (readers : Readers) (daemon : Daemon) (now : UInt64)

/-- The identities that are listed, other than the local one. -/
def otherIdentities (recipients : List String) (localIdentity : IdentityId) : List IdentityId :=
  (recipients.filterMap fun recipient => (recipientIdentity P readers recipient).toOption).filter
  (· ≠ localIdentity)

def usableKeys (identity : IdentityId) : List IdentityEncryptionKey :=
  match publishedKeys P readers daemon now identity with
  | .ok verified => verified.keys
  | .error _ => []

def otherKeys (recipients : List String) (localIdentity : IdentityId) :
    List EncryptedObjectRecipient :=
  (otherIdentities P readers recipients localIdentity).flatMap fun identity =>
    (usableKeys P readers daemon now identity).map fun key => ⟨identity, key⟩

end

variable (localIdentity : IdentityId) (localKey : IdentityEncryptionKey)
  (localDeviceKeys : List EncryptedObjectRecipient)

/-- The pair by which a recipient is told from another. -/
def pairOf (recipient : EncryptedObjectRecipient) :
    IdentityId × String := (recipient.identity, recipient.key.keyId)

def localCandidates : List EncryptedObjectRecipient := ⟨localIdentity, localKey⟩ :: localDeviceKeys

def localKeys : List EncryptedObjectRecipient :=
  pushAll pairOf [] (localCandidates localIdentity localKey localDeviceKeys)

theorem pushUniqueRecipient_eq_push : pushUniqueRecipient = push pairOf := by
  funext keys recipient
  simp only [pushUniqueRecipient, push, pairOf, Prod.mk.injEq]

theorem pushLocalRecipientKeys_eq_pushAll (keys : List EncryptedObjectRecipient)
    (localIdentity : IdentityId) (localKey : IdentityEncryptionKey)
    (localDeviceKeys : List EncryptedObjectRecipient) :
    pushLocalRecipientKeys keys localIdentity localKey localDeviceKeys = pushAll pairOf keys
        (localCandidates localIdentity localKey localDeviceKeys) := by
  rw [pushLocalRecipientKeys, pushUniqueRecipient_eq_push]
  rfl

section

variable {P : Primitives} {readers : Readers} {daemon : Daemon} {now : UInt64}
  {localIdentity : IdentityId} {localKey : IdentityEncryptionKey}
  {localDeviceKeys : List EncryptedObjectRecipient} {recipients : List String}
  {keys : List EncryptedObjectRecipient} {identity : IdentityId}

def isLocal (localIdentity : IdentityId) (recipient : EncryptedObjectRecipient) : Bool :=
  recipient.identity = localIdentity

theorem isLocal_congr (a b : EncryptedObjectRecipient) (h : pairOf a = pairOf b) :
    isLocal localIdentity a = isLocal localIdentity b := by rw [isLocal, isLocal, (Prod.mk.inj h).1]

theorem isLocal_candidates
    (hdevices : ∀ device ∈ localDeviceKeys, device.identity = localIdentity) :
    ∀ candidate ∈ localCandidates localIdentity localKey localDeviceKeys,
      isLocal localIdentity candidate = true := by
  intro candidate hmem
  rcases mem_cons.mp hmem with rfl | hmem
  · exact decide_eq_true rfl
  · exact decide_eq_true (hdevices candidate hmem)

theorem pushAll_localKeys : pushAll pairOf (localKeys localIdentity localKey localDeviceKeys)
        (localCandidates localIdentity localKey localDeviceKeys) =
      localKeys localIdentity localKey localDeviceKeys :=
  pushAll_eq_self fun _ hmem => mem_map_pushAll hmem

theorem otherKeys_cons {recipient : String}
    (h : recipientIdentity P readers recipient = .ok identity) :
    otherKeys P readers daemon now (recipient :: recipients) localIdentity =
      (if identity = localIdentity then []
        else (usableKeys P readers daemon now identity).map fun key => ⟨identity, key⟩) ++
        otherKeys P readers daemon now recipients localIdentity := by
  have hidentities : otherIdentities P readers (recipient :: recipients) localIdentity =
      (if identity = localIdentity then [] else [identity]) ++
        otherIdentities P readers recipients localIdentity := by
    rw [otherIdentities, filterMap_cons, h]
    by_cases hsame : identity = localIdentity
    · simp [Except.toOption, hsame, otherIdentities]
    · simp [Except.toOption, hsame, otherIdentities]
  rw [otherKeys, hidentities, flatMap_append]
  split_ifs
  · rfl
  · rw [flatMap_singleton]
    rfl

/-- What the loop has found so far: the local keys once the local identity was listed, and the keys
of the others behind those that were there. -/
theorem parts_of_foldlM (hdevices : ∀ device ∈ localDeviceKeys, device.identity = localIdentity) :
    ∀ {recipients : List String} {found found' : List EncryptedObjectRecipient × Bool},
      recipients.foldlM
          (resolveRecipient P readers daemon now localIdentity localKey localDeviceKeys) found =
            .ok found' →
      found.1.filter (isLocal localIdentity) =
        (if found.2 then localKeys localIdentity localKey localDeviceKeys else []) →
      found'.1.filter (isLocal localIdentity) =
          (if found'.2 then localKeys localIdentity localKey localDeviceKeys else []) ∧
        found'.1.filter (fun key => !isLocal localIdentity key) =
          found.1.filter (fun key => !isLocal localIdentity key) ++
            otherKeys P readers daemon now recipients localIdentity ∧
        ∀ recipient ∈ recipients, ∃ identity, recipientIdentity P readers recipient = .ok identity ∧
          (identity ≠ localIdentity → ∃ verified, publishedKeys P readers daemon now identity =
            .ok verified)
  | [], found, found', h, hlocal => by
    cases h
    refine ⟨hlocal, ?_, by simp⟩
    rw [otherKeys, otherIdentities]
    simp
  | recipient :: recipients, found, found', h, hlocal => by
    rw [foldlM_cons, bind_eq_ok] at h
    obtain ⟨next, hnext, hrest⟩ := h
    rw [resolveRecipient, bind_eq_ok] at hnext
    obtain ⟨identity, hidentity, hnext⟩ := hnext
    rw [otherKeys_cons hidentity]
    split_ifs at hnext with hsame
    · -- the local identity is listed
      cases hnext
      have hcandidates : ∀ candidate ∈ localCandidates localIdentity localKey localDeviceKeys,
          isLocal localIdentity candidate = true := isLocal_candidates hdevices
      have hpushed : (pushLocalRecipientKeys found.1 localIdentity localKey localDeviceKeys).filter
          (isLocal localIdentity) = localKeys localIdentity localKey localDeviceKeys := by
        rw [pushLocalRecipientKeys_eq_pushAll, filter_pushAll isLocal_congr hcandidates, hlocal]
        split_ifs
        · exact pushAll_localKeys
        · rfl
      obtain ⟨hlocal', hother, hothers⟩ := parts_of_foldlM hdevices hrest hpushed
      refine ⟨hlocal', ?_, forall_mem_cons.mpr ⟨⟨identity, hidentity, absurd hsame⟩, hothers⟩⟩
      rw [hother, pushLocalRecipientKeys_eq_pushAll, filter_not_pushAll hcandidates,
        if_pos hsame, nil_append]
    · rw [bind_eq_ok] at hnext
      obtain ⟨verified, hverified, hnext⟩ := hnext
      cases hnext
      have hnone : ∀ recipient ∈ verified.keys.map (EncryptedObjectRecipient.mk identity),
          isLocal localIdentity recipient = false := by
        intro key hkey
        obtain ⟨_, -, rfl⟩ := mem_map.mp hkey
        exact decide_eq_false hsame
      have hlocalPart : (verified.keys.map (EncryptedObjectRecipient.mk identity)).filter
          (isLocal localIdentity) = [] :=
        filter_eq_nil_iff.mpr fun key hkey => by simp [hnone key hkey]
      have hotherPart : (verified.keys.map (EncryptedObjectRecipient.mk identity)).filter
          (fun key => !isLocal localIdentity key) =
            verified.keys.map (EncryptedObjectRecipient.mk identity) :=
        filter_eq_self.mpr fun key hkey => by simp [hnone key hkey]
      have hkept : (found.1 ++ verified.keys.map (EncryptedObjectRecipient.mk identity)).filter
          (isLocal localIdentity) = found.1.filter (isLocal localIdentity) := by
        rw [filter_append, hlocalPart, append_nil]
      obtain ⟨hlocal', hother, hothers⟩ := parts_of_foldlM hdevices hrest (hkept.trans hlocal)
      refine ⟨hlocal', ?_, forall_mem_cons.mpr ⟨⟨identity, hidentity, fun _ =>
        ⟨verified, hverified⟩⟩, hothers⟩⟩
      have husable : usableKeys P readers daemon now identity = verified.keys := by
        rw [usableKeys, hverified]
      rw [hother, filter_append, hotherPart, if_neg hsame, husable, append_assoc]

/-- **The two parts of the result.** -/
theorem resolveRecipientKeys_parts
    (hdevices : ∀ device ∈ localDeviceKeys, device.identity = localIdentity)
    (h : resolveRecipientKeys P readers daemon now recipients localIdentity localKey
      localDeviceKeys = .ok keys) :
    keys.filter (isLocal localIdentity) = localKeys localIdentity localKey localDeviceKeys ∧
      keys.filter (fun key => !isLocal localIdentity key) = otherKeys P readers daemon now
        recipients localIdentity ∧
      ∀ recipient ∈ recipients, ∃ identity, recipientIdentity P readers recipient = .ok identity ∧
        (identity ≠ localIdentity → ∃ verified, publishedKeys P readers daemon now identity =
          .ok verified) := by
  rw [resolveRecipientKeys, bind_eq_ok] at h
  obtain ⟨⟨found, included⟩, hloop, h⟩ := h
  cases h
  obtain ⟨hlocal, hother, hothers⟩ := parts_of_foldlM hdevices hloop rfl
  rw [filter_nil, nil_append] at hother
  dsimp only at hlocal hother
  cases included with
  | true => exact ⟨hlocal, hother, hothers⟩
  | false =>
    have hcandidates : ∀ candidate ∈ localCandidates localIdentity localKey localDeviceKeys,
        isLocal localIdentity candidate = true := isLocal_candidates hdevices
    refine ⟨?_, ?_, hothers⟩
    · simp only [Bool.false_eq_true, if_false] at hlocal ⊢
      rw [pushLocalRecipientKeys_eq_pushAll, filter_pushAll isLocal_congr hcandidates, hlocal]
      rfl
    · simp only [Bool.false_eq_true, if_false]
      rw [pushLocalRecipientKeys_eq_pushAll, filter_not_pushAll hcandidates, hother]

/-! ### Repeated pairs -/

/-- The other identities are listed once each, and no two usable keys of one of them have the same
identifier. -/
def OthersDistinct (P : Primitives) (readers : Readers) (daemon : Daemon) (now : UInt64)
    (recipients : List String) (localIdentity : IdentityId) : Prop :=
  (otherIdentities P readers recipients localIdentity).Nodup ∧
    ∀ identity ∈ otherIdentities P readers recipients localIdentity,
      ((usableKeys P readers daemon now identity).map (·.keyId)).Nodup

theorem usableKeys_ne_nil {verified : VerifiedIdentityEncryptionKeys}
    (h : publishedKeys P readers daemon now identity = .ok verified) :
    usableKeys P readers daemon now identity ≠ [] := by
  rw [usableKeys, h]
  simp only [publishedKeys, bind_eq_ok, mapError_eq_ok] at h
  obtain ⟨_, -, _, -, _, -, _, -, hverified⟩ := h
  exact keys_ne_nil_of_verify hverified

theorem mem_otherIdentities : identity ∈ otherIdentities P readers recipients localIdentity ↔
      (∃ recipient ∈ recipients, recipientIdentity P readers recipient = .ok identity) ∧
        identity ≠ localIdentity := by
  rw [otherIdentities, mem_filter, mem_filterMap, decide_eq_true_eq]
  refine and_congr_left fun _ => exists_congr fun recipient => and_congr_right fun _ => ?_
  cases recipientIdentity P readers recipient <;> simp [Except.toOption]

theorem nodup_otherKeys_iff
    (hpublished : ∀ identity ∈ otherIdentities P readers recipients localIdentity,
      usableKeys P readers daemon now identity ≠ []) :
    ((otherKeys P readers daemon now recipients localIdentity).map pairOf).Nodup ↔
      OthersDistinct P readers daemon now recipients localIdentity := by
  have hpairs : (otherKeys P readers daemon now recipients localIdentity).map pairOf =
      (otherIdentities P readers recipients localIdentity).flatMap fun identity =>
        ((usableKeys P readers daemon now identity).map (·.keyId)).map (Prod.mk identity) := by
    rw [otherKeys, map_flatMap]
    simp only [map_map]
    rfl
  rw [hpairs, nodup_flatMap, OthersDistinct, and_comm]
  refine and_congr ?_ (forall₂_congr fun identity _ =>
    nodup_map_iff (Prod.mk_right_injective identity))
  refine List.Pairwise.iff_of_mem fun {identity identity'} hmem _ => ?_
  -- the pairs of two identities are different, and those of one identity are there twice
  constructor
  · rintro hdisjoint rfl
    obtain ⟨key, hkey⟩ := exists_mem_of_ne_nil _ (hpublished identity hmem)
    have hpair : (identity, key.keyId) ∈
        ((usableKeys P readers daemon now identity).map (·.keyId)).map (Prod.mk identity) :=
      mem_map_of_mem (mem_map_of_mem hkey)
    exact hdisjoint hpair hpair
  · intro hne pair hpair hpair'
    obtain ⟨_, -, rfl⟩ := mem_map.mp hpair
    obtain ⟨_, -, heq⟩ := mem_map.mp hpair'
    exact hne (Prod.mk.inj heq).1.symm

/-! ### The keys of the devices -/

section

variable {authority : VerifiedIdentityAuthority} {key : DeviceEncryptionPublicKey}

/-- Among the local key and the keys of the active devices, an identifier stands for one key. -/
def IdentifiersDetermine (localKey : IdentityEncryptionKey)
    (authority : VerifiedIdentityAuthority) : Prop :=
  ∀ a ∈ localKey :: (activeDeviceKeys authority).map identityEncryptionKey,
    ∀ b ∈ localKey :: (activeDeviceKeys authority).map identityEncryptionKey,
      a.keyId = b.keyId → a.publicKey = b.publicKey

def deviceRecipients (identity : IdentityId) (authority : VerifiedIdentityAuthority) :
    List EncryptedObjectRecipient :=
  (activeDeviceKeys authority).map fun key => ⟨identity, identityEncryptionKey key⟩

theorem activeAuthorizedDeviceEncryptionRecipients_eq {records : List DeviceAuthorizationRecord}
    (h : verifyIdentityAuthorityChain P localIdentity records = .ok authority) :
    activeAuthorizedDeviceEncryptionRecipients P records = .ok
      (deviceRecipients localIdentity authority) := by
  obtain ⟨first, hfirst, hidentity⟩ := Option.map_eq_some_iff.mp (head?_identity_of_verify h)
  rw [activeAuthorizedDeviceEncryptionRecipients, hfirst]
  simp only [okOr, ok_bind, hidentity, h]
  rfl

theorem mem_activeDeviceKeys : key ∈ activeDeviceKeys authority ↔ ∃ (deviceId : String)
    (device : AuthorizedDevice),
      authority.devices[deviceId]? = some device ∧ device.status = .active ∧
        key ∈ device.encryptionKeys := by
  simp only [activeDeviceKeys, mem_flatMap, mem_filter, decide_eq_true_eq, Prod.exists,
    ExtTreeMap.mem_toList_iff_getElem?_eq_some, and_assoc]

theorem deviceRecipients_identity :
    ∀ device ∈ deviceRecipients localIdentity authority, device.identity = localIdentity := by
  intro device hmem
  obtain ⟨_, -, rfl⟩ := mem_map.mp hmem
  rfl

theorem localCandidates_deviceRecipients :
    localCandidates localIdentity localKey (deviceRecipients localIdentity authority) =
      (localKey :: (activeDeviceKeys authority).map identityEncryptionKey).map
        (EncryptedObjectRecipient.mk localIdentity) := by
  rw [localCandidates, deviceRecipients, map_cons, map_map]
  rfl

theorem localKey_mem_localKeys : (⟨localIdentity, localKey⟩ : EncryptedObjectRecipient) ∈
      localKeys localIdentity localKey (deviceRecipients localIdentity authority) := by
  rw [localKeys, mem_pushAll_nil, localCandidates]
  exact find?_cons_of_pos (decide_eq_true rfl)

theorem mem_localKeys {recipient : EncryptedObjectRecipient}
    (h : recipient ∈ localKeys localIdentity localKey (deviceRecipients localIdentity authority)) :
    ∃ key ∈ localKey :: (activeDeviceKeys authority).map identityEncryptionKey, recipient =
      ⟨localIdentity, key⟩ := by
  have hcandidate := (mem_pushAll h).resolve_left not_mem_nil
  rw [localCandidates_deviceRecipients] at hcandidate
  obtain ⟨key, hkey, rfl⟩ := mem_map.mp hcandidate
  exact ⟨key, hkey, rfl⟩

theorem key_mem_localCandidates (h : key ∈ activeDeviceKeys authority) :
    (⟨localIdentity, identityEncryptionKey key⟩ : EncryptedObjectRecipient) ∈
      localCandidates localIdentity localKey (deviceRecipients localIdentity authority) :=
  mem_cons_of_mem _ (mem_map.mpr ⟨key, h, rfl⟩)

theorem eq_of_keyId_eq {a b : EncryptedObjectRecipient}
    (ha : a ∈ localKeys localIdentity localKey (deviceRecipients localIdentity authority))
    (hb : b ∈ localKeys localIdentity localKey (deviceRecipients localIdentity authority))
    (h : a.key.keyId = b.key.keyId) : a = b := by
  have hnodup : ((localKeys localIdentity localKey (deviceRecipients localIdentity authority)).map
      pairOf).Nodup := nodup_pushAll nodup_nil
  refine inj_on_of_nodup_map hnodup ha hb ?_
  obtain ⟨_, -, rfl⟩ := mem_localKeys ha
  obtain ⟨_, -, rfl⟩ := mem_localKeys hb
  exact Prod.ext rfl h

/-- **Which device keys are selected.** All of them, exactly if an identifier stands for one key. -/
theorem deviceKeys_selected_iff : (∀ key ∈ activeDeviceKeys authority, ∃ recipient ∈
      localKeys localIdentity localKey (deviceRecipients localIdentity authority),
        recipient.key.keyId = key.keyId ∧ recipient.key.publicKey = key.publicKey) ↔
      IdentifiersDetermine localKey authority := by
  constructor
  · -- two keys with one identifier are both the key that is kept for it
    intro h
    have hkept : ∀ a ∈ localKey :: (activeDeviceKeys authority).map identityEncryptionKey,
        ∃ recipient ∈ localKeys localIdentity localKey (deviceRecipients localIdentity authority),
          recipient.key.keyId = a.keyId ∧ recipient.key.publicKey = a.publicKey := by
      intro a ha
      rcases mem_cons.mp ha with rfl | ha
      · exact ⟨_, localKey_mem_localKeys, rfl, rfl⟩
      · obtain ⟨key, hkey, rfl⟩ := mem_map.mp ha
        exact h key hkey
    intro a ha b hb hsame
    obtain ⟨recipient, hrecipient, hid, hpublic⟩ := hkept a ha
    obtain ⟨recipient', hrecipient', hid', hpublic'⟩ := hkept b hb
    have heq : recipient = recipient' :=
      eq_of_keyId_eq hrecipient hrecipient' (hid.trans (hsame.trans hid'.symm))
    rw [← hpublic, ← hpublic', heq]
  · intro h key hkey
    obtain ⟨recipient, hrecipient, hpair⟩ := mem_map.mp
      (mem_map_pushAll (key_mem_localCandidates hkey) : _ ∈ (localKeys localIdentity localKey
        (deviceRecipients localIdentity authority)).map pairOf)
    obtain ⟨a, ha, rfl⟩ := mem_localKeys hrecipient
    have hid : a.keyId = key.keyId := (Prod.mk.inj hpair).2
    exact ⟨_, hrecipient, hid, h a ha _ (mem_cons_of_mem _ (mem_map_of_mem hkey)) hid⟩

end

/-! ### The access status -/

section

variable {C : Ciphers} {envelope : EncryptedObjectEnvelope} {active : EncryptedObjectRecipient}
  {privateKey : IdentityEncryptionPrivateKey}

theorem encryptedAccessStatus_available_iff {json : EnvelopeJson} {bytes : Bytes}
    {authority : VerifiedIdentityAuthority}
    (hchain : verifyIdentityAuthorityChain P localIdentity daemon.localDeviceAuthority =
      .ok authority)
    (henvelope : EncryptedObjectEnvelope.fromBytes json bytes = .ok envelope) :
    encryptedAccessStatus P json daemon bytes = .ok .available ↔
      ∀ active ∈ deviceRecipients localIdentity authority, hasWrapFor envelope active = true := by
  have hstatus : encryptedAccessStatus P json daemon bytes =
      .ok (if (deviceRecipients localIdentity authority).any (!hasWrapFor envelope ·)
        then .needsRewrap else .available) := by
    rw [encryptedAccessStatus, henvelope, activeAuthorizedDeviceEncryptionRecipients_eq hchain]
    rfl
  rw [hstatus]
  split_ifs with hany
  · obtain ⟨active, hmem, hnone⟩ := any_eq_true.mp hany
    refine iff_of_false (fun h => nomatch h) fun h => ?_
    rw [h active hmem] at hnone
    exact absurd hnone (by decide)
  · refine iff_of_true rfl fun active hmem => ?_
    by_contra hnone
    exact hany (any_eq_true.mpr ⟨active, hmem, by simpa using hnone⟩)

/-- A recipient with the identifier of the key of an active device has this key. -/
def HaveDeviceKeys (identity : IdentityId) (authority : VerifiedIdentityAuthority)
    (made : List EncryptedObjectRecipient) : Prop :=
  ∀ active ∈ deviceRecipients identity authority, ∀ recipient ∈ made,
    pairOf recipient = pairOf active → recipient.key.publicKey = active.key.publicKey ∧
      recipient.key.suiteFamily = active.key.suiteFamily

variable {drawn : Drawn} {signingKey : Bytes32} {plaintext : Bytes} {mediaType : String}
  {schema : Option String} {made : List EncryptedObjectRecipient} {createdAt : UInt64}
  {authority : VerifiedIdentityAuthority}

section

variable (hmade : encryptAs P C drawn signingKey plaintext mediaType schema made createdAt =
  .ok envelope)
include hmade

/-- Every wrap is one of a recipient. -/
theorem exists_recipient_of_mem {wrap : EncryptedObjectRecipientWrap}
    (hwrap : wrap ∈ envelope.body.recipients) : ∃ recipient ∈ made,
      wrap.recipientIdentity = recipient.identity ∧ wrap.recipientKeyId = recipient.key.keyId := by
  obtain ⟨_, wraps, -, hwraps, hbody, -⟩ := encryptAs_eq_ok.mp hmade
  rw [hbody] at hwrap
  obtain ⟨recipient, hmem, _, hcontent⟩ := exists_recipient_of_wrapAll hwraps wrap hwrap
  obtain ⟨-, -, hidentity, hkeyId, -⟩ := wrapContentKey_eq_ok.mp hcontent
  exact ⟨recipient, hmem, hidentity, hkeyId⟩

theorem hasWrapFor_of_mem {recipient : EncryptedObjectRecipient} (hmem : recipient ∈ made)
    (hpair : pairOf recipient = pairOf active) : hasWrapFor envelope active = true := by
  obtain ⟨hidentity, hkeyId⟩ := Prod.mk.inj hpair
  obtain ⟨_, wraps, -, hwraps, hbody, -⟩ := encryptAs_eq_ok.mp hmade
  obtain ⟨wrap, hwrap, _, hcontent⟩ := exists_wrap_of_wrapAll hwraps recipient hmem
  obtain ⟨-, -, hwrapIdentity, hwrapKeyId, -⟩ := wrapContentKey_eq_ok.mp hcontent
  refine any_eq_true.mpr ⟨wrap, hbody ▸ hwrap, decide_eq_true ⟨?_, ?_⟩⟩
  · exact hwrapIdentity.trans hidentity
  · exact hwrapKeyId.trans hkeyId

/-- **An object that is available is opened by the keys of the active devices.** -/
theorem decrypt_of_available (json : EnvelopeJson)
    (hchain : verifyIdentityAuthorityChain P localIdentity daemon.localDeviceAuthority =
      .ok authority)
    (hdistinct : (made.map pairOf).Nodup) (hdevices : HaveDeviceKeys localIdentity authority made)
    (havailable : encryptedAccessStatus P json daemon (json.toVec envelope) = .ok .available)
    (hactive : active ∈ deviceRecipients localIdentity authority)
    (hholds : HoldsKey C privateKey active) :
    decryptEncryptedObjectForRecipient P C envelope privateKey = .ok plaintext := by
  have hwraps := (encryptedAccessStatus_available_iff hchain (fromBytes_toVec hmade)).mp havailable
  -- the wrap under the identifier of the key was made for a recipient, which has the key
  obtain ⟨wrap, hwrap, hfor⟩ := any_eq_true.mp (hwraps active hactive)
  obtain ⟨hidentity, hkeyId⟩ := of_decide_eq_true hfor
  obtain ⟨recipient, hmem, hidentity', hkeyId'⟩ := exists_recipient_of_mem hmade hwrap
  have hpair : pairOf recipient = pairOf active :=
    Prod.ext (hidentity'.symm.trans hidentity) (hkeyId'.symm.trans hkeyId)
  obtain ⟨hpublic, hsuite⟩ := hdevices active hactive recipient hmem hpair
  exact decrypt_encryptAs hmade hdistinct hmem
    { identity := hholds.identity.trans (congrArg Prod.fst hpair).symm
      keyId := hholds.keyId.trans (congrArg Prod.snd hpair).symm
      suiteFamily := hholds.suiteFamily.trans hsuite.symm
      length := hholds.length
      publicKey := hholds.publicKey.trans hpublic.symm }

end

end

/-! ### What is selected -/

/-- A revoked device has the key, and neither an active device nor the node has one with its public
key. -/
structure OnlyRevoked (localKey : IdentityEncryptionKey) (authority : VerifiedIdentityAuthority)
    (key : DeviceEncryptionPublicKey) : Prop where
  revoked : ∃ (deviceId : String) (device : AuthorizedDevice),
    authority.devices[deviceId]? = some device ∧ device.status = .revoked ∧
      key ∈ device.encryptionKeys
  notActive : ∀ other ∈ activeDeviceKeys authority, other.publicKey ≠ key.publicKey
  notLocal : localKey.publicKey ≠ key.publicKey

/-- What the keys for a list of recipients should be. -/
structure SelectsRecipients (P : Primitives) (readers : Readers) (daemon : Daemon) (now : UInt64)
    (recipients : List String) (localIdentity : IdentityId) (localKey : IdentityEncryptionKey)
    (authority : VerifiedIdentityAuthority) (keys : List EncryptedObjectRecipient) : Prop where
  distinct : (keys.map pairOf).Nodup
  hasLocalKey : ⟨localIdentity, localKey⟩ ∈ keys
  devices : ∀ (deviceId : String) (device : AuthorizedDevice),
    authority.devices[deviceId]? = some device → device.status = .active →
      ∀ key ∈ device.encryptionKeys, ∃ recipient ∈ keys, recipient.identity = localIdentity ∧
        recipient.key.keyId = key.keyId ∧ recipient.key.publicKey = key.publicKey
  notRevoked : ∀ key, OnlyRevoked localKey authority key →
    ∀ recipient ∈ keys, recipient.identity = localIdentity → recipient.key.publicKey ≠ key.publicKey
  others : ∀ recipient ∈ recipients, ∀ identity, recipientIdentity P readers recipient =
    .ok identity →
    identity ≠ localIdentity → ∃ verified, publishedKeys P readers daemon now identity =
      .ok verified ∧
        ∀ key ∈ verified.keys, ⟨identity, key⟩ ∈ keys

section

variable {authority : VerifiedIdentityAuthority} {recipient : EncryptedObjectRecipient}
  (h : resolveRecipientKeys P readers daemon now recipients localIdentity localKey
    (deviceRecipients localIdentity authority) = .ok keys)
include h

theorem mem_local_iff : recipient ∈ keys ∧ recipient.identity = localIdentity ↔
      recipient ∈ localKeys localIdentity localKey (deviceRecipients localIdentity authority) := by
  obtain ⟨hlocal, -, -⟩ := resolveRecipientKeys_parts deviceRecipients_identity h
  rw [← hlocal, mem_filter, isLocal, decide_eq_true_eq]

theorem mem_other_iff : recipient ∈ keys ∧ recipient.identity ≠ localIdentity ↔
      recipient ∈ otherKeys P readers daemon now recipients localIdentity := by
  obtain ⟨-, hother, -⟩ := resolveRecipientKeys_parts deviceRecipients_identity h
  rw [← hother, mem_filter, isLocal, Bool.not_eq_true', decide_eq_false_iff_not]

theorem publishedKeys_of_mem {identity : IdentityId}
    (hmem : identity ∈ otherIdentities P readers recipients localIdentity) :
    ∃ verified, publishedKeys P readers daemon now identity = .ok verified := by
  obtain ⟨-, -, hlisted⟩ := resolveRecipientKeys_parts deviceRecipients_identity h
  obtain ⟨⟨text, htext, hidentity⟩, hne⟩ := mem_otherIdentities.mp hmem
  obtain ⟨identity', hidentity', hpublished⟩ := hlisted text htext
  cases hidentity.symm.trans hidentity'
  exact hpublished hne

theorem nodup_pairs_iff : (keys.map pairOf).Nodup ↔ OthersDistinct P readers daemon now recipients
    localIdentity := by
  obtain ⟨hlocal, hother, -⟩ := resolveRecipientKeys_parts deviceRecipients_identity h
  have hnodup : ((localKeys localIdentity localKey (deviceRecipients localIdentity authority)).map
      pairOf).Nodup := nodup_pushAll nodup_nil
  rw [nodup_map_iff (@isLocal_congr localIdentity), hlocal, hother, and_iff_right hnodup]
  refine nodup_otherKeys_iff fun identity hmem => ?_
  obtain ⟨verified, hverified⟩ := publishedKeys_of_mem h hmem
  exact usableKeys_ne_nil hverified

theorem notRevoked_of_resolve {key : DeviceEncryptionPublicKey}
    (hkey : OnlyRevoked localKey authority key) (hmem : recipient ∈ keys)
    (hidentity : recipient.identity = localIdentity) :
    recipient.key.publicKey ≠ key.publicKey := by
  obtain ⟨a, ha, rfl⟩ := mem_localKeys ((mem_local_iff h).mp ⟨hmem, hidentity⟩)
  rcases mem_cons.mp ha with rfl | ha
  · exact hkey.notLocal
  · obtain ⟨active, hactive, rfl⟩ := mem_map.mp ha
    exact hkey.notActive active hactive

/-- **What is selected.** The local key, no key that only revoked devices have and all keys of the
other identities are selected always; the rest exactly if the other identities and their key
identifiers are not repeated, and an identifier stands for one key of this identity. -/
theorem selectsRecipients_iff :
    SelectsRecipients P readers daemon now recipients localIdentity localKey authority keys ↔
      OthersDistinct P readers daemon now recipients localIdentity ∧
        IdentifiersDetermine localKey authority := by
  constructor
  · intro hselects
    refine ⟨(nodup_pairs_iff h).mp hselects.distinct,
      (@deviceKeys_selected_iff localIdentity localKey authority).mp
      fun key hkey => ?_⟩
    obtain ⟨deviceId, device, hdevice, hactive, hkey⟩ := mem_activeDeviceKeys.mp hkey
    obtain ⟨recipient, hmem, hidentity, hsame⟩ := hselects.devices deviceId device hdevice
      hactive key hkey
    exact ⟨recipient, (mem_local_iff h).mp ⟨hmem, hidentity⟩, hsame⟩
  · rintro ⟨hdistinct, hdetermine⟩
    refine ⟨(nodup_pairs_iff h).mpr hdistinct, ((mem_local_iff h).mpr localKey_mem_localKeys).1,
      fun deviceId device hdevice hactive key hkey => ?_, fun key hkey recipient hmem hidentity =>
        notRevoked_of_resolve h hkey hmem hidentity, fun text htext identity hidentity hne => ?_⟩
    · obtain ⟨recipient, hmem, hsame⟩ := deviceKeys_selected_iff.mpr hdetermine key
        (mem_activeDeviceKeys.mpr ⟨deviceId, device, hdevice, hactive, hkey⟩)
      have hlocal := (mem_local_iff h).mpr hmem
      exact ⟨recipient, hlocal.1, hlocal.2, hsame⟩
    · have hother : identity ∈ otherIdentities P readers recipients localIdentity :=
        mem_otherIdentities.mpr ⟨⟨text, htext, hidentity⟩, hne⟩
      obtain ⟨verified, hverified⟩ := publishedKeys_of_mem h hother
      refine ⟨verified, hverified, fun key hkey => ((mem_other_iff h).mpr ?_).1⟩
      rw [otherKeys, mem_flatMap]
      refine ⟨identity, hother, mem_map.mpr ⟨key, ?_, rfl⟩⟩
      rwa [usableKeys, hverified]

end

variable (keyId : String)

def friend : IdentityId := ⟨Sample.key 9⟩

def friendRecord : IdentityEncryptionKeyRecord :=
  let body : IdentityEncryptionKeyRecordBody :=
    { recordType := EncryptionKeys.recordType
      version := EncryptionKeys.recordVersion
      ownerPublicKey := friend.publicKey.bytes
      identity := friend
      sequence := 0
      keys := [(generateIdentityEncryptionKeypair ciphers (Sample.key 10).bytes friend "enc_1" 5).1]
      issuedAt := 5 }
  ⟨body, sign friend.publicKey (body.canonicalBytes primitives)⟩

/-- The owner authorizes a phone whose encryption key has the identifier `keyId`. -/
def phoneWithKey : DeviceAuthorizationRecord :=
  Sample.record 0 none (.authorizeDevice "phone" (Sample.key 2).bytes
    [⟨keyId, keySuiteFamily, (Sample.key 7).bytes, 5⟩] [] none 5)

def daemonWith : Daemon :=
  { identityAddress := primitives.identityText.text owner
    resolve := fun _ => .ok ⟨identityEncryptionKeysPath, "keys"⟩
    fetch := fun _ => .ok ⟨[], 0⟩
    localDeviceAuthority := [phoneWithKey keyId] }

def friendReaders : Readers := ⟨id, fun _ => .ok friendRecord⟩

def nodeKey : IdentityEncryptionKey × IdentityEncryptionPrivateKey :=
  generateIdentityEncryptionKeypair ciphers (Sample.key 8).bytes owner localKeyId 5

/-- The keys for `recipients` where the phone's key has the identifier `keyId`. -/
def keysFor (recipients : List String) : Except AppApiError (List EncryptedObjectRecipient) :=
  resolveRecipientKeys primitives friendReaders (daemonWith keyId) 10 recipients owner
    nodeKey.1 (deviceRecipients owner (authorityOf [phoneWithKey keyId]))

def objectFor (recipients : List EncryptedObjectRecipient) : EncryptedObjectEnvelope :=
  match encryptAs primitives ciphers sampleDrawn (Sample.key 0) [1, 2, 3] "text/plain"
      none recipients 5 with
  | .ok envelope => envelope
  | .error _ => ⟨sealedBody (Sample.key 0) sampleDrawn [] "" none 0 [] [], []⟩

theorem phone_chain
    (h : (verifyIdentityAuthorityChain primitives owner [phoneWithKey keyId]).isOk = true) :
    verifyIdentityAuthorityChain primitives owner (daemonWith keyId).localDeviceAuthority =
      .ok (authorityOf [phoneWithKey keyId]) := by
  obtain ⟨authority, hchain⟩ := exists_eq_ok_of_isOk h
  rw [Sample.authorityOf_eq hchain]
  exact hchain

def phonePrivateKey : IdentityEncryptionPrivateKey :=
  (generateIdentityEncryptionKeypair ciphers (Sample.key 7).bytes owner keyId 5).2

end

end Jolt.Server.RecipientSelection
