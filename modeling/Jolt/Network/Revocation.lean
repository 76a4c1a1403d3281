import Jolt.Network.CacheSteps

/-! # Revocation is permanent against replays

A node that holds a chain in which a device is revoked shows no entry of that device above the
cutoff again, whatever it is sent later: stale prefixes of the chain, logs of the revoked device,
results of verifications that started from an older state (`revocation_permanent`).

The chain a node holds never gets shorter (`CacheStep.extends`), and whatever is shown was accepted
under the chain that is held (`accepted_of_shows`). What the chain says of the device after the
revocation can undo it in two ways: it can authorize the device again, or revoke it again with a
higher cutoff, since the last revocation decides (`revocation_raised`). -/

namespace Jolt.Network.Revocation

open Std Relation Lib Checks Sorting Families Jolt.Core Jolt.Core.Types IdentityAuthority
  DeviceWriterLog Authority.Chain Merge Spec Refine Causality DeviceWriterCache CacheSpec Node
  CacheSteps List Option
open Sample (content entry owner primitives revoke setSingleton)

variable {P : Primitives} {peerIdOf : Bytes → Option PeerId} {identity : IdentityId}
  {deviceId : String} {cutoff : Option UInt64} {authority : VerifiedIdentityAuthority} {logs : Logs}

/-! ### What is shown -/

/-- An entry of the device with the sequence is a winner, a conflict or an append record. -/
def Shows (st : MergedDeviceIdentityState) (deviceId : String) (sequence : UInt64) : Prop :=
  ∃ path, (∃ c, Reported st path c ∧ c.deviceId = deviceId ∧ c.deviceSequence = sequence) ∨
    ∃ records, st.appendRecords[path]? = some records ∧
      ∃ c ∈ records, c.deviceId = deviceId ∧ c.deviceSequence = sequence

theorem accepted_of_mem_heads {path : String} {c : MergedDeviceWriterEntry}
    (h : c ∈ heads P authority logs path) :
    ∃ e, Accepted authority e ∧ c.deviceId = e.body.deviceId ∧
      c.deviceSequence = e.body.deviceSequence := by
  obtain ⟨_, _, e, _, hc⟩ := mem_candidatesAt.mp (mem_heads.mp h).1
  obtain ⟨ha, state, -, rfl⟩ := asCandidate_eq_some.mp hc
  exact ⟨e, ha, rfl, rfl⟩

theorem accepted_of_mem_appendRecordsAt {path : String} {c : MergedAppendRecord}
    (h : c ∈ appendRecordsAt P authority logs path) : ∃ e, Accepted authority e ∧
      c.deviceId = e.body.deviceId ∧
      c.deviceSequence = e.body.deviceSequence := by
  rw [appendRecordsAt, mem_sortBy, mem_filterMap] at h
  obtain ⟨e, -, hc⟩ := h
  unfold asAppendRecord at hc
  split_ifs at hc with ha
  obtain ⟨contentId, -, rfl⟩ := map_eq_some_iff.mp hc
  exact ⟨e, ha, rfl, rfl⟩

theorem accepted_of_shows {st : MergedDeviceIdentityState}
    (h : mergeDeviceWriterLogs P authority logs = .ok st) {sequence : UInt64}
    (hs : Shows st deviceId sequence) :
    ∃ e, Accepted authority e ∧ e.body.deviceId = deviceId ∧ e.body.deviceSequence = sequence := by
  obtain ⟨path, ⟨c, hc, rfl, rfl⟩ | ⟨records, hr, c, hc, rfl, rfl⟩⟩ := hs
  · obtain ⟨e, he, hd, hq⟩ := accepted_of_mem_heads ((reported_iff_mem_heads h).mp hc)
    exact ⟨e, he, hd.symm, hq.symm⟩
  · obtain ⟨-, -, hst⟩ := merge_eq_ok_iff.mp h
    rw [hst.append] at hr
    obtain ⟨rfl, -⟩ := row_eq_some.mp hr
    obtain ⟨e, he, hd, hq⟩ := accepted_of_mem_appendRecordsAt hc
    exact ⟨e, he, hd.symm, hq.symm⟩

/-! ### What a chain says after a revocation -/

/-- A sequence at or below the cutoff; none if there is no cutoff. -/
def AtOrBelow (cutoff : Option UInt64) (sequence : UInt64) : Prop := ∃ bound, cutoff = some bound ∧
    sequence ≤ bound

/-- The record does not authorize the device, and if it revokes it, then with no higher cutoff. -/
def Upholds (deviceId : String) (cutoff : Option UInt64) (record : DeviceAuthorizationRecord) :
    Prop :=
  match record.body.operation with
  | .authorizeDevice id _ _ _ _ _ => id ≠ deviceId
  | .revokeDevice id cutoff' _ _ =>
      id = deviceId → ∀ bound, cutoff' = some bound → AtOrBelow cutoff bound

/-- The device is revoked, with a cutoff no higher than the given one. -/
def RevokedAt (cutoff : Option UInt64) (known : Option AuthorizedDevice) : Prop :=
  ∃ device, known = some device ∧ device.status = .revoked ∧
    ∀ bound, device.acceptedThroughDeviceSequence = some bound → AtOrBelow cutoff bound

theorem RevokedAt.deviceStep {known : Option AuthorizedDevice} (h : RevokedAt cutoff known)
    {record : DeviceAuthorizationRecord} (hr : Upholds deviceId cutoff record) :
    RevokedAt cutoff (deviceStep deviceId known record.body.operation) := by
  obtain ⟨device, rfl, hstatus, hbound⟩ := h
  unfold Upholds at hr
  cases hop : record.body.operation with
  | authorizeDevice id key encryptionKeys capabilities label createdAt =>
    simp only [hop] at hr
    rw [Authority.Chain.deviceStep, if_neg hr]
    exact ⟨device, rfl, hstatus, hbound⟩
  | revokeDevice id cutoff' reason createdAt =>
    simp only [hop] at hr
    rw [Authority.Chain.deviceStep]
    split_ifs with hid
    · exact ⟨_, rfl, rfl, hr hid⟩
    · exact ⟨device, rfl, hstatus, hbound⟩

theorem RevokedAt.append {records rest : List DeviceAuthorizationRecord}
    (h : RevokedAt cutoff (deviceOf records deviceId))
    (hrest : ∀ record ∈ rest, Upholds deviceId cutoff record) :
    RevokedAt cutoff (deviceOf (records ++ rest) deviceId) := by
  unfold deviceOf at h ⊢
  rw [foldl_append]
  generalize records.foldl _ none = known at h ⊢
  induction rest generalizing known with
  | nil => exact h
  | cons record rest ih =>
    rw [foldl_cons]
    exact ih (fun r hr => hrest r (mem_cons_of_mem record hr)) _
      (h.deviceStep (hrest record mem_cons_self))

theorem RevokedAt.atOrBelow {e : DeviceWriterLogEntry}
    (h : RevokedAt cutoff authority.devices[e.body.deviceId]?) (ha : Accepted authority e) :
    AtOrBelow cutoff e.body.deviceSequence := by
  obtain ⟨device, hd, hstatus, hbound⟩ := h
  obtain ⟨device', hd', hactive | ⟨bound, hc, hle⟩⟩ := ha
  · rw [hd, some_inj] at hd'
    subst hd'
    rw [hstatus] at hactive
    cases hactive
  · rw [hd, some_inj] at hd'
    subst hd'
    obtain ⟨top, htop, hle'⟩ := hbound bound hc
    exact ⟨top, htop, UInt64.le_trans hle hle'⟩

variable {chain : List DeviceAuthorizationRecord}

/-! ### The node -/

theorem atOrBelow_of_shows {st st' : CachedDeviceWriterState} (hst' : CacheOk P identity st')
    (hchain : st'.authorityRecords <+: chain) (hext : st.authorityRecords <+: st'.authorityRecords)
    (hrevoked : RevokedAt cutoff (deviceOf st.authorityRecords deviceId))
    (hrest : ∀ record ∈ chain.drop st.authorityRecords.length, Upholds deviceId cutoff record)
    {sequence : UInt64} (hs : Shows st'.merged deviceId sequence) : AtOrBelow cutoff sequence := by
  obtain ⟨authority, iteration, hv, -, hm⟩ := hst'.backed
  obtain ⟨e, ha, rfl, rfl⟩ := accepted_of_shows hm hs
  obtain ⟨rest, hrest_eq⟩ := hext
  obtain ⟨tail, htail⟩ := hchain
  refine RevokedAt.atOrBelow ?_ ha
  rw [getElem?_devices_of_verify hv, ← hrest_eq]
  refine hrevoked.append fun record hr => hrest record ?_
  rw [← htail, ← hrest_eq, append_assoc, drop_left]
  exact mem_append_left _ hr

/-- **Revocation is permanent against replays.** A node is sent, in sync responses, offers, stored
and published logs and restored states, prefixes of one chain of the identity and any device logs.
At some time it holds a prefix in which the device is revoked, and the rest of the chain neither
authorizes the device again nor revokes it with a higher cutoff. Then at no later time does it show
an entry of the device above the cutoff. -/
theorem revocation_permanent (localIdentity : IdentityId) (localDeviceId : String)
    (maxConcurrency queueCapacity : ℕ) {saved : List (Iteration × PersistedRemoteIdentityState)}
    {before after : List Event}
    (hsaved : ∀ m, Restores identity saved m → m.authorityRecords <+: chain)
    (hevents : ∀ event ∈ before ++ after, ∀ m, Delivers identity event m →
      m.authorityRecords <+: chain)
    {node : NetworkNode} (hnode : node = run P peerIdOf
      (construct P localIdentity localDeviceId maxConcurrency queueCapacity saved) before)
    {st : CachedDeviceWriterState} (hheld : node.cached identity = some st)
    {authority : VerifiedIdentityAuthority} {device : AuthorizedDevice}
    (hauthority : verifyIdentityAuthorityChain P identity st.authorityRecords = .ok authority)
    (hdevice : authority.devices[deviceId]? = some device) (hrevoked : device.status = .revoked)
    (hchain : ∀ record ∈ chain.drop st.authorityRecords.length,
      Upholds deviceId device.acceptedThroughDeviceSequence record) {st' : CachedDeviceWriterState}
    (hst' : (run P peerIdOf node after).cached identity = some st') {sequence : UInt64}
    (hshows : Shows st'.merged deviceId sequence) :
    AtOrBelow device.acceptedThroughDeviceSequence sequence := by
  have hbefore : ∀ event ∈ before, ∀ m, Delivers identity event m →
    CarriesPrefix P identity chain m :=
    fun event he m hm _ _ => hevents event (mem_append_left _ he) m hm
  have hafter : ∀ event ∈ after, ∀ m, Delivers identity event m →
    CarriesPrefix P identity chain m :=
    fun event he m hm _ _ => hevents event (mem_append_right _ he) m hm
  obtain ⟨hok, hsteps⟩ : NodeOk identity (CarriesPrefix P identity chain) node ∧
      ReflTransGen (CacheStep P identity (CarriesPrefix P identity chain)) none
        (node.cached identity) := by
    rw [hnode]
    exact run_cacheSteps localIdentity localDeviceId maxConcurrency queueCapacity
      (fun m hm _ _ => hsaved m hm) hbefore
  rw [hheld] at hsteps
  obtain ⟨hf, -⟩ := extends_of_reflTransGen hsteps (by simp [Follows])
  obtain ⟨-, hsteps'⟩ : NodeOk identity (CarriesPrefix P identity chain)
      (run P peerIdOf node after) ∧ _ := hok.run hafter
  rw [hheld, hst'] at hsteps'
  obtain ⟨hf', hext⟩ := extends_of_reflTransGen hsteps' hf
  obtain ⟨_, hmem, hext⟩ := hext st rfl
  cases hmem
  obtain ⟨hcache, hp⟩ := hf' st' rfl
  have hdev : RevokedAt device.acceptedThroughDeviceSequence (deviceOf st.authorityRecords
    deviceId) := by
    refine ⟨device, ?_, hrevoked, fun bound hb => ⟨bound, hb, UInt64.le_refl _⟩⟩
    rw [← getElem?_devices_of_verify hauthority, hdevice]
  exact atOrBelow_of_shows hcache hp hext hdev hchain hshows

/-! ### A tablet -/

def tabletAuthorized : DeviceAuthorizationRecord := Sample.record 0 none
    (Sample.authorize "tablet" 3)

/-- The tablet's first entry stays accepted, what it writes later does not. -/
def tabletKept : DeviceAuthorizationRecord := Sample.record 1 (some tabletAuthorized)
    (revoke "tablet" (some 0))

/-- Nothing the tablet wrote stays accepted. -/
def tabletDropped : DeviceAuthorizationRecord := Sample.record 1 (some tabletAuthorized)
    (revoke "tablet" none)

def tabletFirst : DeviceWriterLogEntry := entry (Sample.key 3) "tablet" 0 none
    (setSingleton "/note" 3) []

def tabletLate : DeviceWriterLogEntry :=
  entry (Sample.key 3) "tablet" 1 (some tabletFirst) (setSingleton "/note" 5) []

/-- Someone else's node, sent records and logs of the owner. -/
def reader (sent : List (List DeviceAuthorizationRecord × Logs)) : NetworkNode :=
  run primitives (fun _ => none) (construct primitives ⟨Sample.key 9⟩ "reader" 2 8 [])
    (sent.map fun s => .store default owner s.1 s.2)

/-- The chain with the revocation is stored; then the tablet's whole log comes with the chain before
the revocation. -/
theorem revocation_permanent_tablet : ∃ (st st' : CachedDeviceWriterState)
    (device : AuthorizedDevice),
      (reader [([tabletAuthorized, tabletKept], [])]).cached owner = some st ∧
      (run primitives (fun _ => none) (reader [([tabletAuthorized, tabletKept], [])])
        [.store default owner [tabletAuthorized] [[tabletFirst, tabletLate]]]).cached
          owner = some st' ∧
      device.status = .revoked ∧ Shows st'.merged "tablet" 0 ∧
      AtOrBelow device.acceptedThroughDeviceSequence 0 := by
  have hheld : ((reader [([tabletAuthorized, tabletKept], [])]).cached owner).map
      (·.authorityRecords) = some [tabletAuthorized, tabletKept] := by
    decide +kernel
  obtain ⟨st, hst, hrecords⟩ := map_eq_some_iff.mp hheld
  have hlater : ((run primitives (fun _ => none)
      (reader [([tabletAuthorized, tabletKept], [])])
      [.store default owner [tabletAuthorized] [[tabletFirst, tabletLate]]]).cached
        owner).map (·.merged.singletonPaths["/note"]?) =
      some (some (mergedEntry primitives tabletFirst (.present (content 3)))) := by
    decide +kernel
  obtain ⟨st', hst', hwinner⟩ := map_eq_some_iff.mp hlater
  have hdevice : (verifyIdentityAuthorityChain primitives owner
      [tabletAuthorized, tabletKept]).toOption.map (fun authority =>
        authority.devices["tablet"]?.map (·.status)) = some (some .revoked) := by
    decide +kernel
  obtain ⟨authority, hauthority, hd⟩ := exists_eq_ok_of_toOption_map hdevice
  obtain ⟨device, hd, hrevoked⟩ := map_eq_some_iff.mp hd
  have hshows : Shows st'.merged "tablet" 0 := ⟨"/note", .inl ⟨_, .inl hwinner, rfl, rfl⟩⟩
  refine ⟨st, st', device, hst, hst', hrevoked, hshows, ?_⟩
  have hsaved : ∀ m, Restores owner [] m → m.authorityRecords <+: [tabletAuthorized,
    tabletKept] := by
    simp [Restores]
  have hevents : ∀ event ∈ [Event.store default owner [tabletAuthorized, tabletKept] []] ++
      [Event.store default owner [tabletAuthorized] [[tabletFirst, tabletLate]]],
      ∀ m, Delivers owner event m → m.authorityRecords <+: [tabletAuthorized, tabletKept] := by
    simp [Delivers, Message.full]
  refine revocation_permanent ⟨Sample.key 9⟩ "reader" 2 8 hsaved hevents rfl hst
    (hrecords ▸ hauthority) hd hrevoked ?_ hst' hshows
  simp [hrecords]

/-- **A second revocation can raise the cutoff.** The chain revokes the tablet with nothing
accepted, and later again with its first entry accepted; it never authorizes it a second time. A
node that holds the chain up to the first revocation and is sent the rest shows the entry. -/
theorem revocation_raised : ∃ (raised : DeviceAuthorizationRecord)
    (st st' : CachedDeviceWriterState)
      (authority : VerifiedIdentityAuthority) (device : AuthorizedDevice),
      (reader [([tabletAuthorized, tabletDropped], [])]).cached owner = some st ∧
      st.authorityRecords = [tabletAuthorized, tabletDropped] ∧
      verifyIdentityAuthorityChain primitives owner st.authorityRecords = .ok authority ∧
      authority.devices["tablet"]? = some device ∧ device.status = .revoked ∧
      raised.body.operation = revoke "tablet" (some 0) ∧
      (reader [([tabletAuthorized, tabletDropped], []),
        ([tabletAuthorized, tabletDropped, raised], [[tabletFirst]])]).cached owner = some st' ∧
      Shows st'.merged "tablet" 0 ∧ ¬ AtOrBelow device.acceptedThroughDeviceSequence 0 := by
  have hheld : ((reader [([tabletAuthorized, tabletDropped], [])]).cached owner).map
      (·.authorityRecords) = some [tabletAuthorized, tabletDropped] := by
    decide +kernel
  obtain ⟨st, hst, hrecords⟩ := map_eq_some_iff.mp hheld
  have hlater :
    ((reader [([tabletAuthorized, tabletDropped], []), ([tabletAuthorized, tabletDropped,
        Sample.record 2 (some tabletDropped) (revoke "tablet" (some 0))],
        [[tabletFirst]])]).cached owner).map (·.merged.singletonPaths["/note"]?) =
      some (some (mergedEntry primitives tabletFirst (.present (content 3)))) := by
    decide +kernel
  obtain ⟨st', hst', hwinner⟩ := map_eq_some_iff.mp hlater
  have hdevice : (verifyIdentityAuthorityChain primitives owner
      [tabletAuthorized, tabletDropped]).toOption.map (fun authority =>
        authority.devices["tablet"]?.map fun device =>
          (device.status, device.acceptedThroughDeviceSequence)) =
            some (some (.revoked, none)) := by
    decide +kernel
  obtain ⟨authority, hauthority, hd⟩ := exists_eq_ok_of_toOption_map hdevice
  obtain ⟨device, hd, hpair⟩ := map_eq_some_iff.mp hd
  obtain ⟨hrevoked, hcutoff⟩ := Prod.ext_iff.mp hpair
  refine ⟨_, st, st', authority, device, hst, hrecords, hrecords ▸ hauthority, hd, hrevoked, rfl,
    hst', ⟨"/note", .inl ⟨_, .inl hwinner, rfl, rfl⟩⟩, ?_⟩
  rintro ⟨bound, hb, -⟩
  rw [show device.acceptedThroughDeviceSequence = none from hcutoff] at hb
  cases hb

end Jolt.Network.Revocation
