import Jolt.Network.CacheSteps
import Jolt.Lib.LastGreatest

/-! # Adoption of authority chains

Several chains of one identity can verify, if its root key is used in more than one place. A node
that is sent chains, one after the other, adopts a chain if it is at least as long as the one it
holds, and if the logs it has cached merge under it. So of two chains of the same length the last
one stays, and what a node holds in the end depends on the order exactly if two different chains are
the longest ones it can adopt (`adoption_order_iff`).

The latest sequence of a chain that verifies is its length less one, so the code's comparison of
latest sequences is a comparison of lengths here. -/

namespace Jolt.Network.Adoption

open Std Relation Lib Checks LastGreatest SharedCell Jolt.Core Jolt.Core.Types IdentityAuthority
  DeviceWriterLog Authority.Chain Merge.Spec Merge.Determinism DeviceWriterCache CacheSpec Node
  CacheSteps List Option
open Sample (key owner primitives)

variable (P : Primitives) (identity : IdentityId) (node : NetworkNode)

/-- The cached logs merge under the chain, and for the local identity they fit the local log. -/
def adoptable (records : List DeviceAuthorizationRecord) : Bool :=
  match verifyIdentityAuthorityChain P identity records with
  | .error _ => false
  | .ok authority =>
    (mergeDeviceWriterLogs P authority ((default : Iteration).values
      (cachedLogs (node.cached identity)))).isOk &&
      !(decide (identity = node.identity) && node.localHistoryDiverged P identity
        (cachedLogs (node.cached identity)))

def heldChain : Option (List DeviceAuthorizationRecord) := (node.cached identity).map
    (·.authorityRecords)

/-- The chain the node holds and the merged state under it. -/
def holding : Option (List DeviceAuthorizationRecord × MergedDeviceIdentityState) :=
  (node.cached identity).map fun st => (st.authorityRecords, st.merged)

/-- `store_verified_device_writer_logs` for chains, one after the other. -/
def storeChains (arrivals : List (Ambient × List DeviceAuthorizationRecord)) : NetworkNode :=
  arrivals.foldl (fun node a => (node.storeVerifiedDeviceWriterLogs P a.1 identity a.2 []).2) node

/-- The chains in some order, with nothing going wrong on disk. -/
structure Arrival (chains : List (List DeviceAuthorizationRecord))
    (arrivals : List (Ambient × List DeviceAuthorizationRecord)) : Prop where
  perm : (arrivals.map (·.2)).Perm chains
  saved : ∀ a ∈ arrivals, a.1.saved = .ok ()

/-- One of the longest among the chains that the node can adopt, and not shorter than the one it
holds. -/
def Leads (chains : List (List DeviceAuthorizationRecord)) :
    List DeviceAuthorizationRecord → Prop :=
  Greatest (fun records => adoptable P identity node records = true) List.length
    (heldChain identity node) chains

variable {P : Primitives} {peerIdOf : Bytes → Option PeerId} {identity : IdentityId}
  {node : NetworkNode} {ambient : Ambient} {records : List DeviceAuthorizationRecord}
  {authority : VerifiedIdentityAuthority} {existing : Option CachedDeviceWriterState}
  {iteration : Iteration} {st : CachedDeviceWriterState} {node' : NetworkNode}
  {chains : List (List DeviceAuthorizationRecord)}

/-! ### One chain -/

theorem exists_merge_of_iteration {logs : DeviceLogs} {merged : MergedDeviceIdentityState}
    {iteration' : Iteration} (hcf : CollisionFree P ((default : Iteration).values logs).flatten)
    (h : mergeDeviceWriterLogs P authority (iteration.values logs) = .ok merged) :
    mergeDeviceWriterLogs P authority (iteration'.values logs) = .ok merged :=
  merge_ok_of_perm (values_perm iteration iteration' logs)
    (hcf.mono (values_perm iteration default logs).flatten.subset) h

/-- A chain without logs: the logs stay, and the merge is that of the cached logs under the chain
that is chosen. -/
theorem merge_chain_eq_ok_iff
    (hv : verifyIdentityAuthorityChain P identity records = .ok authority) :
    (Message.full records []).merge P iteration identity existing = .ok st ↔
      ∃ adopted, st.authorityRecords = chooseRecords existing authority records ∧
        verifyIdentityAuthorityChain P identity st.authorityRecords = .ok adopted ∧
        st.authoritySequence = adopted.latestSequence ∧ st.deviceLogs = cachedLogs existing ∧
        mergeDeviceWriterLogs P adopted (iteration.values st.deviceLogs) = .ok st.merged ∧
        st.lastVerifiedAt = (existing.map (·.lastVerifiedAt)).getD 0 ∧
        st.sourcePeer = existing.bind (·.sourcePeer) := by
  have hheads : checkHeads P iteration (Message.full records []).syncVersion
      (Message.full records []).heads (Message.full records []).complete st.deviceLogs =
        .ok () := by
    simp [checkHeads, Message.full, legacyDeviceWriterSyncVersion, deltaDeviceWriterSyncVersion]
  rw [Message.merge, mergeVerified_eq_ok_iff]
  constructor
  · rintro ⟨candidate, adopted, hc, hr, ha, hs, hl, -, hm, hl', hp⟩
    have hcand : authority = candidate := Except.ok.inj (hv.symm.trans hc)
    subst hcand
    have hlogs : cachedLogs existing = st.deviceLogs := Except.ok.inj hl
    exact ⟨adopted, hr, ha, hs, hlogs.symm, hm, hl', hp⟩
  · rintro ⟨adopted, hr, ha, hs, hl, hm, hl', hp⟩
    exact ⟨authority, adopted, hv, hr, ha, hs, congrArg Except.ok hl.symm, hheads, hm, hl', hp⟩

theorem cached_storeVerified {logs : Logs} (hsaved : ambient.saved = .ok ()) :
    (node.storeVerifiedDeviceWriterLogs P ambient identity records logs).2.cached identity =
      match (Message.full records logs).merge P ambient.iteration identity
        (node.cached identity) with
      | .error _ => node.cached identity
      | .ok st =>
        if identity = node.identity ∧ node.localHistoryDiverged P identity st.deviceLogs = true then
          node.cached identity
        else some (stamp st ambient.now none) := by
  unfold NetworkNode.storeVerifiedDeviceWriterLogs Message.merge Message.full
  cases hmerge : mergeVerifiedDeviceWriterState P ambient.iteration identity (node.cached identity)
      records logs legacyDeviceWriterSyncVersion [] true with
  | error e => rfl
  | ok st =>
    have hput : ∀ st', (node.insertState identity st').cached identity = some st' := by
      intro st'
      rw [NetworkNode.cached, insertState_self, Cell.value?_put]
    by_cases hid : identity = node.identity
    · by_cases hdiv : node.localHistoryDiverged P identity st.deviceLogs = true
      · dsimp only
        rw [if_pos hid, if_pos hdiv, if_pos ⟨hid, hdiv⟩]
        rfl
      · dsimp only
        rw [if_pos hid, if_neg hdiv, if_neg fun h => hdiv h.2]
        exact hput _
    · dsimp only
      rw [if_neg hid, hsaved, if_neg fun h => hid h.1]
      exact hput _

/-- What a store of a chain does not change, and what `adoptable` depends on. -/
structure SameLocal (identity : IdentityId) (node node' : NetworkNode) : Prop where
  localIdentity : node'.identity = node.identity
  localDeviceId : node'.localDeviceId = node.localDeviceId
  localLogs : node'.localDeviceWriterLogs = node.localDeviceWriterLogs
  logs : cachedLogs (node'.cached identity) = cachedLogs (node.cached identity)

theorem SameLocal.refl (node : NetworkNode) : SameLocal identity node node := ⟨rfl, rfl, rfl, rfl⟩

theorem SameLocal.trans {node'' : NetworkNode} (h : SameLocal identity node node')
    (h' : SameLocal identity node' node'') : SameLocal identity node node'' :=
  ⟨h'.localIdentity.trans h.localIdentity, h'.localDeviceId.trans h.localDeviceId,
    h'.localLogs.trans h.localLogs, h'.logs.trans h.logs⟩

theorem SameLocal.diverged (h : SameLocal identity node node') (logs : DeviceLogs) :
    node'.localHistoryDiverged P identity logs = node.localHistoryDiverged P identity logs := by
  unfold NetworkNode.localHistoryDiverged
  rw [h.localDeviceId, h.localLogs]

theorem SameLocal.adoptable {node' : NetworkNode} (h : SameLocal identity node node')
    (records : List DeviceAuthorizationRecord) :
    adoptable P identity node' records = adoptable P identity node records := by
  unfold Adoption.adoptable
  rw [h.logs, h.localIdentity, h.diverged]

theorem adoptable_iff (hv : verifyIdentityAuthorityChain P identity records = .ok authority) :
    adoptable P identity node records = true ↔ (∃ merged, mergeDeviceWriterLogs P authority
        ((default : Iteration).values (cachedLogs (node.cached identity))) = .ok merged) ∧
      ¬ (identity = node.identity ∧
        node.localHistoryDiverged P identity (cachedLogs (node.cached identity)) = true) := by
  unfold adoptable
  rw [hv]
  simp only [Bool.and_eq_true, Bool.not_eq_true', Bool.and_eq_false_iff, decide_eq_false_iff_not,
    not_and_or, Bool.not_eq_true]
  refine and_congr_left fun _ => ⟨exists_eq_ok_of_isOk, ?_⟩
  rintro ⟨merged, h⟩
  rw [h]
  rfl

/-- What is held after one chain, of the cached states before and after. -/
structure AfterChain (P : Primitives) (identity : IdentityId) (node : NetworkNode)
    (records : List DeviceAuthorizationRecord) (existing' : Option CachedDeviceWriterState) :
    Prop where
  cacheOk : ∀ st ∈ existing', CacheOk P identity st
  logs : cachedLogs existing' = cachedLogs (node.cached identity)
  chain : existing'.map (·.authorityRecords) =
    adopt (fun records => adoptable P identity node records = true) List.length
      (heldChain identity node) records

theorem chooseRecords_eq_ite (hst : CacheOk P identity st)
    (hv : verifyIdentityAuthorityChain P identity records = .ok authority) :
    chooseRecords (some st) authority records =
      if st.authorityRecords.length ≤ records.length then records else st.authorityRecords := by
  obtain ⟨held, _, hheld, hseq, -⟩ := hst.backed
  have hlen := latestSequence_of_verify hv
  have hlen' := latestSequence_of_verify hheld
  have hle : st.authoritySequence ≤ authority.latestSequence ↔ st.authorityRecords.length ≤
    records.length := by
    rw [hseq, UInt64.le_iff_toNat_le]
    omega
  simp only [chooseRecords, hle]

theorem adopt_of_diverged (hv : verifyIdentityAuthorityChain P identity records = .ok authority)
    (hlocal : identity = node.identity ∧
      node.localHistoryDiverged P identity (cachedLogs (node.cached identity)) = true) :
    heldChain identity node = adopt (fun records => adoptable P identity node records = true)
      List.length (heldChain identity node) records := by
  unfold adopt
  rw [if_neg]
  rintro ⟨hgood, -⟩
  exact ((adoptable_iff hv).mp hgood).2 hlocal

theorem Arrival.forall_mem {arrivals : List (Ambient × List DeviceAuthorizationRecord)}
    (h : Arrival chains arrivals) (hverified : ∀ records ∈ chains,
      ∃ authority, verifyIdentityAuthorityChain P identity records = .ok authority) :
    ∀ a ∈ arrivals, a.1.saved = .ok () ∧ ∃ authority, verifyIdentityAuthorityChain P identity a.2 =
      .ok authority :=
  fun a ha => ⟨h.saved a ha, hverified a.2 (h.perm.mem_iff.mp (mem_map_of_mem ha))⟩

theorem arrival_default {l : List (List DeviceAuthorizationRecord)} (h : l.Perm chains) :
    Arrival chains (l.map fun records => (default, records)) := by
  refine ⟨?_, ?_⟩
  · rw [List.map_map]
    simpa using h
  · intro a ha
    obtain ⟨records, -, rfl⟩ := mem_map.mp ha
    rfl

section

variable (hok : ∀ st ∈ node.cached identity, CacheOk P identity st)
include hok

variable (hcf : CollisionFree P ((default : Iteration).values
  (cachedLogs (node.cached identity))).flatten)

section

variable (hv : verifyIdentityAuthorityChain P identity records = .ok authority)
include hv

theorem chosen_cases : ((∀ h ∈ heldChain identity node, h.length ≤ records.length) ∧
        chooseRecords (node.cached identity) authority records = records) ∨
      ∃ st, node.cached identity = some st ∧ records.length < st.authorityRecords.length ∧
        chooseRecords (node.cached identity) authority records = st.authorityRecords := by
  cases hcached : node.cached identity with
  | none => exact .inl ⟨by simp [heldChain, hcached], rfl⟩
  | some st =>
    rw [chooseRecords_eq_ite (hok st hcached) hv]
    split_ifs with hle
    · exact .inl ⟨by simpa [heldChain, hcached] using hle, rfl⟩
    · exact .inr ⟨st, rfl, by omega, rfl⟩

include hcf

theorem adopt_of_merge
    (h : (Message.full records []).merge P iteration identity (node.cached identity) = .ok st)
    (hlocal : ¬ (identity = node.identity ∧
      node.localHistoryDiverged P identity (cachedLogs (node.cached identity)) = true)) :
    some st.authorityRecords = adopt (fun records => adoptable P identity node records = true)
      List.length (heldChain identity node) records := by
  obtain ⟨adopted, hr, ha, -, hl, hm, -⟩ := (merge_chain_eq_ok_iff hv).mp h
  unfold adopt
  rcases chosen_cases hok hv with ⟨hlen, hchosen⟩ | ⟨held, hheld, hlt, hchosen⟩
  · rw [hr, hchosen] at ha ⊢
    have hadopted : authority = adopted := Except.ok.inj (hv.symm.trans ha)
    subst hadopted
    rw [hl] at hm
    have hgood : adoptable P identity node records = true :=
      (adoptable_iff hv).mpr ⟨⟨_, exists_merge_of_iteration hcf hm⟩, hlocal⟩
    rw [if_pos ⟨hgood, hlen⟩]
  · rw [hr, hchosen, if_neg]
    · rw [heldChain, hheld, map_some]
    · rintro ⟨-, hle⟩
      have := hle held.authorityRecords (by simp [heldChain, hheld])
      omega

/-- A chain that is not merged is not adopted. -/
theorem adopt_of_not_merge {e : Fault NetworkError}
    (h : (Message.full records []).merge P iteration identity (node.cached identity) = .error e) :
    heldChain identity node = adopt (fun records => adoptable P identity node records = true)
      List.length (heldChain identity node) records := by
  unfold adopt
  rw [if_neg]
  rintro ⟨hgood, hle⟩
  obtain ⟨⟨merged, hmerged⟩, -⟩ := (adoptable_iff hv).mp hgood
  rcases chosen_cases hok hv with ⟨-, hchosen⟩ | ⟨held, hheld, hlt, -⟩
  · have hmerge : ∃ st, (Message.full records []).merge P iteration identity
      (node.cached identity) = .ok st :=
      ⟨⟨authority.latestSequence, merged, _, _, records, cachedLogs (node.cached identity)⟩,
        (merge_chain_eq_ok_iff hv).mpr ⟨authority, hchosen.symm, hv, rfl, rfl,
          exists_merge_of_iteration hcf hmerged, rfl, rfl⟩⟩
    obtain ⟨st, hst⟩ := hmerge
    rw [h] at hst
    cases hst
  · have := hle held.authorityRecords (by simp [heldChain, hheld])
    omega

/-- **One chain.** -/
theorem afterChain_store (hsaved : ambient.saved = .ok ()) : AfterChain P identity node records
      ((node.storeVerifiedDeviceWriterLogs P ambient identity records []).2.cached identity) := by
  rw [cached_storeVerified hsaved]
  cases hmerge : (Message.full records []).merge P ambient.iteration identity
    (node.cached identity) with
  | error e => exact ⟨hok, rfl, adopt_of_not_merge hok hcf hv hmerge⟩
  | ok st =>
    obtain ⟨_, -, -, -, hlogs, -⟩ := (merge_chain_eq_ok_iff hv).mp hmerge
    dsimp only
    rw [hlogs]
    split_ifs with hlocal
    · exact ⟨hok, rfl, adopt_of_diverged hv hlocal⟩
    · have hchain := adopt_of_merge hok hcf hv hmerge hlocal
      refine ⟨?_, hlogs, hchain⟩
      rintro _ ⟨⟩
      exact cacheOk_stamp (cacheOk_of_mergeVerified hok hmerge) _ _

end

/-! ### Many chains -/

include hcf

/-- The chains so far: the local state that matters is as it was, and the chain that is held is the
last of the greatest. -/
theorem afterChains :
    ∀ {arrivals : List (Ambient × List DeviceAuthorizationRecord)},
      (∀ a ∈ arrivals, a.1.saved = .ok () ∧
        ∃ authority, verifyIdentityAuthorityChain P identity a.2 = .ok authority) →
      let node' := storeChains P identity node arrivals
      SameLocal identity node node' ∧ (∀ st ∈ node'.cached identity, CacheOk P identity st) ∧
        heldChain identity node' = (arrivals.map (·.2)).foldl
          (adopt (fun records => adoptable P identity node records = true) List.length)
          (heldChain identity node) := by
  intro arrivals
  induction arrivals using List.reverseRecOn with
  | nil => exact fun _ => ⟨.refl node, hok, rfl⟩
  | append_singleton arrivals a ih =>
    intro hall
    obtain ⟨hsame, hok', hheld⟩ := ih fun b hb => hall b (mem_append_left _ hb)
    obtain ⟨hsaved, authority, hv⟩ := hall a (by simp)
    have hcf' := hcf
    rw [← hsame.logs] at hcf'
    obtain ⟨hafter, hlogs, hchain⟩ := afterChain_store hok' hcf' hv hsaved
    obtain ⟨hid, hdev, hlocal⟩ := localFrame_storeVerified (P := P)
      (storeChains P identity node arrivals) a.1 identity a.2 []
    have hstep : storeChains P identity node (arrivals ++ [a]) =
        ((storeChains P identity node arrivals).storeVerifiedDeviceWriterLogs P a.1 identity
          a.2 []).2 := by
      simp [storeChains]
    rw [hstep]
    refine ⟨hsame.trans ⟨hid, hdev, hlocal, hlogs⟩, hafter, ?_⟩
    rw [map_append, foldl_append, ← hheld, map_singleton, foldl_cons, foldl_nil, heldChain, hchain]
    simp only [hsame.adoptable]

theorem holding_eq (hok' : ∀ st ∈ node'.cached identity, CacheOk P identity st)
    (hchain : heldChain identity node = heldChain identity node')
    (hlogs : cachedLogs (node.cached identity) = cachedLogs (node'.cached identity)) :
    holding identity node = holding identity node' := by
  unfold heldChain at hchain
  unfold holding
  cases hst : node.cached identity with
  | none =>
    rw [hst, map_none] at hchain
    rw [map_eq_none_iff.mp hchain.symm, map_none]
  | some st =>
    rw [hst, map_some] at hchain
    obtain ⟨st', hst', hrecords⟩ := map_eq_some_iff.mp hchain.symm
    rw [hst, hst'] at hlogs
    rw [hst] at hcf
    obtain ⟨-, hmerged⟩ := merged_eq_of_cacheOk (hok st hst) (hok' st' hst') hrecords.symm hlogs hcf
    rw [hst', map_some, map_some, hrecords, hmerged]

end

/-- **When the order of chains does not matter.** A node, after any run, is sent chains that verify.
The chain it holds in the end and the merged state under it do not depend on the order exactly if no
two different chains lead. -/
theorem adoption_order_iff (localIdentity : IdentityId) (localDeviceId : String)
    (maxConcurrency queueCapacity : ℕ) {saved : List (Iteration × PersistedRemoteIdentityState)}
    {events : List Event} (hnode : node = run P peerIdOf
      (construct P localIdentity localDeviceId maxConcurrency queueCapacity saved) events)
    {chains : List (List DeviceAuthorizationRecord)}
    (hverified : ∀ records ∈ chains, ∃ authority, verifyIdentityAuthorityChain P identity records =
      .ok authority)
    (hcf : CollisionFree P ((default : Iteration).values
      (cachedLogs (node.cached identity))).flatten) :
    (∀ arrivals arrivals', Arrival chains arrivals → Arrival chains arrivals' →
      holding identity (storeChains P identity node arrivals) =
        holding identity (storeChains P identity node arrivals')) ↔
      ∀ records records', Leads P identity node chains records →
        Leads P identity node chains records' → records = records' := by
  have hok : ∀ st ∈ node.cached identity, CacheOk P identity st := by
    rw [hnode]
    exact cacheOk_of_reflTransGen (run_cacheSteps localIdentity localDeviceId maxConcurrency
      queueCapacity (fun _ _ => trivial) fun _ _ _ _ => trivial).2
  unfold Leads
  rw [← foldl_adopt_perm_iff]
  constructor
  · intro h l₁ l₂ hp₁ hp₂
    have heq := h _ _ (arrival_default hp₁) (arrival_default hp₂)
    obtain ⟨-, -, hheld₁⟩ := afterChains hok hcf ((arrival_default hp₁).forall_mem hverified)
    obtain ⟨-, -, hheld₂⟩ := afterChains hok hcf ((arrival_default hp₂).forall_mem hverified)
    have hfst : ∀ node' : NetworkNode, heldChain identity node' = (holding identity node').map
      Prod.fst := by
      intro node'
      rw [heldChain, holding, Option.map_map]
      rfl
    rw [hfst, heq, ← hfst, hheld₂] at hheld₁
    simpa [List.map_map, Function.comp_def] using hheld₁.symm
  · intro h arrivals arrivals' ha ha'
    obtain ⟨hsame, hok₁, hheld⟩ := afterChains hok hcf (ha.forall_mem hverified)
    obtain ⟨hsame', hok₂, hheld'⟩ := afterChains hok hcf (ha'.forall_mem hverified)
    refine holding_eq hok₁ ?_ hok₂ ?_ (hsame.logs.trans hsame'.logs.symm)
    · rw [hsame.logs]
      exact hcf
    · rw [hheld, hheld']
      exact h _ _ ha.perm ha'.perm

/-! ### Two root-key holders -/

def newcomer : NetworkNode := construct primitives ⟨key 9⟩ "newcomer" 2 8 []

def laptopChain : List DeviceAuthorizationRecord := [Sample.authorizeLaptop]

def longerChain : List DeviceAuthorizationRecord := [Sample.authorizeLaptop, Sample.authorizePhone]

/-- A chain of the same root key that starts with the phone. -/
def phoneChain : List DeviceAuthorizationRecord :=
    [Sample.record 0 none (Sample.authorize "phone" 2)]

/-- A chain and a longer one: the longer one stays, whichever comes first. -/
theorem adoption_order_iff_longer : adoptable primitives owner newcomer longerChain = true ∧
    ∀ arrivals arrivals', Arrival [laptopChain, longerChain] arrivals →
      Arrival [laptopChain, longerChain] arrivals' →
      holding owner (storeChains primitives owner newcomer arrivals) =
        holding owner (storeChains primitives owner newcomer arrivals') := by
  have hverified : ∀ records ∈ [laptopChain, longerChain], ∃ authority,
      verifyIdentityAuthorityChain primitives owner records = .ok authority := by
    have hall : ∀ records ∈ [laptopChain, longerChain],
        (verifyIdentityAuthorityChain primitives owner records).isOk = true := by
      decide +kernel
    exact fun records hr => exists_eq_ok_of_isOk (hall records hr)
  have hadoptable : adoptable primitives owner newcomer longerChain = true := by
    decide +kernel
  have hleads : ∀ records, Leads primitives owner newcomer [laptopChain, longerChain]
      records → records = longerChain := by
    intro records h
    have hle : longerChain.length ≤ records.length := h.greatest longerChain (by simp) hadoptable
    have hmem := h.mem
    simp only [mem_cons, not_mem_nil, or_false] at hmem
    rcases hmem with rfl | rfl
    · exact absurd hle (by decide)
    · rfl
  have hnode : newcomer = run primitives (fun _ => none)
      (construct primitives ⟨key 9⟩ "newcomer" 2 8 []) [] := rfl
  have hcf : CollisionFree primitives
      ((default : Iteration).values (cachedLogs (newcomer.cached owner))).flatten := by
    decide +kernel
  refine ⟨hadoptable, (adoption_order_iff ⟨key 9⟩ "newcomer" 2 8 hnode hverified hcf).mpr ?_⟩
  intro records records' h h'
  rw [hleads records h, hleads records' h']

/-- **Of two chains of the same length the last one stays.** -/
theorem adoption_order_matters : (∀ records ∈ [laptopChain, phoneChain], ∃ authority,
      verifyIdentityAuthorityChain primitives owner records = .ok authority) ∧
    ∃ arrivals arrivals', Arrival [laptopChain, phoneChain] arrivals ∧
      Arrival [laptopChain, phoneChain] arrivals' ∧
      holding owner (storeChains primitives owner newcomer arrivals) ≠
        holding owner (storeChains primitives owner newcomer arrivals') := by
  have hall : ∀ records ∈ [laptopChain, phoneChain],
      (verifyIdentityAuthorityChain primitives owner records).isOk = true := by
    decide +kernel
  refine ⟨fun records hr => exists_eq_ok_of_isOk (hall records hr), _, _,
    arrival_default (.refl _), arrival_default (.swap laptopChain phoneChain []), fun heq => ?_⟩
  have hfirst : (holding owner (storeChains primitives owner newcomer
      ([laptopChain, phoneChain].map fun records => (default, records)))).map (·.1) =
        some phoneChain := by
    decide +kernel
  have hsecond : (holding owner (storeChains primitives owner newcomer
      ([phoneChain, laptopChain].map fun records => (default, records)))).map (·.1) =
        some laptopChain := by
    decide +kernel
  rw [heq, hsecond] at hfirst
  exact absurd (Option.some.inj hfirst) (by decide)

end Jolt.Network.Adoption
