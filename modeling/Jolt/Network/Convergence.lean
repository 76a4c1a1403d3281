import Jolt.Network.CacheSpec

/-! # Convergence of the cached state

Nodes that are sent, in any order and through each other, prefixes of one authority chain and logs
signed by the devices it authorizes end with the same cached state (`plans_converge`).

A delivery is judged under the chain known at the time, which may be shorter than the one known
later, but nothing is lost by that: an entry of a device not yet known is kept with its log and
judged again at every later merge. What a node holds is a function of what it was sent. It holds the
longest chain, since prefixes of one chain are ordered by length, and for each device the newest log
(`Summary`). -/

namespace Jolt.Network.Convergence

open Std Lib Checks Sorting Newest Jolt.Core Jolt.Core.Types IdentityAuthority DeviceWriterLog
  Authority.Chain Merge Spec Shape Refine Determinism Causality DeviceWriterCache CacheSpec List
open Sample (authorizeLaptop authorizePhone laptopNote owner phoneNote primitives)

variable {P : Primitives} {identity : IdentityId} {chain : List DeviceAuthorizationRecord}
  {authority : VerifiedIdentityAuthority} {secret : String → Bytes32} {deviceId : String}

/-! ### Deliveries -/

/-- What a node is sent: authority records and full logs. -/
structure Delivery where
  records : List DeviceAuthorizationRecord
  logs : Logs

/-- The merge of a delivery of full logs, as `store_verified_device_writer_logs` calls it. -/
def mergeDelivery (P : Primitives) (iteration : Iteration) (identity : IdentityId)
    (existing : Option CachedDeviceWriterState) (d : Delivery) :
    Except (Fault NetworkError) CachedDeviceWriterState :=
  mergeVerifiedDeviceWriterState P iteration identity existing d.records d.logs
    legacyDeviceWriterSyncVersion [] true

/-- The chain never authorizes one device with two keys. -/
def SingleKey (chain : List DeviceAuthorizationRecord) : Prop :=
  ∀ deviceId key key', Authorizes chain deviceId key → Authorizes chain deviceId key' → key = key'

/-- A log of valid shape, each entry signed with the secret key of its device, whose public key the
chain authorizes. -/
structure SignedLog (P : Primitives) (identity : IdentityId)
    (chain : List DeviceAuthorizationRecord) (secret : String → Bytes32) (deviceId : String)
    (log : List DeviceWriterLogEntry) : Prop where
  shape : DeviceLog P identity deviceId log
  authorized : Authorizes chain deviceId (P.verifyingKey (secret deviceId)).bytes
  signed : ∀ e ∈ log, e.signature = P.sign (secret deviceId) (e.body.canonicalBytes P)

/-- A non-empty prefix of the chain, and signed logs. -/
structure Honest (P : Primitives) (identity : IdentityId) (chain : List DeviceAuthorizationRecord)
    (secret : String → Bytes32) (d : Delivery) : Prop where
  ne_nil : d.records ≠ []
  isPrefix : d.records <+: chain
  logs : ∀ log ∈ d.logs, log = [] ∨ ∃ deviceId, SignedLog P identity chain secret deviceId log

/-! ### Signed logs verify -/

/-- A signed log passes the checks of the merge under every prefix of the chain: its device is
unknown there, or known with the one key it is ever authorized with. -/
theorem SignedLog.logVerified {log : List DeviceWriterLogEntry}
    (h : SignedLog P identity chain secret deviceId log) (hkey : SingleKey chain)
    {short : List DeviceAuthorizationRecord} (hp : short <+: chain)
    (hv : verifyIdentityAuthorityChain P identity short = .ok authority) :
    LogVerified P authority log := by
  constructor
  · rw [identity_of_verify hv]
    exact verifyDeviceLogShape_iff_exists.mpr ⟨deviceId, h.shape⟩
  · intro e he device hd
    rw [(h.shape.valid e he).deviceId, getElem?_devices_of_verify hv] at hd
    have hauth := (authorizes_of_deviceOf hd).mono hp.subset
    rw [hkey deviceId _ _ hauth h.authorized, h.signed e he]
    exact verifySignature_sign _ _

variable {a b : List DeviceWriterLogEntry}

theorem map_body_eq_of_getLast (ha : DeviceLog P identity deviceId a)
    (hb : DeviceLog P identity deviceId b) (hcf : CollisionFree P (a ++ b))
    (hlast : a.getLast?.map (·.entryHash P) = b.getLast?.map (·.entryHash P)) :
    a.map (·.body) = b.map (·.body) := by
  refine ha.linked.eq_of_getLast hb.linked ?_ ?_
  · have hmem : ∀ x, x ∈ a.map (·.body) ∨ x ∈ b.map (·.body) → ∃ e ∈ a ++ b, e.body = x := by
      intro x hx
      rwa [← mem_append, ← map_append, mem_map] at hx
    intro x hx y hy hxy
    obtain ⟨e, he, rfl⟩ := hmem x hx
    obtain ⟨d, hd, rfl⟩ := hmem y hy
    exact hcf e he d hd hxy
  · rw [getLast?_map, getLast?_map, Option.map_map, Option.map_map]
    exact hlast

theorem SignedLog.eq_of_logOrder
    (ha : SignedLog P identity chain secret deviceId a)
    (hb : SignedLog P identity chain secret deviceId b) (hcf : CollisionFree P (a ++ b))
    (heq : logOrder P a b = .eq) : a = b := by
  simp only [logOrder, compareLex_eq_iff, compareOn_eq_iff] at heq
  obtain ⟨hlen, -, -, -, hlast⟩ := heq
  have hbody := map_body_eq_of_getLast ha.shape hb.shape hcf hlast
  refine ext_getElem hlen fun i hi hi' => ?_
  have hi_body : a[i].body = b[i].body := by
    have := congrArg (·[i]?) hbody
    simpa [hi, hi'] using this
  have hsig : a[i].signature = b[i].signature := by
    rw [ha.signed _ (getElem_mem hi), hb.signed _ (getElem_mem hi'), hi_body]
  cases hai : a[i]
  cases hbi : b[i]
  simp_all

/-! ### One delivery -/

/-- **What a node holds**, given the chains and the logs it was sent: the longest of the chains, and
for each device the newest of its logs. -/
structure Summary (P : Primitives) (identity : IdentityId)
    (chains : List (List DeviceAuthorizationRecord)) (logs : Logs) (st : CachedDeviceWriterState) :
    Prop where
  mem : st.authorityRecords ∈ chains
  longest : ∀ records ∈ chains, records <+: st.authorityRecords
  newest : ∀ d : String, IsNewest (logOrder P) (logsOf logs d) st.deviceLogs[d]?
  cacheOk : CacheOk P identity st

/-- The cached state, or nothing, summarizes what was sent. -/
def Summarizes (P : Primitives) (identity : IdentityId)
    (chains : List (List DeviceAuthorizationRecord)) (logs : Logs) :
    Option CachedDeviceWriterState → Prop
  | some st => Summary P identity chains logs st
  | none => chains = [] ∧ logs = []

theorem logsOf_append (logs logs' : Logs) (d : String) :
    logsOf (logs ++ logs') d = logsOf logs d ∪ logsOf logs' d := by
  ext log
  simp only [logsOf, Set.mem_ofPred_eq, mem_append, Set.mem_union, or_and_right]

section

variable {chains : List (List DeviceAuthorizationRecord)} {logs : Logs}
  {existing : Option CachedDeviceWriterState}

section

variable (h : Summarizes P identity chains logs existing)
include h

theorem Summarizes.cacheOk : ∀ st ∈ existing, CacheOk P identity st := by
  rintro st rfl
  exact Summary.cacheOk h

theorem Summarizes.newest (d : String) :
    IsNewest (logOrder P) (logsOf logs d) ((existing.map (·.deviceLogs)).getD ∅)[d]? := by
  cases existing with
  | some st => exact Summary.newest h d
  | none =>
    obtain ⟨-, rfl⟩ := h
    have hempty : logsOf [] d = ∅ := by simp [logsOf]
    rw [hempty]
    simpa using isNewest_none

/-- The chain that is adopted is the longest so far. -/
theorem chooseRecords_longest (hchains : ∀ r ∈ chains, r <+: chain)
    {records : List DeviceAuthorizationRecord} (hp : records <+: chain)
    {candidate : VerifiedIdentityAuthority}
    (hv : verifyIdentityAuthorityChain P identity records = .ok candidate) :
    chooseRecords existing candidate records ∈ chains ++ [records] ∧
      ∀ r ∈ chains ++ [records], r <+: chooseRecords existing candidate records := by
  cases existing with
  | none =>
    obtain ⟨rfl, -⟩ := h
    simp [chooseRecords]
  | some st =>
    have hsum : Summary P identity chains logs st := h
    rcases chooseRecords_cases hsum.cacheOk (hchains _ hsum.mem) hp hv with ⟨heq,
      hshort⟩ | ⟨heq, hshort⟩
    · rw [heq]
      refine ⟨by simp, fun r hr => ?_⟩
      rcases mem_append.mp hr with hr | hr
      · exact (hsum.longest r hr).trans hshort
      · rw [mem_singleton.mp hr]
    · rw [heq]
      refine ⟨mem_append_left _ hsum.mem, fun r hr => ?_⟩
      rcases mem_append.mp hr with hr | hr
      · exact hsum.longest r hr
      · rw [mem_singleton.mp hr]
        exact hshort

end

/-- **One delivery.** If what is sent is honest, the merge succeeds, and what is held then
summarizes what was sent before together with what was sent now. -/
theorem mergeDelivery_summary
    (hchain : verifyIdentityAuthorityChain P identity chain = .ok authority)
    (hkey : SingleKey chain) (h : Summarizes P identity chains logs existing)
    (hchains : ∀ r ∈ chains, r <+: chain)
    (hlogs : ∀ log ∈ logs, log = [] ∨ ∃ deviceId, SignedLog P identity chain secret deviceId log)
    {d : Delivery} (hd : Honest P identity chain secret d) (hacyc : Acyclic P (logs ++ d.logs))
    (iteration : Iteration) : ∃ st, mergeDelivery P iteration identity existing d = .ok st ∧
      Summary P identity (chains ++ [d.records]) (logs ++ d.logs) st := by
  obtain ⟨candidate, hcand⟩ := verify_of_isPrefix hchain hd.ne_nil hd.isPrefix
  obtain ⟨hmem, hlong⟩ := chooseRecords_longest h hchains hd.isPrefix hcand
  have hall : ∀ log ∈ logs ++ d.logs, log = [] ∨ ∃ deviceId, SignedLog P identity chain secret
    deviceId log := by
    intro log hl
    rcases mem_append.mp hl with hl | hl
    · exact hlogs log hl
    · exact hd.logs log hl
  have hpre_all : ∀ r ∈ chains ++ [d.records], r <+: chain := by
    intro r hr
    rcases mem_append.mp hr with hr | hr
    · exact hchains r hr
    · rw [mem_singleton.mp hr]
      exact hd.isPrefix
  have hne : chooseRecords existing candidate d.records ≠ [] :=
    fun hnil => hd.ne_nil (prefix_nil.mp (hnil ▸ hlong d.records (by simp)))
  obtain ⟨adopted, hadopted⟩ := verify_of_isPrefix hchain hne (hpre_all _ hmem)
  have hfull : ∀ log ∈ d.logs, FullLog log := by
    intro log hl
    rcases hd.logs log hl with rfl | ⟨deviceId, hs⟩
    · simp [FullLog]
    · exact fun first hf => (hs.shape.genesis first hf).1
  have hkeyed := wellKeyed_existing h.cacheOk
  obtain ⟨accumulated, hacc, hnew⟩ := foldlM_accumulateLog_full (P := P) hfull hkeyed
  have hnewest : ∀ deviceId : String,
      IsNewest (logOrder P) (logsOf (logs ++ d.logs) deviceId) accumulated[deviceId]? := by
    intro deviceId
    rw [logsOf_append, hnew deviceId]
    exact isNewest_of_foldl (h.newest deviceId) deviceId
  have hvalues : iteration.values accumulated ⊆ logs ++ d.logs := by
    intro log hl
    obtain ⟨deviceId, hl⟩ := mem_values.mp hl
    exact ((hnewest deviceId).mem log hl).1
  have hverified : ∀ log ∈ iteration.values accumulated, LogVerified P adopted log := by
    intro log hl
    obtain ⟨deviceId, hl'⟩ := mem_values.mp hl
    rcases hall log (hvalues hl) with rfl | ⟨deviceId, hs⟩
    · exact absurd rfl ((hkeyed.foldlM_accumulateLog hacc).ne_nil hl')
    · exact hs.logVerified hkey (hpre_all _ hmem) hadopted
  obtain ⟨merged, hmerged⟩ := exists_merge_eq_ok_iff.mpr ⟨hverified, fun path =>
    heads_ne_nil (hacyc.mono hvalues) fun log hl => (hverified log hl).1⟩
  let st : CachedDeviceWriterState :=
    { authoritySequence := adopted.latestSequence
      merged
      lastVerifiedAt := (existing.map (·.lastVerifiedAt)).getD 0
      sourcePeer := existing.bind (·.sourcePeer)
      authorityRecords := chooseRecords existing candidate d.records
      deviceLogs := accumulated }
  have hst : mergeDelivery P iteration identity existing d = .ok st :=
    mergeVerified_eq_ok_iff.mpr ⟨candidate, adopted, hcand, rfl, hadopted, rfl, hacc,
      by simp [checkHeads, legacyDeviceWriterSyncVersion, deltaDeviceWriterSyncVersion], hmerged,
      rfl, rfl⟩
  exact ⟨st, hst, hmem, hlong, hnewest, cacheOk_of_mergeVerified h.cacheOk hst⟩

end

/-! ### Plans -/

/-- **How deliveries reach a node**: one after the other, in any order, directly or by way of
another node that passes on what it holds. Each merge walks its map in an order of its own. -/
inductive Plan where
  | start (d : Delivery) (iteration : Iteration)
  | deliver (before : Plan) (d : Delivery) (iteration : Iteration)
  | join (before other : Plan) (sent iteration : Iteration)

def passOn (sent : Iteration) (st : CachedDeviceWriterState) : Delivery :=
  ⟨st.authorityRecords, sent.values st.deviceLogs⟩

namespace Plan

def run (P : Primitives) (identity : IdentityId) :
    Plan → Except (Fault NetworkError) CachedDeviceWriterState
  | start d iteration => mergeDelivery P iteration identity none d
  | deliver before d iteration => do
    let st ← before.run P identity
    mergeDelivery P iteration identity (some st) d
  | join before other sent iteration => do
    let st ← before.run P identity
    let st' ← other.run P identity
    mergeDelivery P iteration identity (some st) (passOn sent st')

def deliveries : Plan → List Delivery
  | start d _ => [d]
  | deliver before d _ => before.deliveries ++ [d]
  | join before other _ _ => before.deliveries ++ other.deliveries

def chains (p : Plan) : List (List DeviceAuthorizationRecord) := p.deliveries.map (·.records)

def logs (p : Plan) : Logs := p.deliveries.flatMap (·.logs)

end Plan

variable {chains : List (List DeviceAuthorizationRecord)} {st : CachedDeviceWriterState}

theorem Plan.isPrefix_of_honest {p : Plan}
    (hd : ∀ d ∈ p.deliveries, Honest P identity chain secret d) :
    ∀ r ∈ p.chains, r ≠ [] ∧ r <+: chain := by
  intro r hr
  obtain ⟨d, hdm, rfl⟩ := mem_map.mp hr
  exact ⟨(hd d hdm).ne_nil, (hd d hdm).isPrefix⟩

theorem Plan.signed_of_honest {p : Plan}
    (hd : ∀ d ∈ p.deliveries, Honest P identity chain secret d) :
    ∀ log ∈ p.logs, log = [] ∨ ∃ deviceId, SignedLog P identity chain secret deviceId log := by
  intro log hl
  obtain ⟨d, hdm, hl⟩ := mem_flatMap.mp hl
  exact (hd d hdm).logs log hl

theorem Summary.values_subset {logs : Logs} (h : Summary P identity chains logs st)
    (sent : Iteration) :
    sent.values st.deviceLogs ⊆ logs := by
  intro log hl
  obtain ⟨deviceId, hl⟩ := mem_values.mp hl
  exact ((h.newest deviceId).mem log hl).1

variable {chains' : List (List DeviceAuthorizationRecord)} {st' : CachedDeviceWriterState}

/-- **Passing on what is held is as good as passing on what was sent.** -/
theorem Summary.of_passOn {logs logs' : Logs} {sent : Iteration}
    (h' : Summary P identity chains' logs' st')
    (h : Summary P identity (chains ++ [(passOn sent st').records]) (logs ++
      (passOn sent st').logs) st) :
    Summary P identity (chains ++ chains') (logs ++ logs') st where
  mem := by
    rcases mem_append.mp h.mem with hm | hm
    · exact mem_append_left _ hm
    · rw [mem_singleton.mp hm]
      exact mem_append_right _ h'.mem
  longest r hr := by
    rcases mem_append.mp hr with hr | hr
    · exact h.longest r (mem_append_left _ hr)
    · exact (h'.longest r hr).trans (h.longest _ (by simp [passOn]))
  newest d := by
    refine (h.newest d).of_cofinal ?_ ?_
    · rw [logsOf_append, logsOf_append]
      refine Set.union_subset_union_right _ fun log hl => ⟨?_, hl.2⟩
      exact h'.values_subset sent hl.1
    · intro log hl
      rw [logsOf_append] at hl ⊢
      rcases hl with hl | hl
      · exact ⟨log, .inl hl, by simp [@ReflCmp.compare_self _ (logOrder P)]⟩
      · cases hheld : st'.deviceLogs[d]? with
        | none =>
          have hempty := (h'.newest d).empty hheld
          simp [hempty] at hl
        | some held =>
          refine ⟨held, .inr ⟨mem_values.mpr ⟨d, hheld⟩, ?_⟩,
            (h'.newest d).newest held hheld log hl⟩
          exact h'.cacheOk.wellKeyed d held hheld
  cacheOk := h.cacheOk

/-- **The run of a plan** of honest deliveries succeeds, and the state summarizes the deliveries. -/
theorem run_summary (hchain : verifyIdentityAuthorityChain P identity chain = .ok authority)
    (hkey : SingleKey chain) (p : Plan)
    (hd : ∀ d ∈ p.deliveries, Honest P identity chain secret d) (hacyc : Acyclic P p.logs) :
    ∃ st, p.run P identity = .ok st ∧ Summary P identity p.chains p.logs st := by
  induction p with
  | start d iteration =>
    have hnone : Summarizes P identity [] [] none := ⟨rfl, rfl⟩
    have hacyc' : Acyclic P ([] ++ d.logs) := by simpa [Plan.logs, Plan.deliveries] using hacyc
    obtain ⟨st, hst, hsum⟩ := mergeDelivery_summary hchain hkey hnone (by simp) (by simp)
      (hd d (by simp [Plan.deliveries])) hacyc' iteration
    exact ⟨st, hst, by simpa [Plan.chains, Plan.logs, Plan.deliveries] using hsum⟩
  | deliver before d iteration ih =>
    have hbefore : ∀ d ∈ before.deliveries, Honest P identity chain secret d :=
      fun d' hd' => hd d' (by simp [Plan.deliveries, hd'])
    have hlogs : (Plan.deliver before d iteration).logs = before.logs ++ d.logs := by
      simp [Plan.logs, Plan.deliveries]
    have hchains : (Plan.deliver before d iteration).chains = before.chains ++ [d.records] := by
      simp [Plan.chains, Plan.deliveries]
    rw [hlogs] at hacyc ⊢
    obtain ⟨st, hst, hsum⟩ := ih hbefore (hacyc.mono (subset_append_left _ _))
    have hheld : Summarizes P identity before.chains before.logs (some st) := hsum
    obtain ⟨st', hst', hsum'⟩ := mergeDelivery_summary hchain hkey hheld
      (fun r hr => (Plan.isPrefix_of_honest hbefore r hr).2) (Plan.signed_of_honest hbefore)
      (hd d (by simp [Plan.deliveries])) hacyc iteration
    rw [hchains]
    exact ⟨st', bind_eq_ok.mpr ⟨st, hst, hst'⟩, hsum'⟩
  | join before other sent iteration ih ih' =>
    have hbefore : ∀ d ∈ before.deliveries, Honest P identity chain secret d :=
      fun d' hd' => hd d' (by simp [Plan.deliveries, hd'])
    have hother : ∀ d ∈ other.deliveries, Honest P identity chain secret d :=
      fun d' hd' => hd d' (by simp [Plan.deliveries, hd'])
    have hlogs : (Plan.join before other sent iteration).logs = before.logs ++ other.logs := by
      simp [Plan.logs, Plan.deliveries]
    have hchains : (Plan.join before other sent iteration).chains = before.chains ++
      other.chains := by
      simp [Plan.chains, Plan.deliveries]
    rw [hlogs] at hacyc ⊢
    obtain ⟨st, hst, hsum⟩ := ih hbefore (hacyc.mono (subset_append_left _ _))
    obtain ⟨st', hst', hsum'⟩ := ih' hother (hacyc.mono (subset_append_right _ _))
    have hpass : Honest P identity chain secret (passOn sent st') :=
      { ne_nil := (Plan.isPrefix_of_honest hother _ hsum'.mem).1
        isPrefix := (Plan.isPrefix_of_honest hother _ hsum'.mem).2
        logs := fun log hl => Plan.signed_of_honest hother log (hsum'.values_subset sent hl) }
    have hsub : before.logs ++ (passOn sent st').logs ⊆ before.logs ++ other.logs := by
      intro log hl
      rcases mem_append.mp hl with hl | hl
      · exact mem_append_left _ hl
      · exact mem_append_right _ (hsum'.values_subset sent hl)
    have hheld : Summarizes P identity before.chains before.logs (some st) := hsum
    obtain ⟨st'', hst'', hsum''⟩ := mergeDelivery_summary hchain hkey hheld
      (fun r hr => (Plan.isPrefix_of_honest hbefore r hr).2) (Plan.signed_of_honest hbefore)
      hpass (hacyc.mono hsub) iteration
    rw [hchains]
    refine ⟨st'', ?_, Summary.of_passOn hsum' hsum''⟩
    exact bind_eq_ok.mpr ⟨st, hst, bind_eq_ok.mpr ⟨st', hst', hst''⟩⟩

/-! ### Convergence -/

/-- Two plans deliver the same logs, and chains that are prefixes of each other's: the same
deliveries in any order, as often as one likes, or taken together differently. -/
structure SameContent (p q : Plan) : Prop where
  logs : ∀ log, log ∈ p.logs ↔ log ∈ q.logs
  chains : ∀ r ∈ p.chains, ∃ r' ∈ q.chains, r <+: r'
  chains' : ∀ r ∈ q.chains, ∃ r' ∈ p.chains, r <+: r'

theorem sameContent_of_mem_iff {p q : Plan} (h : ∀ d, d ∈ p.deliveries ↔ d ∈ q.deliveries) :
    SameContent p q where
  logs log := by simp only [Plan.logs, mem_flatMap, h]
  chains r hr := by
    obtain ⟨d, hd, rfl⟩ := mem_map.mp hr
    exact ⟨_, mem_map_of_mem ((h d).mp hd), prefix_refl _⟩
  chains' r hr := by
    obtain ⟨d, hd, rfl⟩ := mem_map.mp hr
    exact ⟨_, mem_map_of_mem ((h d).mpr hd), prefix_refl _⟩

/-- What is held is determined by what was sent. -/
theorem deviceLogs_eq_of_summary {logs logs' : Logs} (h : Summary P identity chains logs st)
    (h' : Summary P identity chains' logs' st') (hmem : ∀ log, log ∈ logs ↔ log ∈ logs')
    (hlogs : ∀ log ∈ logs, log = [] ∨ ∃ deviceId, SignedLog P identity chain secret deviceId log)
    (hcf : CollisionFree P logs.flatten) : st.deviceLogs = st'.deviceLogs := by
  have hof : ∀ d, logsOf logs d = logsOf logs' d := by
    intro d
    simp only [logsOf, hmem]
  have hsigned : ∀ d, ∀ log ∈ logsOf logs d, SignedLog P identity chain secret d log := by
    rintro d log ⟨hl, first, hf, hd⟩
    rcases hlogs log hl with rfl | ⟨deviceId, hs⟩
    · simp at hf
    · obtain rfl : deviceId = d := by rw [← hd, (hs.shape.valid first (mem_of_head? hf)).deviceId]
      exact hs
  refine ExtTreeMap.ext_getElem? fun d => ?_
  refine (h.newest d).unique (hof d ▸ h'.newest d) fun a ha b hb heq => ?_
  refine (hsigned d a ha).eq_of_logOrder (hsigned d b hb) (hcf.mono ?_) heq
  intro e he
  rcases mem_append.mp he with he | he
  · exact mem_flatten.mpr ⟨a, ha.1, he⟩
  · exact mem_flatten.mpr ⟨b, hb.1, he⟩

/-- **Convergence.** Take a chain that verifies and never authorizes one device with two keys, and
two plans that deliver the same non-empty prefixes of it and the same signed logs, forks and
prefixes of one log included. Both plans succeed, and end with the same authority sequence, the same
log for each device and the same merged state. -/
theorem plans_converge (hchain : verifyIdentityAuthorityChain P identity chain = .ok authority)
    (hkey : SingleKey chain) {p q : Plan}
    (hp : ∀ d ∈ p.deliveries, Honest P identity chain secret d)
    (hq : ∀ d ∈ q.deliveries, Honest P identity chain secret d) (hsame : SameContent p q)
    (hcf : CollisionFree P p.logs.flatten) (hacyc : Acyclic P p.logs) :
    ∃ st st', p.run P identity = .ok st ∧ q.run P identity = .ok st' ∧
      st.authoritySequence = st'.authoritySequence ∧ st.deviceLogs = st'.deviceLogs ∧
      st.merged = st'.merged := by
  obtain ⟨st, hst, hsum⟩ := run_summary hchain hkey p hp hacyc
  obtain ⟨st', hst', hsum'⟩ := run_summary hchain hkey q hq (hacyc.mono fun log hl =>
    (hsame.logs log).mpr hl)
  have hrecords : st.authorityRecords = st'.authorityRecords := by
    obtain ⟨r, hr, hpre⟩ := hsame.chains _ hsum.mem
    obtain ⟨r', hr', hpre'⟩ := hsame.chains' _ hsum'.mem
    have hle := hpre.trans (hsum'.longest r hr)
    exact hle.eq_of_length_le (hpre'.trans (hsum.longest r' hr')).length_le
  have hlogs := deviceLogs_eq_of_summary hsum hsum' hsame.logs (Plan.signed_of_honest hp) hcf
  have hsub : ((default : Iteration).values st.deviceLogs).flatten ⊆ p.logs.flatten := by
    intro e he
    obtain ⟨log, hl, he⟩ := mem_flatten.mp he
    exact mem_flatten.mpr ⟨log, hsum.values_subset default hl, he⟩
  obtain ⟨hseq, hmerged⟩ := merged_eq_of_cacheOk hsum.cacheOk hsum'.cacheOk hrecords hlogs
    (hcf.mono hsub)
  exact ⟨st, st', hst, hst', hseq, hlogs, hmerged⟩

/-! ### Two notes -/

/-- The laptop's note, sent before the phone is known. -/
def firstDelivery : Delivery := ⟨[authorizeLaptop], [[laptopNote]]⟩

def secondDelivery : Delivery := ⟨[authorizeLaptop, authorizePhone], [[phoneNote]]⟩

def sampleSecret (deviceId : String) : Bytes32 :=
  if deviceId = "laptop" then Sample.key 1 else Sample.key 2

theorem singleKey_twoDevices : SingleKey [authorizeLaptop, authorizePhone] := by
  have hkey : ∀ deviceId key, Authorizes [authorizeLaptop, authorizePhone] deviceId key →
        key = (sampleSecret deviceId).bytes := by
    rintro deviceId key ⟨record, hr, _, _, _, _, hop⟩
    simp only [mem_cons, not_mem_nil, or_false] at hr
    rcases hr with rfl | rfl
    · cases hop
      rfl
    · cases hop
      rfl
  intro deviceId key key' h h'
  rw [hkey deviceId key h, hkey deviceId key' h']

theorem honest_firstDelivery : Honest primitives owner [authorizeLaptop, authorizePhone]
      sampleSecret firstDelivery where
  ne_nil := cons_ne_nil _ _
  isPrefix := ⟨[authorizePhone], rfl⟩
  logs log hl := by
    rw [mem_singleton.mp hl]
    obtain ⟨_, hshape⟩ := exists_eq_ok_of_isOk (x := verifyDeviceLogShape primitives
      owner [laptopNote]) (by decide +kernel)
    exact .inr ⟨"laptop", verifyDeviceLogShape_eq_ok_iff.mp hshape,
      ⟨authorizeLaptop, by simp, _, _, _, _, rfl⟩, by simp only [forall_mem_singleton]; rfl⟩

theorem honest_secondDelivery : Honest primitives owner [authorizeLaptop, authorizePhone]
      sampleSecret secondDelivery where
  ne_nil := cons_ne_nil _ _
  isPrefix := prefix_refl _
  logs log hl := by
    rw [mem_singleton.mp hl]
    obtain ⟨_, hshape⟩ := exists_eq_ok_of_isOk (x := verifyDeviceLogShape primitives
      owner [phoneNote]) (by decide +kernel)
    exact .inr ⟨"phone", verifyDeviceLogShape_eq_ok_iff.mp hshape,
      ⟨authorizePhone, by simp, _, _, _, _, rfl⟩, by simp only [forall_mem_singleton]; rfl⟩

/-- The two notes one after the other, and the other way round by way of a second node. -/
theorem plans_converge_notes :
    ∃ st st', (Plan.deliver (.start firstDelivery default) secondDelivery default).run primitives
        owner = .ok st ∧
      (Plan.join (.start secondDelivery default) (.start firstDelivery default) default default).run
        primitives owner = .ok st' ∧
      st.authoritySequence = st'.authoritySequence ∧ st.deviceLogs = st'.deviceLogs ∧
      st.merged = st'.merged := by
  obtain ⟨authority, hchain⟩ := exists_eq_ok_of_isOk (x := verifyIdentityAuthorityChain
    primitives owner [authorizeLaptop, authorizePhone]) (by decide +kernel)
  have hboth : ∀ d ∈ [firstDelivery, secondDelivery], Honest primitives owner
      [authorizeLaptop, authorizePhone] sampleSecret d := by
    simp only [forall_mem_cons]
    exact ⟨honest_firstDelivery, honest_secondDelivery, by simp⟩
  have hother : ∀ d ∈ [secondDelivery, firstDelivery], Honest primitives owner
      [authorizeLaptop, authorizePhone] sampleSecret d :=
    fun d hd => hboth d (by simpa [or_comm] using hd)
  refine plans_converge hchain singleKey_twoDevices hboth hother (sameContent_of_mem_iff fun d =>
    ?_) ?_ ?_
  · simp [Plan.deliveries, or_comm]
  · change CollisionFree primitives [laptopNote, phoneNote]
    decide +kernel
  · exact acyclic_of_rank
      (fun h => if h = phoneNote.entryHash primitives then 1 else 0)
      (show ∀ log ∈ [[laptopNote], [phoneNote]], _ by decide +kernel)

end Jolt.Network.Convergence
