import Jolt.Network.CacheSteps

/-! # Known state never goes backwards

A node together with what `resolution.rs` keeps of its verifications besides the queue: the deadline
of each and whether it is settled, that is, whether its waiters have their answer. Verifications
expire, are cancelled, and complete in any order, while logs are stored and published directly.
Deadlines decide about waiters and about the next page of a sync only; the node goes through the
same states as without them (`node_run`).

Whatever happens in between, the authority sequence that is cached for an identity never decreases,
and the log that is cached for a device is replaced by newer ones only (`neverBehind_run`). -/

namespace Jolt.Network.Progress

open Std Relation Lib.Checks Lib.Newest Jolt.Core Jolt.Core.Types IdentityAuthority DeviceWriterLog
  DeviceWriterCache CacheSpec CacheSteps List
open Node hiding Event step run

/-! ### Deadlines -/

/-- The next page of a sync, as it is requested from its provider. -/
structure ContinuationRequest where
  identity : IdentityId
  provider : PeerId
  continuation : DeviceWriterSyncContinuation
  deadline : ℕ

/-- A node with the deadlines of its verifications by their numbers, those that are settled, and the
next pages it has requested. Instants are counted. -/
structure SyncNode where
  node : NetworkNode
  deadline : ℕ → ℕ
  settled : ℕ → Bool
  requested : List ContinuationRequest

inductive Event where
  | request (ambient : Ambient) (peer : PeerId) (request : DeviceWriterSyncRequest)
  | response (ambient : Ambient) (pending : PendingDeviceWriterSync) (deadline : ℕ)
      (response : DeviceWriterSyncResponse)
  | completion (ambient : Ambient) (now : ℕ) (id : ℕ)
  | expire (now : ℕ)
  | cancel (identity : IdentityId)
  | store (ambient : Ambient) (identity : IdentityId)
      (authorityRecords : List DeviceAuthorizationRecord)
      (deviceLogs : List (List DeviceWriterLogEntry))
  | publish (ambient : Ambient) (identity : IdentityId)
      (authorityRecords : List DeviceAuthorizationRecord) (deviceLog : List DeviceWriterLogEntry)

/-- What happens to the node. Nothing does when verifications expire. -/
def Event.base : Event → Option Node.Event
  | .request ambient peer offer => some (.request ambient peer offer)
  | .response ambient pending _ answer => some (.response ambient pending answer)
  | .completion ambient _ id => some (.completion ambient id)
  | .expire _ => none
  | .cancel identity => some (.cancel identity)
  | .store ambient identity records logs => some (.store ambient identity records logs)
  | .publish ambient identity records log => some (.publish ambient identity records log)

section

variable (P : Primitives) (peerIdOf : Bytes → Option PeerId) (s : SyncNode)

/-- `expire_device_writer_sync_work`: what is past its deadline is settled, whether it runs or is
queued. -/
def expired (now id : ℕ) : Bool :=
  s.settled id || ((works s.node).any (·.id = id) && s.deadline id ≤ now)

/-- The flags after an event. A verification that is scheduled is not settled; a running one that is
cancelled is. -/
def settledAfter : Event → ℕ → Bool
  | .response _ _ _ _ => Function.update s.settled s.node.deviceWriterSyncWork.nextId false
  | .expire now => expired s now
  | .cancel identity =>
      fun id => s.settled id || (s.node.deviceWriterSyncWork.byIdentity identity = some id &&
        s.node.deviceWriterSyncWork.active.any (·.id = id))
  | _ => s.settled

def deadlineAfter : Event → ℕ → ℕ
  | .response _ _ deadline _ =>
      Function.update s.deadline s.node.deviceWriterSyncWork.nextId deadline
  | _ => s.deadline

/-- `continue_sync`: a verification that succeeds asks for the next page if its snapshot was
current, it is the last one of its identity, and it is neither settled nor late. -/
def continuationOf : Event → Option ContinuationRequest
  | .completion ambient now id =>
    match s.node.deviceWriterSyncWork.active.find? (·.id = id) with
    | none => none
    | some work =>
      match NetworkNode.verifyWork P work ambient with
      | .error _ => none
      | .ok _ =>
        if (s.node.deviceWriterStates work.identity).isCurrent work.existing ∧
            s.node.deviceWriterSyncWork.byIdentity work.identity = some id ∧
            s.settled id = false ∧ now < s.deadline id then
          work.continuation.map (⟨work.identity, work.provider, ·, s.deadline id⟩)
        else none
  | _ => none

def step (s : SyncNode) (event : Event) : SyncNode where
  node := event.base.elim s.node (Node.step P peerIdOf s.node)
  deadline := deadlineAfter s event
  settled := settledAfter s event
  requested := s.requested ++ (continuationOf P s event).toList

def run (events : List Event) : SyncNode := events.foldl (step P peerIdOf) s

end

/-- A node as it is constructed, without verifications. -/
def begin (node : NetworkNode) : SyncNode := ⟨node, fun _ => 0, fun _ => false, []⟩

variable {P : Primitives} {peerIdOf : Bytes → Option PeerId} {identity : IdentityId}
  {a b c : Option CachedDeviceWriterState} {known : List DeviceWriterLogEntry}
  {iteration : Iteration}

/-- **Deadlines do not matter to the node.** -/
theorem node_run (s : SyncNode) (events : List Event) :
    (run P peerIdOf s events).node = Node.run P peerIdOf s.node (events.filterMap Event.base) := by
  induction events generalizing s with
  | nil => rfl
  | cons event events ih =>
    have hrest := ih (step P peerIdOf s event)
    have hnode : (step P peerIdOf s event).node = event.base.elim s.node
      (Node.step P peerIdOf s.node) := rfl
    rw [hnode] at hrest
    cases hbase : event.base with
    | none =>
      rw [filterMap_cons_none hbase]
      rw [hbase] at hrest
      exact hrest
    | some inner =>
      rw [filterMap_cons_some hbase]
      rw [hbase] at hrest
      exact hrest

theorem run_append (node : NetworkNode) (earlier later : List Node.Event) :
    Node.run P peerIdOf node (earlier ++ later) = Node.run P peerIdOf
      (Node.run P peerIdOf node earlier) later :=
  foldl_append

/-! ### What is ahead of what -/

/-- The one log is the other, or is newer. -/
def SameOrNewer (P : Primitives) (log log' : List DeviceWriterLogEntry) : Prop :=
  log' = log ∨ deviceLogIsNewer P log' log = .ok true

/-- **The one cached state is not behind the other**: its authority sequence is not smaller, and for
every device it has the same log or a newer one. -/
structure Ahead (P : Primitives) (st st' : CachedDeviceWriterState) : Prop where
  sequence : st.authoritySequence ≤ st'.authoritySequence
  logs : ∀ (deviceId : String) (log : List DeviceWriterLogEntry),
    st.deviceLogs[deviceId]? = some log →
    ∃ log', st'.deviceLogs[deviceId]? = some log' ∧ SameOrNewer P log log'

def NeverBehind (P : Primitives) (before after : Option CachedDeviceWriterState) : Prop :=
  ∀ st ∈ before, ∃ st' ∈ after, Ahead P st st'

theorem SameOrNewer.trans {x y z : List DeviceWriterLogEntry} (hx : x ≠ [])
    (hy : y ≠ []) (hz : z ≠ []) (hxy : SameOrNewer P x y) (hyz : SameOrNewer P y z) :
    SameOrNewer P x z := by
  rcases hxy with rfl | hxy
  · exact hyz
  rcases hyz with rfl | hyz
  · exact .inr hxy
  · rw [deviceLogIsNewer_eq hy hx, Except.ok.injEq, decide_eq_true_eq] at hxy
    rw [deviceLogIsNewer_eq hz hy, Except.ok.injEq, decide_eq_true_eq] at hyz
    refine .inr ?_
    rw [deviceLogIsNewer_eq hz hx, Except.ok.injEq, decide_eq_true_eq]
    exact TransCmp.gt_trans hyz hxy

theorem sameOrNewer_keepNewer {full kept : List DeviceWriterLogEntry} (hknown : known ≠ [])
    (hfull : full ≠ []) (h : keepNewer (logOrder P) (some known) full = some kept) :
    SameOrNewer P known kept := by
  unfold keepNewer at h
  dsimp only at h
  split_ifs at h with hgt
  · cases h
    refine .inr ?_
    rw [deviceLogIsNewer_eq hfull hknown, hgt]
    rfl
  · cases h
    exact .inl rfl

/-! ### Received logs -/

variable {accumulated accumulated' : DeviceLogs}

/-- **One received log** replaces what is held by newer logs only. -/
theorem sameOrNewer_accumulateLog (hk : WellKeyed accumulated)
    {log : List DeviceWriterLogEntry} (h : accumulateLog P accumulated log = .ok accumulated')
    {deviceId : String} (hknown : accumulated[deviceId]? = some known) :
    ∃ kept, accumulated'[deviceId]? = some kept ∧ SameOrNewer P known kept := by
  rcases accumulateLog_cases hk h with ⟨-, rfl⟩ | ⟨first, full, hfirst, hfull, hlookup⟩
  · exact ⟨known, hknown, .inl rfl⟩
  have hne : full ≠ [] := by
    rcases hfull with ⟨rfl, -⟩ | ⟨_, -, rfl⟩
    · rintro rfl
      cases hfirst
    · rw [Ne, append_eq_nil_iff]
      rintro ⟨-, rfl⟩
      cases hfirst
  have hnew := hlookup deviceId
  rw [hknown] at hnew
  by_cases hdevice : first.body.deviceId = deviceId
  · rw [if_pos hdevice] at hnew
    cases hkept : keepNewer (logOrder P) (some known) full with
    | none =>
      unfold keepNewer at hkept
      dsimp only at hkept
      split_ifs at hkept
    | some kept =>
      exact ⟨kept, hnew.trans hkept, sameOrNewer_keepNewer (hk.ne_nil hknown) hne hkept⟩
  · rw [if_neg hdevice] at hnew
    exact ⟨known, hnew, .inl rfl⟩

theorem sameOrNewer_foldlM {logs : List (List DeviceWriterLogEntry)}
    (hk : WellKeyed accumulated) (h : logs.foldlM (accumulateLog P) accumulated = .ok accumulated')
    {deviceId : String} (hknown : accumulated[deviceId]? = some known) :
    ∃ kept, accumulated'[deviceId]? = some kept ∧ SameOrNewer P known kept := by
  induction logs generalizing accumulated known with
  | nil =>
    simp only [foldlM_nil, pure_eq_ok] at h
    exact ⟨known, h ▸ hknown, .inl rfl⟩
  | cons log logs ih =>
    rw [foldlM_cons, bind_eq_ok] at h
    obtain ⟨mid, hmid, hrest⟩ := h
    have hkmid := hk.accumulateLog hmid
    obtain ⟨first, hfirst, hnewer⟩ := sameOrNewer_accumulateLog hk hmid hknown
    obtain ⟨kept, hkept, hnewer'⟩ := ih hkmid hrest hfirst
    have hklast := WellKeyed.foldlM_accumulateLog hkmid hrest
    exact ⟨kept, hkept, hnewer.trans (hk.ne_nil hknown) (hkmid.ne_nil hfirst) (hklast.ne_nil hkept)
      hnewer'⟩

/-! ### Steps of the cache -/

variable {st st' : CachedDeviceWriterState}

section

variable (hst : CacheOk P identity st) {m : Message}
  (h : m.merge P iteration identity (some st) = .ok st')
include hst h

theorem sequence_le_of_merge : st.authoritySequence ≤ st'.authoritySequence := by
  obtain ⟨candidate, authority, hcandidate, hrecords, hverify, hsequence, -⟩ :=
    mergeVerified_eq_ok_iff.mp h
  rw [hsequence]
  unfold chooseRecords at hrecords
  dsimp only at hrecords
  split_ifs at hrecords with hle
  · rw [hrecords, hcandidate] at hverify
    cases hverify
    exact hle
  · obtain ⟨backing, _, hbacking, hheld, -⟩ := hst.backed
    rw [hrecords, hbacking] at hverify
    cases hverify
    exact hheld ▸ UInt64.le_refl _

theorem ahead_of_merge : Ahead P st st' := by
  refine ⟨sequence_le_of_merge hst h, fun deviceId log hlog => ?_⟩
  obtain ⟨_, _, -, -, -, -, hlogs, -⟩ := mergeVerified_eq_ok_iff.mp h
  exact sameOrNewer_foldlM hst.wellKeyed hlogs hlog

end

theorem Ahead.refl (st : CachedDeviceWriterState) : Ahead P st st :=
  ⟨UInt64.le_refl _, fun _ log hlog => ⟨log, hlog, .inl rfl⟩⟩

/-- **A step of the cache is never backwards.** -/
theorem neverBehind_cacheStep {D : Message → Prop} (h : CacheStep P identity D a b)
    (hok : ∀ st ∈ a, CacheOk P identity st) : NeverBehind P a b := by
  cases h with
  | keep => exact fun st hst => ⟨st, hst, .refl st⟩
  | @merge st' m iteration now peer hm h =>
    rintro st ⟨⟩
    have hahead := ahead_of_merge (hok st rfl) h
    exact ⟨stamp st' now peer, rfl, hahead.sequence, hahead.logs⟩

theorem NeverBehind.trans (ha : ∀ st ∈ a, CacheOk P identity st)
    (hb : ∀ st ∈ b, CacheOk P identity st) (hc : ∀ st ∈ c, CacheOk P identity st)
    (hab : NeverBehind P a b) (hbc : NeverBehind P b c) :
    NeverBehind P a c := by
  intro x hx
  obtain ⟨y, hy, hxy⟩ := hab x hx
  obtain ⟨z, hz, hyz⟩ := hbc y hy
  refine ⟨z, hz, UInt64.le_trans hxy.sequence hyz.sequence, fun deviceId log hlog => ?_⟩
  obtain ⟨log', hlog', hnewer⟩ := hxy.logs deviceId log hlog
  obtain ⟨log'', hlog'', hnewer'⟩ := hyz.logs deviceId log' hlog'
  exact ⟨log'', hlog'', hnewer.trans ((ha x hx).wellKeyed.ne_nil hlog)
    ((hb y hy).wellKeyed.ne_nil hlog') ((hc z hz).wellKeyed.ne_nil hlog'') hnewer'⟩

theorem neverBehind_of_reflTransGen {D : Message → Prop}
    (h : ReflTransGen (CacheStep P identity D) a b) (hok : ∀ st ∈ a, CacheOk P identity st) :
    (∀ st ∈ b, CacheOk P identity st) ∧
      NeverBehind P a b := by
  induction h with
  | refl => exact ⟨hok, fun st hst => ⟨st, hst, .refl st⟩⟩
  | tail _ hstep ih =>
    obtain ⟨hmid, hbehind⟩ := ih
    have hlast := hstep.cacheOk hmid
    exact ⟨hlast, hbehind.trans hok hmid hlast (neverBehind_cacheStep hstep hmid)⟩

/-! ### Runs -/

/-- **Known state never goes backwards**: whatever happens after some time of a run, what is cached
for an identity then is not behind what was cached before. -/
theorem neverBehind_run (localIdentity : IdentityId) (localDeviceId : String)
    (maxConcurrency queueCapacity : ℕ) (saved : List (Iteration × PersistedRemoteIdentityState))
    (earlier later : List Event) (identity : IdentityId) :
    let start := begin
      (construct P localIdentity localDeviceId maxConcurrency queueCapacity saved)
    NeverBehind P ((run P peerIdOf start earlier).node.cached identity)
      ((run P peerIdOf start (earlier ++ later)).node.cached identity) := by
  dsimp only
  rw [node_run, node_run, filterMap_append, run_append]
  obtain ⟨hnode, hsteps⟩ := @run_cacheSteps P peerIdOf identity (fun _ => True) saved localIdentity
    localDeviceId maxConcurrency queueCapacity (earlier.filterMap Event.base) (fun _ _ => trivial)
    (fun _ _ _ _ => trivial)
  have hlater := @NodeOk.run P peerIdOf identity (fun _ => True) _ hnode
    (later.filterMap Event.base)
    fun _ _ _ _ => trivial
  exact (neverBehind_of_reflTransGen hlater.2 (cacheOk_of_reflTransGen hsteps)).2

end Jolt.Network.Progress
