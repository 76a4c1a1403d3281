import Jolt.Network.CacheSpec
import Jolt.Network.Node

/-! # A node's cache, identity by identity

Whatever happens to a node, the state it caches for an identity changes in one way only: a message
that was delivered is merged into the state cached at that time (`CacheStep`, `run_cacheSteps`). For
a verification in the background this is the compare-and-swap at its end: its result is cached only
if the snapshot it was computed from is still the cached state.

So properties of the cache over whole runs of the node are properties of sequences of merges. -/

namespace Jolt.Network.CacheSteps

open Std Lib.Checks Lib.SharedCell Relation Jolt.Core Jolt.Core.Types IdentityAuthority
  DeviceWriterLog DeviceWriterCache CacheSpec Node List

variable {P : Primitives} {peerIdOf : Bytes → Option PeerId} {identity : IdentityId}

/-! ### Messages -/

structure Message where
  authorityRecords : List DeviceAuthorizationRecord
  deviceLogs : List (List DeviceWriterLogEntry)
  syncVersion : UInt16
  heads : List DeviceWriterCursor
  complete : Bool

def Message.full (authorityRecords : List DeviceAuthorizationRecord)
    (deviceLogs : List (List DeviceWriterLogEntry)) : Message :=
  ⟨authorityRecords, deviceLogs, legacyDeviceWriterSyncVersion, [], true⟩

def Message.merge (P : Primitives) (iteration : Iteration) (identity : IdentityId)
    (existing : Option CachedDeviceWriterState) (m : Message) :
    Except (Fault NetworkError) CachedDeviceWriterState :=
  mergeVerifiedDeviceWriterState P iteration identity existing m.authorityRecords m.deviceLogs
    m.syncVersion m.heads m.complete

def responseMessage (response : DeviceWriterSyncResponse) : Message :=
  ⟨response.authorityRecords, response.deviceLogs, response.syncVersion, response.heads,
    response.continuation.isNone⟩

def workMessage (work : DeviceWriterSyncWork) : Message :=
  ⟨work.authorityRecords, work.deviceLogs, work.syncVersion, work.heads, work.continuation.isNone⟩

/-- The event brings the message for the identity. The response of a provider counts as a sync
message or as full logs, depending on whether the identity is the local one. -/
def Delivers (identity : IdentityId) : Event → Message → Prop
  | .request _ _ request, m =>
      request.identity = identity ∧ m = .full request.authorityRecords request.deviceLogs
  | .response _ pending response, m => pending.identity = identity ∧
      (m = responseMessage response ∨ m = .full response.authorityRecords response.deviceLogs)
  | .store _ id records logs, m => id = identity ∧ m = .full records logs
  | .publish _ id records log, m => id = identity ∧ m = .full records [log]
  | .completion _ _, _ => False
  | .cancel _, _ => False

/-! ### Steps of the cache -/

/-- The state with a new time of verification and source. -/
def stamp (st : CachedDeviceWriterState) (now : UInt64) (peer : Option PeerId) :
    CachedDeviceWriterState :=
  { st with lastVerifiedAt := now, sourcePeer := peer }

/-- **A step of the cache of one identity**: nothing, or the merge of a message into what is
cached. -/
inductive CacheStep (P : Primitives) (identity : IdentityId) (D : Message → Prop) :
    Option CachedDeviceWriterState → Option CachedDeviceWriterState → Prop where
  | keep (existing : Option CachedDeviceWriterState) : CacheStep P identity D existing existing
  | merge {existing : Option CachedDeviceWriterState} {st : CachedDeviceWriterState} (m : Message)
      (iteration : Iteration) (now : UInt64) (peer : Option PeerId) (hm : D m)
      (h : m.merge P iteration identity existing = .ok st) :
      CacheStep P identity D existing (some (stamp st now peer))

variable {D : Message → Prop} {cell cell' : Cell CachedDeviceWriterState} {node : NetworkNode}
  {st : CachedDeviceWriterState} {work : DeviceWriterSyncWork}
  {saved : List (Iteration × PersistedRemoteIdentityState)}

/-- The same for the cell that holds the state: it stays as it is or gets a new pointer. -/
def CellStep (P : Primitives) (identity : IdentityId) (D : Message → Prop)
    (cell cell' : Cell CachedDeviceWriterState) : Prop :=
  cell' = cell ∨ ∃ st, cell' = cell.put st ∧ CacheStep P identity D cell.value? (some st)

section

variable (h : CellStep P identity D cell cell')
include h

theorem CellStep.cacheStep : CacheStep P identity D cell.value? cell'.value? := by
  rcases h with rfl | ⟨st, rfl, h⟩
  · exact .keep _
  · exact h

theorem CellStep.sound (hs : cell.Sound) : cell'.Sound := by
  rcases h with rfl | ⟨st, rfl, -⟩
  · exact hs
  · exact cell.sound_put st

theorem CellStep.taken {snapshot : Option (Pointer CachedDeviceWriterState)}
    (ht : Taken cell snapshot) : Taken cell' snapshot := by
  rcases h with rfl | ⟨st, rfl, -⟩
  · exact ht
  · exact ht.put st

end

variable {node' : NetworkNode}

theorem cached_eq_of_cellStep
    (h : CellStep P identity (fun _ => False) (node.deviceWriterStates identity)
      (node'.deviceWriterStates identity)) : node'.cached identity = node.cached identity := by
  have hstep := h.cacheStep
  unfold NetworkNode.cached
  generalize (node.deviceWriterStates identity).value? = before at hstep ⊢
  generalize (node'.deviceWriterStates identity).value? = after at hstep ⊢
  cases hstep with
  | keep => rfl
  | merge m iteration now peer hm h => exact hm.elim

/-! ### What the operations do to the cache and to the works -/

def works (node : NetworkNode) : List DeviceWriterSyncWork :=
  node.deviceWriterSyncWork.active ++ node.deviceWriterSyncWork.queued

theorem insertState_self (node : NetworkNode) (st : CachedDeviceWriterState) :
    (node.insertState identity st).deviceWriterStates identity =
    (node.deviceWriterStates identity).put st := by
  simp [NetworkNode.insertState]

theorem insertState_of_ne (node : NetworkNode) (st : CachedDeviceWriterState) {id : IdentityId}
    (h : id ≠ identity) :
    (node.insertState id st).deviceWriterStates identity = node.deviceWriterStates identity := by
  simp [NetworkNode.insertState, Function.update_of_ne h.symm]

theorem cellStep_insertState (node : NetworkNode) {id : IdentityId} {m : Message}
    (iteration : Iteration) (now : UInt64) (peer : Option PeerId) (hm : id = identity → D m)
    (h : m.merge P iteration id (node.cached id) = .ok st) :
    CellStep P identity D (node.deviceWriterStates identity)
      ((node.insertState id (stamp st now peer)).deviceWriterStates identity) := by
  by_cases hid : id = identity
  · subst hid
    rw [insertState_self]
    exact .inr ⟨_, rfl, .merge m iteration now peer (hm rfl) h⟩
  · rw [insertState_of_ne _ _ hid]
    exact .inl rfl

/-- An operation outside the background: works stay, and the cache makes a step. -/
structure Stores (P : Primitives) (identity : IdentityId) (D : Message → Prop)
    (node node' : NetworkNode) : Prop where
  self : node'.identity = node.identity
  queue : node'.deviceWriterSyncWork = node.deviceWriterSyncWork
  cell : CellStep P identity D (node.deviceWriterStates identity)
    (node'.deviceWriterStates identity)

theorem Stores.refl (node : NetworkNode) : Stores P identity D node node := ⟨rfl, rfl, .inl rfl⟩

section

variable (node) (ambient : Ambient) (id : IdentityId) (records : List DeviceAuthorizationRecord)
  (logs : List (List DeviceWriterLogEntry))

theorem stores_storeVerified (hm : id = identity → D (.full records logs)) :
    Stores P identity D node (node.storeVerifiedDeviceWriterLogs P ambient id records logs).2 := by
  unfold NetworkNode.storeVerifiedDeviceWriterLogs
  split
  · exact .refl node
  · next merged hmerged =>
    have hput := cellStep_insertState node ambient.iteration ambient.now none hm hmerged
    dsimp only
    split_ifs
    · exact ⟨rfl, rfl, .inl rfl⟩
    · exact ⟨rfl, rfl, hput⟩
    · split
      · exact .refl node
      · exact ⟨rfl, rfl, hput⟩

theorem persistSynced_frame :
    let node' := (node.persistSyncedLocalDeviceWriterState P ambient id).2
    node'.identity = node.identity ∧ node'.deviceWriterSyncWork = node.deviceWriterSyncWork ∧
      node'.deviceWriterStates = node.deviceWriterStates := by
  unfold NetworkNode.persistSyncedLocalDeviceWriterState
  split_ifs
  · exact ⟨rfl, rfl, rfl⟩
  · split
    · exact ⟨rfl, rfl, rfl⟩
    · dsimp only
      split
      · exact ⟨rfl, rfl, rfl⟩
      · split_ifs <;> exact ⟨rfl, rfl, rfl⟩

theorem stores_storeAndPersist (hm : id = identity → D (.full records logs)) :
    Stores P identity D node (node.storeAndPersist P ambient id records logs).2 := by
  have hstore := stores_storeVerified (P := P) node ambient id records logs hm
  unfold NetworkNode.storeAndPersist
  split
  · next e node' heq =>
    rw [heq] at hstore
    exact hstore
  · next sequence node' heq =>
    rw [heq] at hstore
    obtain ⟨hid, hq, hc⟩ := persistSynced_frame (P := P) node' ambient id
    exact ⟨hid.trans hstore.self, hq.trans hstore.queue, by rw [hc]; exact hstore.cell⟩

theorem stores_publish (log : List DeviceWriterLogEntry)
    (hm : id = identity → D (.full records [log])) :
    Stores P identity D node (node.publishLocalDeviceLog P ambient id records log).2 := by
  have hstore := stores_storeVerified (P := P) node ambient id records [log] hm
  unfold NetworkNode.publishLocalDeviceLog
  split_ifs
  · exact .refl node
  · split
    · exact .refl node
    · split
      · next e node' heq =>
        rw [heq] at hstore
        exact hstore
      · next sequence node' heq =>
        rw [heq] at hstore
        exact ⟨hstore.self, hstore.queue, hstore.cell⟩

/-! ### What the operations leave alone -/

/-- The nodes agree in who they are and in their own logs. -/
structure LocalFrame (node node' : NetworkNode) : Prop where
  identity : node'.identity = node.identity
  localDeviceId : node'.localDeviceId = node.localDeviceId
  localLogs : node'.localDeviceWriterLogs = node.localDeviceWriterLogs

theorem localFrame_storeVerified :
    LocalFrame node (node.storeVerifiedDeviceWriterLogs P ambient id records logs).2 := by
  unfold NetworkNode.storeVerifiedDeviceWriterLogs
  split
  · exact ⟨rfl, rfl, rfl⟩
  · dsimp only
    split_ifs
    · exact ⟨rfl, rfl, rfl⟩
    · exact ⟨rfl, rfl, rfl⟩
    · split <;> exact ⟨rfl, rfl, rfl⟩

end

/-- A frame in which the cache stays as well. -/
structure CacheFrame (node node' : NetworkNode) : Prop extends LocalFrame node node' where
  states : node'.deviceWriterStates = node.deviceWriterStates

theorem cacheFrame_schedule (node : NetworkNode) (pending : PendingDeviceWriterSync)
    (response : DeviceWriterSyncResponse) :
    CacheFrame node (node.scheduleDeviceWriterSyncVerification pending response) := by
  unfold NetworkNode.scheduleDeviceWriterSyncVerification
  dsimp only
  split_ifs <;> exact ⟨⟨rfl, rfl, rfl⟩, rfl⟩

theorem cacheFrame_cancel (node : NetworkNode) (id : IdentityId) :
    CacheFrame node (node.cancelDeviceWriterSyncForIdentity id) := by
  unfold NetworkNode.cancelDeviceWriterSyncForIdentity
  dsimp only
  split <;> exact ⟨⟨rfl, rfl, rfl⟩, rfl⟩

theorem localFrame_completion (node : NetworkNode) (ambient : Ambient) (id : ℕ) :
    LocalFrame node (node.handleDeviceWriterSyncCompletion P ambient id) := by
  unfold NetworkNode.handleDeviceWriterSyncCompletion
  split
  · exact ⟨rfl, rfl, rfl⟩
  · split
    · exact ⟨rfl, rfl, rfl⟩
    · exact ⟨rfl, rfl, rfl⟩
    · split_ifs <;> exact ⟨rfl, rfl, rfl⟩

/-! ### Works -/

theorem mem_startQueued {maxConcurrency : ℕ} {work : DeviceWriterSyncWork} :
    ∀ {queued active : List DeviceWriterSyncWork},
      work ∈ (NetworkNode.startQueued maxConcurrency active queued).1 ++
          (NetworkNode.startQueued maxConcurrency active queued).2 ↔ work ∈ active ++ queued
  | [], active => by rw [NetworkNode.startQueued]
  | next :: queued, active => by
    rw [NetworkNode.startQueued]
    split_ifs
    · rw [mem_startQueued, append_assoc, singleton_append]
    · rfl

theorem works_finishWork_subset (node : NetworkNode) (work : DeviceWriterSyncWork) :
    works (node.finishWork work) ⊆ works node := by
  intro w hw
  unfold works NetworkNode.finishWork NetworkNode.setQueue at hw
  rw [mem_startQueued] at hw
  rcases mem_append.mp hw with hw | hw
  · exact mem_append_left _ (mem_of_mem_filter hw)
  · exact mem_append_right _ hw

theorem works_cancel_subset (node : NetworkNode) (id : IdentityId) :
    works (node.cancelDeviceWriterSyncForIdentity id) ⊆ works node := by
  intro w hw
  unfold NetworkNode.cancelDeviceWriterSyncForIdentity at hw
  dsimp only at hw
  split at hw
  · exact hw
  · unfold works NetworkNode.setQueue at hw
    rcases mem_append.mp hw with hw | hw
    · exact mem_append_left _ hw
    · exact mem_append_right _ (mem_of_mem_filter hw)

theorem mem_works_schedule {pending : PendingDeviceWriterSync} {response : DeviceWriterSyncResponse}
    (h : work ∈ works (node.scheduleDeviceWriterSyncVerification pending response)) :
    work ∈ works node ∨ work.identity = pending.identity ∧
      workMessage work = responseMessage response ∧
      work.existing = (node.deviceWriterStates pending.identity).content := by
  unfold NetworkNode.scheduleDeviceWriterSyncVerification at h
  unfold works at h ⊢
  dsimp only at h
  split_ifs at h
  · simp only [NetworkNode.setQueue, mem_append, mem_singleton] at h ⊢
    rcases h with (h | rfl) | h
    · exact .inl (.inl h)
    · exact .inr ⟨rfl, rfl, rfl⟩
    · exact .inl (.inr h)
  · simp only [NetworkNode.setQueue, mem_append, mem_singleton] at h ⊢
    rcases h with h | h | rfl
    · exact .inl (.inl h)
    · exact .inl (.inr h)
    · exact .inr ⟨rfl, rfl, rfl⟩
  · exact .inl h

theorem verifyWork_eq_ok {ambient : Ambient} (h : NetworkNode.verifyWork P work ambient = .ok st) :
    ∃ merged, (workMessage work).merge P ambient.iteration work.identity
      (work.existing.map (·.value)) = .ok merged ∧
      st = stamp merged ambient.now (some work.provider) := by
  simp only [NetworkNode.verifyWork, bind_eq_ok, pure_eq_ok] at h
  obtain ⟨merged, hm, rfl⟩ := h
  exact ⟨merged, hm, rfl⟩

/-! ### The node -/

/-- **The invariant** of a node, for one identity: the works for it have messages that were
delivered, and snapshots that were taken from its cell. -/
structure NodeOk (identity : IdentityId) (D : Message → Prop) (node : NetworkNode) : Prop where
  sound : (node.deviceWriterStates identity).Sound
  works : ∀ work ∈ works node, work.identity = identity →
    D (workMessage work) ∧ Taken (node.deviceWriterStates identity) work.existing

theorem NodeOk.of_cellStep (h : NodeOk identity D node)
    (hc : CellStep P identity D (node.deviceWriterStates identity)
      (node'.deviceWriterStates identity)) (hw : CacheSteps.works node' ⊆ CacheSteps.works node) :
    NodeOk identity D node' := by
  refine ⟨hc.sound h.sound, fun work hwork hid => ?_⟩
  obtain ⟨hm, ht⟩ := h.works work (hw hwork) hid
  exact ⟨hm, hc.taken ht⟩

theorem NodeOk.of_stores (h : NodeOk identity D node) (hs : Stores P identity D node node') :
    NodeOk identity D node' ∧ CellStep P identity D (node.deviceWriterStates identity)
      (node'.deviceWriterStates identity) := by
  refine ⟨h.of_cellStep hs.cell ?_, hs.cell⟩
  rw [CacheSteps.works, CacheSteps.works, hs.queue]
  exact List.Subset.refl _

theorem NodeOk.completion (h : NodeOk identity D node) (ambient : Ambient) (id : ℕ) :
    NodeOk identity D (node.handleDeviceWriterSyncCompletion P ambient id) ∧
      CellStep P identity D (node.deviceWriterStates identity)
        ((node.handleDeviceWriterSyncCompletion P ambient id).deviceWriterStates identity) := by
  unfold NetworkNode.handleDeviceWriterSyncCompletion
  split
  · exact ⟨h, .inl rfl⟩
  next work hfind =>
  have hmem : work ∈ CacheSteps.works node := mem_append_left _ (mem_of_find?_eq_some hfind)
  have hsub := works_finishWork_subset node work
  split
  · exact ⟨h, .inl rfl⟩
  · exact ⟨h.of_cellStep (.inl rfl : CellStep P identity D _ _) hsub, .inl rfl⟩
  next st hst =>
  obtain ⟨merged, hmerged, rfl⟩ := verifyWork_eq_ok hst
  split_ifs with hcur
  · have hcell : CellStep P identity D (node.deviceWriterStates identity)
      ((node.insertState work.identity
          (stamp merged ambient.now (some work.provider))).deviceWriterStates identity) := by
      by_cases hid : work.identity = identity
      · -- The snapshot is current, so the merge was into what is cached.
        obtain ⟨hm, ht⟩ := h.works work hmem hid
        rw [← hid] at ht
        rw [ht.current hcur] at hmerged
        exact cellStep_insertState node ambient.iteration ambient.now _ (fun _ => hm) hmerged
      · rw [insertState_of_ne _ _ hid]
        exact .inl rfl
    exact ⟨h.of_cellStep hcell (works_finishWork_subset (node.insertState _ _) work), hcell⟩
  · exact ⟨h.of_cellStep (.inl rfl : CellStep P identity D _ _) hsub, .inl rfl⟩

section

variable {node : NetworkNode} (h : NodeOk identity D node)
include h

theorem NodeOk.response (ambient : Ambient) (pending : PendingDeviceWriterSync)
    (response : DeviceWriterSyncResponse)
    (hD : ∀ m, Delivers identity (.response ambient pending response) m → D m) :
    NodeOk identity D (node.handleSyncResponse P ambient pending response) ∧
      CellStep P identity D (node.deviceWriterStates identity)
        ((node.handleSyncResponse P ambient pending response).deviceWriterStates identity) := by
  unfold NetworkNode.handleSyncResponse
  split
  · exact ⟨h, .inl rfl⟩
  split_ifs with hempty hlocal
  · exact ⟨h, .inl rfl⟩
  · have hstates := (cacheFrame_schedule node pending response).states
    refine ⟨⟨by rw [hstates]; exact h.sound, fun work hwork hid => ?_⟩, by
      rw [hstates]; exact .inl rfl⟩
    rw [hstates]
    rcases mem_works_schedule hwork with hwork | ⟨hpending, hmessage, hexisting⟩
    · exact h.works work hwork hid
    · rw [hpending] at hid
      subst hid
      rw [hmessage, hexisting]
      exact ⟨hD _ ⟨rfl, .inl rfl⟩, h.sound⟩
  · exact h.of_stores (stores_storeAndPersist node ambient _ _ _ fun hid => hD _ ⟨hid, .inr rfl⟩)

/-- **One event.** -/
theorem NodeOk.step (event : Event) (hD : ∀ m, Delivers identity event m → D m) :
    NodeOk identity D (step P peerIdOf node event) ∧ CellStep P identity D
      (node.deviceWriterStates identity)
        ((Node.step P peerIdOf node event).deviceWriterStates identity) := by
  cases event with
  | request ambient peer request =>
    rw [Node.step, NetworkNode.handleSyncRequest]
    split_ifs
    · exact h.of_stores (stores_storeAndPersist node ambient _ _ _ fun hid => hD _ ⟨hid, rfl⟩)
    · exact ⟨h, .inl rfl⟩
  | response ambient pending response => exact h.response ambient pending response hD
  | completion ambient id => exact h.completion ambient id
  | store ambient id records logs =>
    exact h.of_stores (stores_storeVerified node ambient _ _ _ fun hid => hD _ ⟨hid, rfl⟩)
  | publish ambient id records log =>
    exact h.of_stores (stores_publish node ambient _ _ _ fun hid => hD _ ⟨hid, rfl⟩)
  | cancel id =>
    have hcell : CellStep P identity D (node.deviceWriterStates identity)
        ((node.cancelDeviceWriterSyncForIdentity id).deviceWriterStates identity) := by
      rw [(cacheFrame_cancel node id).states]
      exact .inl rfl
    exact ⟨h.of_cellStep hcell (works_cancel_subset node id), hcell⟩

/-- **A run.** The cache of the identity makes steps, each with a message that was delivered. -/
theorem NodeOk.run {events : List Event}
    (hD : ∀ event ∈ events, ∀ m, Delivers identity event m → D m) :
    NodeOk identity D (run P peerIdOf node events) ∧ ReflTransGen (CacheStep P identity D)
      (node.cached identity)
        ((Node.run P peerIdOf node events).cached identity) := by
  induction events generalizing node with
  | nil => exact ⟨h, .refl⟩
  | cons event events ih =>
    obtain ⟨hok, hcell⟩ := h.step (P := P) event (hD event mem_cons_self)
    obtain ⟨hok', hsteps⟩ := ih hok fun e he => hD e (mem_cons_of_mem event he)
    exact ⟨hok', .head hcell.cacheStep hsteps⟩

end

/-! ### Construction -/

/-- The message of a saved state of the identity. -/
def Restores (identity : IdentityId) (saved : List (Iteration × PersistedRemoteIdentityState))
    (m : Message) : Prop :=
  ∃ s ∈ saved, s.2.identity = identity ∧ m = .full s.2.authorityRecords s.2.deviceLogs

/-- A node under construction: no works, and for the identity nothing or a restored state. -/
structure Restored (P : Primitives) (identity : IdentityId) (D : Message → Prop)
    (node : NetworkNode) : Prop where
  works : works node = []
  sound : (node.deviceWriterStates identity).Sound
  cached : CacheStep P identity D none (node.cached identity)

theorem Restored.restore (h : Restored P identity D node) (iteration : Iteration)
    (record : PersistedRemoteIdentityState)
    (hD : record.identity = identity → D (.full record.authorityRecords record.deviceLogs)) :
    Restored P identity D (node.restorePersistedRemoteIdentityState P iteration record) := by
  unfold NetworkNode.restorePersistedRemoteIdentityState
  split_ifs
  · exact h
  split
  · exact h
  next st hst =>
  by_cases hid : record.identity = identity
  · subst hid
    refine ⟨h.works, ?_, ?_⟩
    · rw [insertState_self]
      exact Cell.sound_put _ _
    · rw [NetworkNode.cached, insertState_self, Cell.value?_put]
      exact .merge _ iteration record.lastVerifiedAt record.sourcePeer (hD rfl) hst
  · refine ⟨h.works, ?_, ?_⟩
    · rw [insertState_of_ne _ _ hid]
      exact h.sound
    · rw [NetworkNode.cached, insertState_of_ne _ _ hid]
      exact h.cached

theorem restored_construct (localIdentity : IdentityId) (localDeviceId : String)
    (maxConcurrency queueCapacity : ℕ) (hD : ∀ m, Restores identity saved m → D m) :
    Restored P identity D
      (construct P localIdentity localDeviceId maxConcurrency queueCapacity saved) := by
  unfold construct
  have hfresh : Restored P identity D (.fresh localIdentity localDeviceId maxConcurrency
    queueCapacity) :=
    ⟨rfl, Cell.sound_empty, .keep none⟩
  generalize NetworkNode.fresh localIdentity localDeviceId maxConcurrency queueCapacity = node at *
  induction saved generalizing node with
  | nil => exact hfresh
  | cons s saved ih =>
    refine ih (fun m hm => ?_) _ (hfresh.restore s.1 s.2 fun hid => hD _ ⟨s, by simp, hid, rfl⟩)
    obtain ⟨s', hs', hm⟩ := hm
    exact hD m ⟨s', mem_cons_of_mem s hs', hm⟩

theorem Restored.nodeOk (h : Restored P identity D node) : NodeOk identity D node :=
  ⟨h.sound, fun work hwork => by rw [h.works] at hwork; cases hwork⟩

/-- **The cache of a node**, from its construction on: it starts empty, and changes only by merges
of messages that were saved or delivered. -/
theorem run_cacheSteps (localIdentity : IdentityId) (localDeviceId : String)
    (maxConcurrency queueCapacity : ℕ) {events : List Event}
    (hsaved : ∀ m, Restores identity saved m → D m)
    (hD : ∀ event ∈ events, ∀ m, Delivers identity event m → D m) :
    let node := run P peerIdOf
      (construct P localIdentity localDeviceId maxConcurrency queueCapacity saved) events
    NodeOk identity D node ∧ ReflTransGen (CacheStep P identity D) none (node.cached identity) := by
  have hrestored := restored_construct (P := P) localIdentity localDeviceId maxConcurrency
    queueCapacity hsaved
  obtain ⟨hok, hsteps⟩ : NodeOk identity D (run P peerIdOf _ events) ∧ _ := hrestored.nodeOk.run hD
  exact ⟨hok, .head hrestored.cached hsteps⟩

/-! ### The chain that is held -/

variable {chain : List DeviceAuthorizationRecord}
  {existing existing' : Option CachedDeviceWriterState} {Q : DeviceWriterLogEntry → Prop}

/-- The records of the message are a prefix of the chain, if they verify. -/
def CarriesPrefix (P : Primitives) (identity : IdentityId) (chain : List DeviceAuthorizationRecord)
    (m : Message) : Prop :=
  ∀ candidate, verifyIdentityAuthorityChain P identity m.authorityRecords = .ok candidate →
    m.authorityRecords <+: chain

/-- What is cached is backed by a prefix of the chain. -/
def Follows (P : Primitives) (identity : IdentityId) (chain : List DeviceAuthorizationRecord)
    (existing : Option CachedDeviceWriterState) : Prop :=
  ∀ st ∈ existing, CacheOk P identity st ∧ st.authorityRecords <+: chain

theorem cacheOk_stamp {st : CachedDeviceWriterState} (h : CacheOk P identity st) (now : UInt64)
    (peer : Option PeerId) : CacheOk P identity (stamp st now peer) :=
  ⟨h.wellKeyed, h.backed⟩

/-- **The chain that is held never gets shorter.** -/
theorem CacheStep.extends
    (h : CacheStep P identity (CarriesPrefix P identity chain) existing existing')
    (hf : Follows P identity chain existing) :
    Follows P identity chain existing' ∧ ∀ st ∈ existing, ∃ st' ∈ existing',
      st.authorityRecords <+: st'.authorityRecords := by
  cases h with
  | keep => exact ⟨hf, fun st hst => ⟨st, hst, prefix_refl _⟩⟩
  | @merge st' m iteration now peer hm h =>
    have hok := cacheOk_of_mergeVerified (fun st hst => (hf st hst).1) h
    obtain ⟨candidate, _, hv, hrecords, -⟩ := mergeVerified_eq_ok_iff.mp h
    have hpre := hm candidate hv
    have hstamp : Follows P identity chain (some (stamp st' now peer)) ↔
        CacheOk P identity (stamp st' now peer) ∧ st'.authorityRecords <+: chain := by
          simp [Follows, stamp]
    rw [hstamp]
    cases existing with
    | none =>
      refine ⟨⟨cacheOk_stamp hok now peer, ?_⟩, by simp⟩
      rw [hrecords]
      exact hpre
    | some st =>
      obtain ⟨hst, hheld⟩ := hf st rfl
      have hext : st'.authorityRecords <+: chain ∧ st.authorityRecords <+:
        st'.authorityRecords := by
        rw [hrecords]
        rcases chooseRecords_cases hst hheld hpre hv with ⟨heq, hle⟩ | ⟨heq, -⟩
        · rw [heq]
          exact ⟨hpre, hle⟩
        · rw [heq]
          exact ⟨hheld, prefix_refl _⟩
      refine ⟨⟨cacheOk_stamp hok now peer, hext.1⟩, ?_⟩
      rintro _ ⟨⟩
      exact ⟨stamp st' now peer, rfl, hext.2⟩

theorem extends_of_reflTransGen
    (h : ReflTransGen (CacheStep P identity (CarriesPrefix P identity chain)) existing existing')
    (hf : Follows P identity chain existing) :
    Follows P identity chain existing' ∧ ∀ st ∈ existing, ∃ st' ∈ existing',
      st.authorityRecords <+: st'.authorityRecords := by
  induction h with
  | refl => exact ⟨hf, fun st hst => ⟨st, hst, prefix_refl _⟩⟩
  | tail _ hstep ih =>
    obtain ⟨hf₁, hext₁⟩ := ih
    obtain ⟨hf₂, hext₂⟩ := CacheStep.extends hstep hf₁
    refine ⟨hf₂, fun st hst => ?_⟩
    obtain ⟨st₁, hst₁, hle₁⟩ := hext₁ st hst
    obtain ⟨st₂, hst₂, hle₂⟩ := hext₂ st₁ hst₁
    exact ⟨st₂, hst₂, hle₁.trans hle₂⟩

/-! ### The entries that are held -/

def AllEntries (Q : DeviceWriterLogEntry → Prop) (existing : Option CachedDeviceWriterState) :
    Prop :=
  ∀ st ∈ existing, ∀ (deviceId : String) (log), st.deviceLogs[deviceId]? = some log → ∀ e ∈ log, Q e

theorem AllEntries.getD (h : AllEntries Q existing) :
    ∀ (deviceId : String) (log), ((existing.map (·.deviceLogs)).getD ∅)[deviceId]? = some log →
      ∀ e ∈ log, Q e := by
  cases existing with
  | none => simp
  | some st => exact h st rfl

section

variable (h : CacheStep P identity D existing existing')
  (hok : ∀ st ∈ existing, CacheOk P identity st)
include h hok

theorem CacheStep.allEntries (hQ : AllEntries Q existing)
    (hD : ∀ m, D m → ∀ log ∈ m.deviceLogs, ∀ e ∈ log, Q e) : AllEntries Q existing' := by
  cases h with
  | keep => exact hQ
  | merge m iteration now peer hm h =>
    obtain ⟨_, _, -, -, -, -, hlogs, -⟩ := mergeVerified_eq_ok_iff.mp h
    rintro _ ⟨⟩
    exact forall_mem_of_foldlM_accumulateLog (wellKeyed_existing hok) hQ.getD (hD m hm) hlogs

theorem CacheStep.cacheOk : ∀ st ∈ existing', CacheOk P identity st := by
  cases h with
  | keep => exact hok
  | merge m iteration now peer hm h =>
    rintro _ ⟨⟩
    exact cacheOk_stamp (cacheOk_of_mergeVerified hok h) now peer

end

theorem cacheOk_of_reflTransGen (h : ReflTransGen (CacheStep P identity D) none existing) :
    ∀ st ∈ existing, CacheOk P identity st := by
  induction h with
  | refl => simp
  | tail _ hstep ih => exact hstep.cacheOk ih

theorem allEntries_of_reflTransGen (h : ReflTransGen (CacheStep P identity D) none existing)
    (hD : ∀ m, D m → ∀ log ∈ m.deviceLogs, ∀ e ∈ log, Q e) : AllEntries Q existing := by
  induction h with
  | refl => simp [AllEntries]
  | tail hsteps hstep ih => exact hstep.allEntries (cacheOk_of_reflTransGen hsteps) ih hD

/-- **What a node caches is genuine**: it verifies, and its entries were saved or delivered for the
identity. -/
theorem run_cached_genuine (localIdentity : IdentityId) (localDeviceId : String)
    (maxConcurrency queueCapacity : ℕ) (events : List Event) :
    let cached := (run P peerIdOf
      (construct P localIdentity localDeviceId maxConcurrency queueCapacity saved)
        events).cached identity
    (∀ st ∈ cached, CacheOk P identity st) ∧
      AllEntries
        (fun e => ∃ m, (Restores identity saved m ∨ ∃ event ∈ events, Delivers identity event m) ∧
        ∃ log ∈ m.deviceLogs, e ∈ log) cached := by
  intro cached
  have hsteps : ReflTransGen (CacheStep P identity fun m => Restores identity saved m ∨
      ∃ event ∈ events, Delivers identity event m) none cached :=
    (run_cacheSteps localIdentity localDeviceId maxConcurrency queueCapacity (fun _ => .inl)
      fun event hevent _ hm => .inr ⟨event, hevent, hm⟩).2
  exact ⟨cacheOk_of_reflTransGen hsteps, allEntries_of_reflTransGen hsteps fun m hm log hlog _ he =>
    ⟨m, hm, log, hlog, he⟩⟩

/-! ### Sequences of deliveries -/

/-- A message as it is received: with the iteration of its merge, the time and the source. -/
structure Received where
  message : Message
  iteration : Iteration
  now : UInt64
  peer : Option PeerId

/-- What is cached after a message: the merge, or what was cached if that fails. -/
def receive (P : Primitives) (identity : IdentityId) (existing : Option CachedDeviceWriterState)
    (r : Received) : Option CachedDeviceWriterState :=
  match r.message.merge P r.iteration identity existing with
  | .ok st => some (stamp st r.now r.peer)
  | .error _ => existing

/-- What is cached after messages, starting from nothing. -/
def received (P : Primitives) (identity : IdentityId) (rs : List Received) :
    Option CachedDeviceWriterState :=
  rs.foldl (receive P identity) none

theorem received_concat (rs : List Received) (r : Received) :
    received P identity (rs ++ [r]) = receive P identity (received P identity rs) r := by
      simp [received]

theorem cacheStep_receive (existing : Option CachedDeviceWriterState) {r : Received}
    (hr : D r.message) : CacheStep P identity D existing (receive P identity existing r) := by
  unfold receive
  split
  · next st hst => exact .merge r.message r.iteration r.now r.peer hr hst
  · exact .keep existing

theorem cacheSteps_received {rs : List Received} (hrs : ∀ r ∈ rs, D r.message) :
    ReflTransGen (CacheStep P identity D) none (received P identity rs) := by
  induction rs using List.reverseRecOn with
  | nil => exact .refl
  | append_singleton rs r ih =>
    rw [received_concat]
    exact .tail (ih fun r' hr' => hrs r' (mem_append_left _ hr'))
      (cacheStep_receive _ (hrs r (by simp)))

end Jolt.Network.CacheSteps
