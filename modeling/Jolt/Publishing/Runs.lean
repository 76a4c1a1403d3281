import Jolt.Publishing.Requests
import Jolt.Publishing.Alignment

/-! # A publishing node over time

What can happen to a node that publishes while it runs: requests of its clients, authority
operations, syncs, and logs that are stored or received (`commands.rs`, `events.rs`). A call that
fails leaves behind what it had done. Restarts are added in `Publishing.Lives`.

A relation that every event keeps is one that every run keeps (`Stepwise`). -/

namespace Jolt.Publishing.Runs

open Std Lib Calls.Call Jolt.Core Jolt.Core.Types IdentityAuthority DeviceWriterLog UpdateLog
  Network DeviceWriterCache Node CacheSteps Writing LocalNode Outcomes Requests

/-! ### Events -/

inductive Event where
  | write (outside : Outside) (request : Request)
  | content (outside : Outside) (data : Bytes)
  | authority (outside : Outside) (ambient : Ambient) (operation : DeviceAuthorizationOperation)
  | offer (ambient : Ambient) (peer : PeerId) (request : DeviceWriterSyncRequest)
  | response (ambient : Ambient) (pending : PendingDeviceWriterSync)
      (response : DeviceWriterSyncResponse)
  | completion (ambient : Ambient) (id : ℕ)
  | cancel (identity : IdentityId)
  | store (ambient : Ambient) (identity : IdentityId)
      (authorityRecords : List DeviceAuthorizationRecord)
      (deviceLogs : List (List DeviceWriterLogEntry))
  | updateLog (identity : IdentityId) (entries : List UpdateLogEntry)

section

variable (P : Primitives) (toJson : List DeviceAuthorizationRecord → Bytes)
  (peerIdOf : Bytes → Option PeerId)

/-- A sync request arrives: what it offers is stored if it is for the local identity and comes from
one of its devices. -/
def handleSyncRequest (ambient : Ambient) (peer : PeerId) (request : DeviceWriterSyncRequest) :
    NodeCall Unit := do
  let node ← read id
  if request.authorityRecords ≠ [] ∧ request.identity = node.identity ∧
      NetworkNode.authorityRecordsAuthorizePeer P peerIdOf request.identity request.authorityRecords
        peer then
    storeAndPersist P ambient request.identity request.authorityRecords request.deviceLogs
  else return ()

def handleSyncResponse (ambient : Ambient) (pending : PendingDeviceWriterSync)
    (response : DeviceWriterSyncResponse) : NodeCall Unit := do
  let node ← read id
  match response.ensureSupported causalHeadsDeviceWriterOperationVersion
      deltaDeviceWriterSyncVersion with
  | .error _ => return ()
  | .ok () =>
    if response.authorityRecords = [] then return ()
    else if pending.identity ≠ node.identity then
      write fun node => node.setNetwork
        (node.network.scheduleDeviceWriterSyncVerification pending response)
    else storeAndPersist P ambient pending.identity response.authorityRecords response.deviceLogs

def step (node : LocalNode) : Event → LocalNode
  | .write outside request => (call P outside request node).2
  | .content outside data => (publishBytes P outside data node).2
  | .authority outside ambient operation =>
    (appendLocalDeviceAuthorityOperation P toJson outside ambient operation node).2
  | .offer ambient peer request => (handleSyncRequest P peerIdOf ambient peer request node).2
  | .response ambient pending response => (handleSyncResponse P ambient pending response node).2
  | .completion ambient id =>
    node.setNetwork (node.network.handleDeviceWriterSyncCompletion P ambient id)
  | .cancel identity => node.setNetwork (node.network.cancelDeviceWriterSyncForIdentity identity)
  | .store ambient identity authorityRecords deviceLogs =>
    (storeVerifiedDeviceWriterLogs P ambient identity authorityRecords deviceLogs node).2
  | .updateLog identity entries => (storeVerifiedUpdateLog P identity entries node).2

def run (node : LocalNode) (events : List Event) : LocalNode := events.foldl
    (step P toJson peerIdOf) node

end

variable {P : Primitives} {toJson : List DeviceAuthorizationRecord → Bytes}
  {peerIdOf : Bytes → Option PeerId} {node node' : LocalNode} {st : CachedDeviceWriterState}
  {R : LocalNode → LocalNode → Prop} (ambient : Ambient) (identity : IdentityId)
  (records : List DeviceAuthorizationRecord) (logs : List (List DeviceWriterLogEntry))

theorem run_induction {I : LocalNode → Prop} {C : Event → Prop}
    (hstep : ∀ node event, I node → C event → I (step P toJson peerIdOf node event))
    (h : I node) {events : List Event} (hevents : ∀ event ∈ events, C event) :
    I (run P toJson peerIdOf node events) := by
  induction events generalizing node with
  | nil => exact h
  | cons event events ih =>
    exact ih (hstep node event h (hevents event List.mem_cons_self)) fun e he =>
      hevents e (List.mem_cons_of_mem event he)

/-! ### Who the node is -/

structure SameSelf (a b : LocalNode) : Prop where
  identity : b.identity = a.identity
  localDeviceId : b.localDeviceId = a.localDeviceId
  identityKey : b.identityKey = a.identityKey
  deviceKey : b.deviceKey = a.deviceKey

theorem SameSelf.refl (node : LocalNode) : SameSelf node node := ⟨rfl, rfl, rfl, rfl⟩

theorem SameSelf.trans {a b c : LocalNode} (h : SameSelf a b) (h' : SameSelf b c) : SameSelf a c :=
  ⟨h'.identity.trans h.identity, h'.localDeviceId.trans h.localDeviceId,
    h'.identityKey.trans h.identityKey, h'.deviceKey.trans h.deviceKey⟩

theorem sameSelf_storeVerified :
    Keeps SameSelf (storeVerifiedDeviceWriterLogs P ambient identity records logs) := by
  intro node
  have hframe := localFrame_storeVerified (P := P) node.network ambient identity records logs
  exact ⟨hframe.identity, hframe.localDeviceId, rfl, rfl⟩

theorem sameSelf_publish (outside : Outside) (path : String) (operation : DeviceWriterOperation)
    (mutation : Option RecordMutationIntent) :
    Keeps SameSelf (publishLocalDeviceWriterOperation P outside path operation mutation) := by
  refine Keeps.bind SameSelf.trans (keeps_read .refl id) fun before => ?_
  refine Keeps.bind SameSelf.trans (keeps_check .refl _) fun prepared => ?_
  refine Keeps.bind SameSelf.trans (keeps_check .refl _) fun _ => ?_
  refine Keeps.bind SameSelf.trans (keeps_write fun node => ⟨rfl, rfl, rfl, rfl⟩) fun _ => ?_
  refine Keeps.bind SameSelf.trans (sameSelf_storeVerified _ _ _ _) fun _ => ?_
  refine Keeps.bind SameSelf.trans (keeps_write fun node => ⟨rfl, rfl, rfl, rfl⟩) fun _ => ?_
  exact keeps_pure .refl _

theorem stagewise_sameSelf : Stagewise P SameSelf where
  refl := .refl
  trans := .trans
  content _ _ _ := ⟨rfl, rfl, rfl, rfl⟩
  entry _ _ _ _ := ⟨rfl, rfl, rfl, rfl⟩
  logged _ _ _ _ := ⟨rfl, rfl, rfl, rfl⟩
  publish := sameSelf_publish

theorem sameSelf_persistDeviceWriterState :
    Keeps SameSelf (persistDeviceWriterState P ambient records) := by
  refine Keeps.bind SameSelf.trans (keeps_read .refl id) fun before => ?_
  refine Keeps.bind SameSelf.trans (keeps_check .refl _) fun _ => ?_
  exact keeps_write fun node => ⟨rfl, rfl, rfl, rfl⟩

theorem sameSelf_takeOver : Keeps SameSelf (takeOver P ambient identity records) := by
  refine Keeps.bind SameSelf.trans (sameSelf_persistDeviceWriterState _ _) fun _ => ?_
  refine Keeps.bind SameSelf.trans (sameSelf_storeVerified _ _ _ _) fun _ => ?_
  exact keeps_write fun node => ⟨rfl, rfl, rfl, rfl⟩

theorem sameSelf_storeAndPersist :
    Keeps SameSelf (storeAndPersist P ambient identity records logs) := by
  refine Keeps.bind SameSelf.trans (sameSelf_storeVerified _ _ _ _) fun _ => ?_
  refine Keeps.bind SameSelf.trans (keeps_read .refl id) fun node => ?_
  split_ifs
  · exact keeps_pure .refl ()
  · split
    · exact keeps_check .refl _
    · refine Keeps.bind SameSelf.trans ?_ fun _ => ?_
      · intro node
        rw [adoptSyncedLocalLog_apply]
        split
        · exact .refl node
        · split_ifs <;> exact ⟨rfl, rfl, rfl, rfl⟩
      · refine Keeps.bind SameSelf.trans (sameSelf_persistDeviceWriterState _ _) fun _ => ?_
        exact keeps_write fun node => ⟨rfl, rfl, rfl, rfl⟩

theorem keeps_handleSyncRequest (hrefl : ∀ node, R node node) {ambient : Ambient} {peer : PeerId}
    {request : DeviceWriterSyncRequest} (hstore : ∀ node, request.identity = node.identity →
      R node (storeAndPersist P ambient node.identity request.authorityRecords
        request.deviceLogs node).2) :
          Keeps R (handleSyncRequest P peerIdOf ambient peer request) := by
  intro node
  unfold handleSyncRequest
  simp only [read_bind, id_eq]
  split_ifs with h
  · have hnode := hstore node h.2.1
    rw [← h.2.1] at hnode
    exact hnode
  · exact hrefl node

theorem keeps_handleSyncResponse (hrefl : ∀ node, R node node) {ambient : Ambient}
    {pending : PendingDeviceWriterSync} {response : DeviceWriterSyncResponse}
    (hstore : ∀ node, pending.identity = node.identity →
      R node (storeAndPersist P ambient node.identity response.authorityRecords
        response.deviceLogs node).2) (hschedule : ∀ node, pending.identity ≠ node.identity →
      R node
        (node.setNetwork (node.network.scheduleDeviceWriterSyncVerification pending response))) :
    Keeps R (handleSyncResponse P ambient pending response) := by
  intro node
  unfold handleSyncResponse
  simp only [read_bind, id_eq]
  cases response.ensureSupported causalHeadsDeviceWriterOperationVersion
    deltaDeviceWriterSyncVersion with
  | error e => exact hrefl node
  | ok u =>
    dsimp only
    split_ifs with hempty hid
    · exact hrefl node
    · exact hschedule node hid
    · rw [not_not] at hid
      have hnode := hstore node hid
      rw [← hid] at hnode
      exact hnode

/-! ### What every event keeps -/

/-- What taking over a chain leaves behind. -/
theorem takeOver_cases (node : LocalNode) (ambient : Ambient) (identity : IdentityId)
    (records : List DeviceAuthorizationRecord) :
    (takeOver P ambient identity records node).2 = node ∨
      ∃ network, network.identity = node.network.identity ∧ network.localDeviceId =
        node.network.localDeviceId ∧
        network.localDeviceWriterLogs = node.network.localDeviceWriterLogs ∧
        let saved := (node.setStore (node.store.saveDeviceWriterLog
          (recordOf node ambient.iteration records))).setNetwork network
        ((takeOver P ambient identity records node).2 = saved ∨
          (takeOver P ambient identity records node).2 = saved.setAuthorityRecords records) := by
  rw [takeOver_apply]
  cases ambient.saved with
  | error error => exact .inl rfl
  | ok u =>
    refine .inr ?_
    have hframe := localFrame_storeVerified (P := P) node.network ambient identity records []
    refine ⟨_, hframe.identity, hframe.localDeviceId, hframe.localLogs, ?_⟩
    dsimp only
    rcases node.network.storeVerifiedDeviceWriterLogs P ambient identity records [] with
      ⟨error | sequence, network'⟩
    · exact .inl rfl
    · exact .inr rfl

/-- The node takes over an update log that it receives: the log verifies and is longer than the held
one. -/
def Takes (P : Primitives) (node : LocalNode) (identity : IdentityId)
    (entries : List UpdateLogEntry) : Prop :=
  ∃ candidate, verifyUpdateLogForIdentity P identity entries = .ok candidate ∧
    ∀ current sequence, node.updateLogs identity = some current →
      verifyUpdateLogForIdentity P identity current = .ok sequence → sequence < candidate

/-- A relation that every event keeps, except perhaps an update log that is taken over. -/
structure Localwise (P : Primitives) (R : LocalNode → LocalNode → Prop) : Prop
    extends Stagewise P R where
  takeOver : ∀ ambient identity records, Keeps R (takeOver P ambient identity records)
  sync : ∀ node ambient records logs, R node
    (storeAndPersist P ambient node.identity records logs node).2
  network : ∀ node network, network.identity = node.network.identity →
    network.localDeviceId = node.network.localDeviceId →
    network.localDeviceWriterLogs = node.network.localDeviceWriterLogs →
    R node (node.setNetwork network)

/-- **A relation that every event keeps**, whatever comes from outside. -/
structure Stepwise (P : Primitives) (R : LocalNode → LocalNode → Prop) : Prop
    extends Localwise P R where
  updateLog : ∀ node identity entries, Takes P node identity entries → R node
    (node.insertUpdateLog identity entries)

theorem Localwise.step (h : Localwise P R) (node : LocalNode) (event : Event)
    (hupdateLog : ∀ identity entries, event = .updateLog identity entries →
      Takes P node identity entries → R node (node.insertUpdateLog identity entries)) :
    R node (Runs.step P toJson peerIdOf node event) := by
  have hnetwork : ∀ (node : LocalNode) {network}, LocalFrame node.network network →
      R node (node.setNetwork network) := fun node _ hframe =>
    h.network node _ hframe.identity hframe.localDeviceId hframe.localLogs
  cases event with
  | write outside request => exact h.call outside request node
  | content outside data => exact h.publishBytes outside data node
  | authority outside ambient operation =>
    exact h.authority toJson outside ambient operation
      (fun _ records _ hmid => h.trans hmid (h.takeOver ambient _ records _)) node
  | offer ambient peer request =>
    exact keeps_handleSyncRequest h.refl (fun node _ => h.sync node ambient _ _) node
  | response ambient pending response =>
    refine keeps_handleSyncResponse h.refl (fun node _ => h.sync node ambient _ _) (fun node _ =>
      ?_) node
    exact hnetwork node (cacheFrame_schedule node.network pending response).toLocalFrame
  | completion ambient id =>
    exact hnetwork node (localFrame_completion node.network ambient id)
  | cancel identity =>
    exact hnetwork node (cacheFrame_cancel node.network identity).toLocalFrame
  | store ambient identity records logs =>
    exact hnetwork node (localFrame_storeVerified node.network ambient identity records logs)
  | updateLog identity entries =>
    show R node (storeVerifiedUpdateLog P identity entries node).2
    rcases storeVerifiedUpdateLog_cases (P := P) node identity entries with heq | ⟨heq, htakes⟩ <;>
      rw [heq]
    · exact h.refl node
    · exact hupdateLog identity entries rfl htakes

namespace Stepwise

variable {R : LocalNode → LocalNode → Prop}

theorem step (h : Stepwise P R) (node : LocalNode) (event : Event) :
    R node (Runs.step P toJson peerIdOf node event) :=
  h.toLocalwise.step node event fun identity entries _ => h.updateLog node identity entries

theorem run (h : Stepwise P R) (node : LocalNode) (events : List Event) :
    R node (Runs.run P toJson peerIdOf node events) :=
  run_induction (I := R node) (C := fun _ => True)
    (fun mid event hmid _ => h.trans hmid (h.step mid event)) (h.refl node) fun _ _ => trivial

end Stepwise

theorem stepwise_sameSelf : Stepwise P SameSelf where
  toStagewise := stagewise_sameSelf
  takeOver := sameSelf_takeOver
  sync node ambient records logs := sameSelf_storeAndPersist ambient node.identity records logs node
  network _ _ hid hdevice _ := ⟨hid, hdevice, rfl, rfl⟩
  updateLog _ _ _ _ := ⟨rfl, rfl, rfl, rfl⟩

theorem sameSelf_step (node : LocalNode) (event : Event) :
    SameSelf node (step P toJson peerIdOf node event) := stepwise_sameSelf.step node event

theorem sameSelf_run (node : LocalNode) (events : List Event) :
    SameSelf node (run P toJson peerIdOf node events) := stepwise_sameSelf.run node events

end Jolt.Publishing.Runs
