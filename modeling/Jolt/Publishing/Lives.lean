import Jolt.Publishing.AlignedRuns

/-! # A node over its restarts

The life of a node is made of events and restarts, in which it is built again from what is on disk
(`Becomes`). A restart may fail, and be tried again.

Through all of it the table of record mutations stays: no mutation that is in the table ever leaves
it or is changed, as only mutations that are not in it are carried out and what is on disk has all
that is in memory (`Durable`, `held_lives`). -/

namespace Jolt.Publishing.Lives

open Std Lib Checks Calls.Call Jolt.Core Jolt.Core.Types IdentityAuthority DeviceWriterLog UpdateLog
  Network DeviceWriterCache
open Node hiding Event step run construct
open Store Writing LocalNode Outcomes Requests Publishing.Alignment Publishing.Runs AlignedRuns

variable {P : Primitives} {toJson : List DeviceAuthorizationRecord → Bytes}
  {peerIdOf : Bytes → Option PeerId} {keys : Keys} {node node' start : LocalNode}
  {outside : Outside} {mutation : Option RecordMutationIntent} {v : PersistedRecordMutation}

/-! ### Events and restarts -/

/-- What becomes of a node that runs: it goes through an event, or is built again from its disk. A
node that could not be built does not run, and has what is on disk. -/
inductive Becomes (P : Primitives) (toJson : List DeviceAuthorizationRecord → Bytes)
    (peerIdOf : Bytes → Option PeerId) (keys : Keys) (start : LocalNode) : LocalNode → Bool → Prop
  | start : Becomes P toJson peerIdOf keys start start true
  | event {node : LocalNode} (event : Event) (h : Becomes P toJson peerIdOf keys start node true) :
      Becomes P toJson peerIdOf keys start (step P toJson peerIdOf node event) true
  | restart {node : LocalNode} {running : Bool} (boot : Boot)
      (h : Becomes P toJson peerIdOf keys start node running) :
      Becomes P toJson peerIdOf keys start (construct P keys boot node.store).2
        (construct P keys boot node.store).1.isOk

theorem becomes_run (h : Becomes P toJson peerIdOf keys start node true) (events : List Event) :
    Becomes P toJson peerIdOf keys start (run P toJson peerIdOf node events) true :=
  run_induction (I := (Becomes P toJson peerIdOf keys start · true)) (C := fun _ => True)
    (fun _ event h _ => .event event h) h fun _ _ => trivial

theorem identity_construct {boot : Boot} {store : ContentStore}
    (h : construct P keys boot store = (.ok (), node)) : node.identity = keys.identity P := by
  unfold construct load at h
  simp only [run_bind_eq_ok, write_apply, Prod.mk.injEq] at h
  obtain ⟨_, updates, hupdates, _, logs, hlogs, _, restored, ⟨-, rfl⟩, hensure⟩ := h
  have hupdated : updates.identity = keys.identity P := by
    rcases loadPersistedLocalUpdateLog_eq_ok hupdates with ⟨-, rfl⟩ | ⟨entries, -, -,
      -, rfl⟩ <;> rfl
  have hloaded : logs.identity = updates.identity := by
    rcases loadPersistedLocalDeviceWriterLog_eq_ok hlogs with ⟨-, rfl⟩ | ⟨record, _,
      network', -, hn, rfl⟩
    · rfl
    · have hself := (CacheSteps.localFrame_storeVerified (P := P) updates.network boot.load
        updates.identity
        record.authorityRecords record.deviceLogs).identity
      rw [hn] at hself
      unfold loaded
      cases record.deviceLogs.find? fun log =>
        log.head?.map (·.body.deviceId) = some updates.localDeviceId <;> exact hself
  obtain ⟨hid, -⟩ := restoreRemote_frame (P := P) logs.network boot.remote
  obtain ⟨records, -, htake⟩ := ensureLocalDeviceAuthority_eq_ok hensure
  have htaken := sameSelf_takeOver (P := P) boot.authorize (logs.setNetwork (boot.remote.foldl
      (fun network saved => network.restorePersistedRemoteIdentityState P saved.1 saved.2)
      logs.network)).identity records (logs.setNetwork (boot.remote.foldl
      (fun network saved => network.restorePersistedRemoteIdentityState P saved.1 saved.2)
      logs.network))
  rw [htake] at htaken
  exact htaken.identity.trans (hid.trans (hloaded.trans hupdated))

theorem identity_lives (hstart : start.identity = keys.identity P)
    (h : Becomes P toJson peerIdOf keys start node true) : node.identity = keys.identity P := by
  generalize hrunning : true = running at h
  induction h with
  | start => exact hstart
  | event event _ ih => exact (sameSelf_step _ event).identity.trans (ih rfl)
  | @restart mid _ boot _ _ =>
    obtain ⟨_, node', hconstruct⟩ := exists_of_isOk hrunning.symm
    rw [hconstruct]
    exact identity_construct hconstruct

/-! ### The table of mutations -/

def savedMutations (store : ContentStore) :
    RecordMutations := (store.deviceWriterLog.map (·.recordMutations)).getD ∅

def Durable (node : LocalNode) : Prop :=
  ∀ (id : String) (v : PersistedRecordMutation), node.localRecordMutations[id]? = some v →
    (savedMutations node.store)[id]? = some v

/-- What is in the table of the one node is in that of the other, and stays on disk. -/
structure TableKept (a b : LocalNode) : Prop where
  grows : ∀ (id : String) (v : PersistedRecordMutation), a.localRecordMutations[id]? = some v →
    b.localRecordMutations[id]? = some v
  durable : Durable a → Durable b

theorem TableKept.refl (node : LocalNode) : TableKept node node := ⟨fun _ _ h => h, id⟩

theorem TableKept.trans {a b c : LocalNode} (h : TableKept a b) (h' : TableKept b c) :
    TableKept a c :=
  ⟨fun id v hv => h'.grows id v (h.grows id v hv), fun ha => h'.durable (h.durable ha)⟩

theorem tableKept_of_eq {a b : LocalNode}
    (hmemory : b.localRecordMutations = a.localRecordMutations)
    (hdisk : b.store.deviceWriterLog = a.store.deviceWriterLog) : TableKept a b := by
  refine ⟨fun _ _ hv => hmemory ▸ hv, fun ha id v hv => ?_⟩
  rw [hmemory] at hv
  have hsaved := ha id v hv
  unfold savedMutations at hsaved ⊢
  rwa [hdisk]

theorem tableKept_of_saved {a b : LocalNode}
    (hmemory : b.localRecordMutations = a.localRecordMutations)
    (hsaved : ∀ (id : String) (v : PersistedRecordMutation), a.localRecordMutations[id]? = some v →
      (savedMutations b.store)[id]? = some v) : TableKept a b :=
  ⟨fun _ _ hv => hmemory ▸ hv, fun _ id v hv => hsaved id v (hmemory ▸ hv)⟩

section

variable (hnew : ∀ intent, mutation = some intent →
  node.localRecordMutations[intent.mutationId]? = none)
include hnew

theorem recordMutation_grows {path revision : String} {table : RecordMutations}
    (h : node.recordMutation P path revision mutation = .ok table) (id : String)
    (v : PersistedRecordMutation) (hv : node.localRecordMutations[id]? = some v) :
    table[id]? = some v := by
  cases mutation with
  | none =>
    cases h
    exact hv
  | some intent =>
    simp only [recordMutation, bind_eq_ok, pure_eq_ok] at h
    obtain ⟨observed, -, rfl⟩ := h
    have hne : intent.mutationId ≠ id := by
      rintro rfl
      rw [hnew intent rfl] at hv
      cases hv
    rw [ExtTreeMap.getElem?_insert]
    simpa [hne] using hv

theorem tableKept_publish {path : String} {operation : DeviceWriterOperation} :
    TableKept node
      (publishLocalDeviceWriterOperation P outside path operation mutation node).2 := by
  obtain ⟨e, h⟩ | ⟨entry, record, network, hp, hstored⟩ :=
    publish_cases P outside path operation mutation node
  · rw [h]
    exact .refl node
  obtain ⟨-, _, -, -, -, htable, -⟩ := prepareDeviceWriterOperation_eq_ok.mp hp
  have hgrows := recordMutation_grows hnew htable
  rcases hstored with ⟨e, -, h⟩ | ⟨stored, -, h⟩ <;> rw [h]
  · exact tableKept_of_saved rfl hgrows
  · exact ⟨hgrows, fun _ _ _ hv => hv⟩

end

theorem tableKept_carryOut {w : Write}
    (hnew : ∀ intent, w.intent = some intent →
      node.localRecordMutations[intent.mutationId]? = none) :
    TableKept node (carryOut P outside w node).2 := by
  have hcontent : TableKept node (afterContent P w node) ∧
      (afterContent P w node).localRecordMutations = node.localRecordMutations := by
    unfold afterContent
    cases w.content with
    | none => exact ⟨.refl node, rfl⟩
    | some data => exact ⟨tableKept_of_eq rfl rfl, rfl⟩
  obtain ⟨hkept, htable⟩ := hcontent
  rw [carryOut_apply]
  rcases hsaved : w.content.elim (.ok ()) fun _ => outside.contentSaved with e | u <;>
    simp only [hsaved]
  · obtain ⟨_, _, hcut⟩ := afterCut_eq P outside node w
    rw [hcut]
    exact tableKept_of_eq rfl rfl
  cases w.action with
  | none => exact hkept.trans (tableKept_publish (htable ▸ hnew))
  | some action =>
    dsimp only
    rcases node.nextUpdateLogEntry P action with e | entry <;> simp only
    · exact hkept
    rcases outside.updateLogSaved with e | v
    · exact hkept.trans (tableKept_of_eq rfl rfl)
    · refine Stagewise.of_replied ?_
      have hlogged : TableKept (afterContent P w node) (logged (afterContent P w node) entry) :=
        tableKept_of_eq rfl rfl
      exact (hkept.trans hlogged).trans (tableKept_publish (htable ▸ hnew))

theorem tableKept_call (request : Request) : TableKept node (call P outside request node).2 := by
  rw [call_apply]
  rcases hplan : plan P node request with e | reply | w
  · exact .refl node
  · exact .refl node
  · refine Stagewise.of_replied (tableKept_carryOut ?_)
    intro intent hintent
    rcases plan_eq_inr hplan with ⟨_, _, _, -, -, rfl⟩ | ⟨_, _, _, -, -, rfl⟩ | ⟨m, r, -,
      -, hnew, -, rfl⟩
    · simp at hintent
    · cases hintent
    · simp only [Mutation.write, intent_at, Option.some.injEq] at hintent
      subst hintent
      exact hnew

theorem tableKept_takeOver (ambient : Ambient) (identity : IdentityId)
    (records : List DeviceAuthorizationRecord) (node : LocalNode) :
    TableKept node (takeOver P ambient identity records node).2 := by
  rcases takeOver_cases (P := P) node ambient identity records with h | ⟨network, -, -, -,
    h | h⟩ <;> rw [h]
  · exact .refl node
  · exact tableKept_of_saved rfl fun _ _ hv => hv
  · exact tableKept_of_saved rfl fun _ _ hv => hv

theorem tableKept_authority (ambient : Ambient) (operation : DeviceAuthorizationOperation) :
    TableKept node
      (appendLocalDeviceAuthorityOperation P toJson outside ambient operation node).2 := by
  rw [appendLocalDeviceAuthorityOperation_apply]
  rcases nextAuthorityRecords P node outside.createdAt operation with e | records
  · exact .refl node
  dsimp only
  have hpublished : TableKept node (publishBytesAtPath P outside (toJson records)
    identityAuthorityPath node).2 := by
    rw [publishBytesAtPath_apply]
    cases node.addressOf identityAuthorityPath with
    | error e => exact .refl node
    | ok address => exact Stagewise.of_replied (tableKept_carryOut (by simp))
  generalize publishBytesAtPath P outside (toJson records) identityAuthorityPath node =
    published at hpublished ⊢
  obtain ⟨e | result, mid⟩ := published
  · exact hpublished
  · have htaken := tableKept_takeOver (P := P) ambient node.identity records mid
    dsimp only
    generalize takeOver P ambient node.identity records mid = taken at htaken ⊢
    obtain ⟨e | u, node'⟩ := taken <;> exact hpublished.trans htaken

theorem tableKept_storeAndPersist (ambient : Ambient) (records : List DeviceAuthorizationRecord)
    (logs : List (List DeviceWriterLogEntry)) (node : LocalNode) :
    TableKept node (storeAndPersist P ambient node.identity records logs node).2 := by
  obtain ⟨network', -, -, -, h | ⟨merged, -, h⟩⟩ :=
    storeAndPersist_cases (P := P) node ambient records logs <;> rw [h]
  · exact tableKept_of_eq rfl rfl
  · exact tableKept_of_saved rfl fun _ _ hv => hv

/-- **Every event keeps the table.** -/
theorem tableKept_step (node : LocalNode) (event : Event) :
    TableKept node (step P toJson peerIdOf node event) := by
  cases event with
  | write outside request => exact tableKept_call request
  | content outside data =>
    show TableKept node (publishBytes P outside data node).2
    rw [publishBytes_apply]
    cases outside.contentSaved with
    | error e =>
      obtain ⟨_, _, hcut⟩ := withCut_eq P outside node data
      rw [hcut]
      exact tableKept_of_eq rfl rfl
    | ok u => exact tableKept_of_eq rfl rfl
  | authority outside ambient operation => exact tableKept_authority ambient operation
  | offer ambient peer request =>
    exact keeps_handleSyncRequest TableKept.refl (fun node _ =>
      tableKept_storeAndPersist ambient _ _ node) node
  | response ambient pending response =>
    exact keeps_handleSyncResponse TableKept.refl (fun node _ =>
      tableKept_storeAndPersist ambient _ _ node)
      (fun node _ => tableKept_of_eq rfl rfl) node
  | updateLog identity entries =>
    show TableKept node (storeVerifiedUpdateLog P identity entries node).2
    rcases storeVerifiedUpdateLog_cases (P := P) node identity entries with h | ⟨h, -⟩ <;> rw [h]
    · exact .refl node
    · exact tableKept_of_eq rfl rfl
  | _ => exact tableKept_of_eq rfl rfl

/-! ### Restarts -/

theorem store_loadUpdateLog (node : LocalNode) :
    (loadPersistedLocalUpdateLog P node).2.store = node.store ∧
      (loadPersistedLocalUpdateLog P node).2.localRecordMutations = node.localRecordMutations := by
  unfold loadPersistedLocalUpdateLog
  simp only [read_bind, id_eq]
  cases node.store.updateLog with
  | none => exact ⟨rfl, rfl⟩
  | some entries =>
    simp only [check_bind]
    cases asProtocolFault _ (verifyUpdateLogForIdentity P node.identity entries) <;>
      exact ⟨rfl, rfl⟩

theorem store_loadDeviceWriterLog (ambient : Ambient) (hempty : node.localRecordMutations = ∅) :
    let result := loadPersistedLocalDeviceWriterLog P ambient node
    result.2.store = node.store ∧ (result.1 = .ok () → result.2.localRecordMutations =
      savedMutations node.store) := by
  dsimp only
  rcases h : loadPersistedLocalDeviceWriterLog P ambient node with ⟨e | u, node'⟩
  · refine ⟨?_, nofun⟩
    unfold loadPersistedLocalDeviceWriterLog at h
    simp only [read_bind, id_eq] at h
    cases hrecord : node.store.deviceWriterLog with
    | none => simp [hrecord] at h
    | some record =>
      simp only [hrecord] at h
      rw [run_bind_eq_error] at h
      obtain h | ⟨_, mid, -, h⟩ := h
      · unfold mapErr at h
        split at h
        next error mid hstored =>
          cases h
          exact congrArg (·.2.store) hstored.symm
        next => exact congrArg (·.2.store) h.symm
      · simp only [write_bind] at h
        cases hfind : record.deviceLogs.find? fun log =>
          log.head?.map (·.body.deviceId) = some node.localDeviceId <;>
          · simp only [hfind] at h
            cases (Prod.mk.inj h).1
  · rcases loadPersistedLocalDeviceWriterLog_eq_ok h with ⟨hnone, rfl⟩ | ⟨record, _, _,
      hrecord, -, rfl⟩
    · refine ⟨rfl, fun _ => ?_⟩
      rw [hempty, savedMutations, hnone]
      rfl
    · refine ⟨rfl, fun _ => ?_⟩
      rw [savedMutations, hrecord]
      rfl

theorem savedMutations_ensure (ambient : Ambient) (createdAt : UInt64)
    (h : node.localRecordMutations = savedMutations node.store) :
    let node' := (ensureLocalDeviceAuthority P ambient createdAt node).2
    savedMutations node'.store = savedMutations node.store ∧
      node'.localRecordMutations = savedMutations node.store := by
  dsimp only
  rw [ensureLocalDeviceAuthority_apply]
  cases node.authorityRecordsForLocalDevice P createdAt false with
  | error e => exact ⟨rfl, h⟩
  | ok records =>
    dsimp only
    rcases takeOver_cases (P := P) node ambient node.identity records with
      heq | ⟨network, -, -, -, heq | heq⟩ <;> rw [heq]
    · exact ⟨rfl, h⟩
    · exact ⟨h, h⟩
    · exact ⟨h, h⟩

/-- **A restart keeps the table on disk, and loads it** if it succeeds. -/
theorem construct_table (keys : Keys) (boot : Boot) (store : ContentStore) :
    savedMutations (construct P keys boot store).2.store = savedMutations store ∧
      ((construct P keys boot store).1 = .ok () →
        (construct P keys boot store).2.localRecordMutations = savedMutations store) := by
  unfold construct load
  obtain ⟨hstore, hempty⟩ := store_loadUpdateLog (P := P) (fresh P keys store)
  rw [run_bind]
  generalize loadPersistedLocalUpdateLog P (fresh P keys store) = updates at hstore hempty ⊢
  obtain ⟨e | u, updates⟩ := updates
  · exact ⟨congrArg savedMutations hstore, nofun⟩
  obtain ⟨hstore', hloaded⟩ := store_loadDeviceWriterLog (P := P) boot.load hempty
  dsimp only
  rw [run_bind]
  generalize loadPersistedLocalDeviceWriterLog P boot.load updates = logs at hstore' hloaded ⊢
  obtain ⟨e | u, logs⟩ := logs
  · exact ⟨congrArg savedMutations (hstore'.trans hstore), nofun⟩
  rw [show savedMutations store = savedMutations logs.store from
    congrArg savedMutations (hstore'.trans hstore).symm]
  dsimp only
  rw [write_bind]
  have htable : logs.localRecordMutations = savedMutations logs.store :=
    (hloaded rfl).trans (congrArg savedMutations hstore'.symm)
  have hensure := fun network => @savedMutations_ensure P (logs.setNetwork network) boot.authorize
    boot.createdAt htable
  exact ⟨(hensure _).1, fun _ => (hensure _).2⟩

/-- **What is in the table of a node that runs is on disk**, at any time of its life. -/
theorem durable_lives (hstart : Durable start)
    (h : Becomes P toJson peerIdOf keys start node true) :
    Durable node := by
  generalize hrunning : true = running at h
  induction h with
  | start => exact hstart
  | event event _ ih => exact (tableKept_step _ event).durable (ih rfl)
  | @restart mid _ boot _ _ =>
    obtain ⟨hsaved, hloaded⟩ := construct_table (P := P) keys boot mid.store
    obtain ⟨_, node', hconstruct⟩ := exists_of_isOk hrunning.symm
    intro id v hv
    rw [hloaded (by rw [hconstruct])] at hv
    rw [hsaved]
    exact hv

theorem durable_construct {boot : Boot} {store : ContentStore}
    (h : construct P keys boot store = (.ok (), node)) : Durable node := by
  obtain ⟨hsaved, hloaded⟩ := construct_table (P := P) keys boot store
  rw [h] at hsaved hloaded
  intro id v hv
  rw [hloaded rfl] at hv
  rw [hsaved]
  exact hv

/-- Through restarts that fail it is the table on disk that has a mutation. -/
theorem saved_lives {id : String} {running : Bool} (hdurable : Durable start)
    (hv : start.localRecordMutations[id]? = some v)
    (h : Becomes P toJson peerIdOf keys start node running) :
    (savedMutations node.store)[id]? = some v ∧
      (running = true → node.localRecordMutations[id]? = some v ∧ Durable node) := by
  induction h with
  | start => exact ⟨hdurable id v hv, fun _ => ⟨hv, hdurable⟩⟩
  | @event mid event _ ih =>
    obtain ⟨hmemory, hdurable'⟩ := ih.2 rfl
    have hkept := @tableKept_step P toJson peerIdOf mid event
    have hmemory' := hkept.grows id v hmemory
    exact ⟨hkept.durable hdurable' id v hmemory', fun _ => ⟨hmemory', hkept.durable hdurable'⟩⟩
  | @restart mid _ boot _ ih =>
    obtain ⟨hsaved, hloaded⟩ := construct_table (P := P) keys boot mid.store
    refine ⟨hsaved ▸ ih.1, fun hrunning => ?_⟩
    obtain ⟨_, node', hconstruct⟩ := exists_of_isOk hrunning
    rw [hconstruct] at hloaded ⊢
    exact ⟨hloaded rfl ▸ ih.1, durable_construct hconstruct⟩

/-- **A mutation stays in the table** through events and restarts. -/
theorem held_lives {id : String} (hdurable : Durable start)
    (hv : start.localRecordMutations[id]? = some v)
    (h : Becomes P toJson peerIdOf keys start node true) :
    node.localRecordMutations[id]? = some v :=
  ((saved_lives hdurable hv h).2 rfl).1

end Jolt.Publishing.Lives
