import Jolt.Publishing.Outcomes

/-! # Requests to write

The commands with which a client writes at a node (`commands.rs`): publish at a path, append at a
path, and update, delete or restore a record. `call` runs the method of the node that serves a
request.

All of them go the same way, once their checks are passed: content is published, the update log gets
an entry (not for an append), and the log of the local device gets one. `plan` is what the checks
decide, an answer from the table of mutations or a `Write`, and `carryOut` does the write
(`call_apply`). -/

namespace Jolt.Publishing.Requests

open Std Lib.Checks Lib.Calls.Call Jolt.Core Jolt.Core.Types Address IdentityAuthority
  DeviceWriterLog UpdateLog Network.DeviceWriterCache Network.Node Store Writing LocalNode Outcomes

/-! ### Requests and replies -/

inductive MutationKind where
  | update (data : Bytes)
  | delete
  | restore (data : Bytes)
deriving DecidableEq

/-- The arguments of `update_local_record`, `delete_local_record` and `restore_local_record`. -/
structure Mutation where
  kind : MutationKind
  path : String
  observedRevision : String
  observedRevisions : List String
  mutationId : String
deriving DecidableEq

inductive Request where
  | publish (data : Bytes) (path : String)
  | append (data : Bytes) (path : String)
  | mutate (mutation : Mutation)

inductive Reply where
  | published (contentId : ContentId) (address : JoltAddress) (latestSequence : UInt64)
      (revision : String)
  | appended (contentId : ContentId) (address : JoltAddress) (deviceSequence : UInt64)
  | updated (record : LocalRecordUpdate)
  | deleted (record : LocalRecordDelete)

section

variable (P : Primitives) (outside : Outside) (m : Mutation) (node : LocalNode)

def mutate : NodeCall Reply :=
  match m.kind with
  | .update data => do
    return .updated
      (← updateLocalRecord P outside m.path data m.observedRevision m.observedRevisions
      m.mutationId)
  | .delete => do
    return .deleted
      (← deleteLocalRecord P outside m.path m.observedRevision m.observedRevisions m.mutationId)
  | .restore data => do
    return .updated (← restoreLocalRecord P outside m.path data m.observedRevision
      m.observedRevisions m.mutationId)

def call : Request → NodeCall Reply
  | .publish data path => do
    let (contentId, address, latestSequence, revision) ← publishBytesAtPath P outside data path
    return .published contentId address latestSequence revision
  | .append data path => do
    let (contentId, address, deviceSequence) ← publishBytesAppendingPath P outside data path
    return .appended contentId address deviceSequence
  | .mutate m => mutate P outside m

/-! ### What a request writes -/

structure Write where
  content : Option Bytes
  /-- The entry of the update log; an append has none. -/
  action : Option UpdateAction
  path : String
  operation : DeviceWriterOperation
  intent : Option RecordMutationIntent

def publishContent : Option Bytes → NodeCall Unit
  | none => pure ()
  | some data => do let _ ← publishBytes P outside data

/-- The sequence is that of the entry of the update log, or else that of the device. -/
def carryOut (w : Write) : NodeCall (UInt64 × String) := do
  publishContent P outside w.content
  match w.action with
  | none => publishLocalDeviceWriterOperation P outside w.path w.operation w.intent
  | some action =>
    let sequence ← publishLocalUpdateLogAction P outside action
    let (_, revision) ← publishLocalDeviceWriterOperation P outside w.path w.operation w.intent
    return (sequence, revision)

def MutationKind.operation : MutationKind → PersistedRecordMutationOperation
  | .update _ => .update
  | .delete => .delete
  | .restore _ => .restore

def MutationKind.content : MutationKind → Option Bytes
  | .update data => some data
  | .delete => none
  | .restore data => some data

def MutationKind.required : MutationKind → RequiredSingleRecordState
  | .update _ => .present
  | .delete => .present
  | .restore _ => .deleted

def Write.at (path : String) (content : Option Bytes) (intent : Option RecordMutationIntent) :
    Write :=
  match content with
  | some data =>
    ⟨content, some (.setPath path (.fromBytes P data)), path, .setPath path (.fromBytes P data)
      .singleton, intent⟩
  | none => ⟨none, some (.removePath path), path, .tombstonePath path, intent⟩

def Mutation.write (request : RecordRequest) : Write :=
  .at P request.path m.kind.content
    (some ⟨m.mutationId, request.requestedRevisions, m.kind.operation,
    m.kind.content.map (.fromBytes P)⟩)

def Mutation.request : Except (Fault NetworkError) RecordRequest :=
  node.recordRequest m.path m.observedRevision m.observedRevisions m.mutationId

def Mutation.replay (request : RecordRequest) (previous : PersistedRecordMutation) :
    Except (Fault NetworkError) Reply :=
  match m.kind with
  | .update data => do return .updated (← node.replayRecordWrite P .update request data previous)
  | .delete => do return .deleted (← replayRecordDelete request previous)
  | .restore data => do return .updated (← node.replayRecordWrite P .restore request data previous)

/-- What the checks of a request decide: an answer, or what is to be written. -/
def plan : Request → Except (Fault NetworkError) (Reply ⊕ Write)
  | .publish data path => do
    let address ← node.addressOf path
    return .inr (.at P address.path (some data) none)
  | .append data path => do
    let address ← node.addressOf path
    return .inr ⟨some data, none, address.path, .setPath address.path (.fromBytes P data)
      .append, none⟩
  | .mutate m => do
    let request ← m.request node
    match node.localRecordMutations[m.mutationId]? with
    | some previous => return .inl (← m.replay P node request previous)
    | none =>
      node.validateCurrentRecordRevisions P request.path request.requestedRevisions m.kind.required
      return .inr (m.write P request)

def Request.reply (w : Write) (sequence : UInt64) (revision : String) : Request → Reply
  | .publish data _ => .published (.fromBytes P data) ⟨node.identity, w.path⟩ sequence revision
  | .append data _ => .appended (.fromBytes P data) ⟨node.identity, w.path⟩ sequence
  | .mutate m =>
    match m.kind.content with
    | some data =>
      .updated ⟨w.path, P.contentIdToString (.fromBytes P data), revision, data⟩
    | none => .deleted ⟨w.path, revision⟩

end

/-! ### A request is planned and carried out -/

variable {P : Primitives} {node node' : LocalNode} {outside : Outside} (data : Bytes)
  (path : String)

theorem addressOf_eq_ok {path : String} {address : JoltAddress}
    (h : node.addressOf path = .ok address) : address = ⟨node.identity, address.path⟩ := by
  simp only [addressOf, asInvalidInput_eq_ok, JoltAddress.new] at h
  cases hpath : normalizePath path with
  | error e => simp [hpath, Except.map] at h
  | ok normalized =>
    rw [hpath] at h
    cases h
    rfl

/-- A write that succeeds goes on to a reply. -/
def replied {α β : Type} (f : α → β) : Except (Fault NetworkError) α × LocalNode →
    Except (Fault NetworkError) β × LocalNode
  | (.error e, node) => (.error e, node)
  | (.ok a, node) => (.ok (f a), node)

theorem replied_snd {α β : Type} (f : α → β) (x : Except (Fault NetworkError) α × LocalNode) :
    (replied f x).2 = x.2 := by
  rcases x with ⟨e | a, node⟩ <;> rfl

/-- The stages of a singleton write, as `publish_bytes_at_path` and the mutations have them. -/
theorem carryOut_at_some {α : Type} (data : Bytes)
    (intent : ContentId → Option RecordMutationIntent)
    (f : ContentId → UInt64 → String → α) : (do
      let contentId ← publishBytes P outside data
      let sequence ← publishLocalUpdateLogAction P outside (.setPath path contentId)
      let (_, revision) ←
        publishLocalDeviceWriterPath P outside path contentId .singleton (intent contentId)
      return f contentId sequence revision : NodeCall α) node = replied (fun a => f
        (.fromBytes P data) a.1 a.2)
        (carryOut P outside (.at P path (some data) (intent (.fromBytes P data))) node) := by
  simp only [carryOut, Write.at, publishContent, run_bind, publishBytes_apply]
  cases outside.contentSaved with
  | error e => rfl
  | ok u =>
    simp only [pure_apply, publishLocalDeviceWriterPath]
    rcases publishLocalUpdateLogAction P outside (.setPath path (.fromBytes P data))
      (withContent P node data) with ⟨e | sequence, mid⟩
    · rfl
    · simp only
      rcases publishLocalDeviceWriterOperation P outside path
        (.setPath path (.fromBytes P data) .singleton) (intent (.fromBytes P data)) mid with
        ⟨e | ⟨_, revision⟩, last⟩ <;> rfl

theorem publishBytesAtPath_apply : publishBytesAtPath P outside data path node =
      match node.addressOf path with
      | .error e => (.error e, node)
      | .ok address => replied (fun a => (ContentId.fromBytes P data, address, a.1, a.2))
          (carryOut P outside (.at P address.path (some data) none) node) := by
  unfold publishBytesAtPath
  simp only [read_bind, id_eq]
  cases node.addressOf path with
  | error e => rfl
  | ok address =>
    exact carryOut_at_some address.path data (fun _ => none) fun contentId sequence revision =>
      (contentId, address, sequence, revision)

theorem publishBytesAppendingPath_apply : publishBytesAppendingPath P outside data path node =
      match node.addressOf path with
      | .error e => (.error e, node)
      | .ok address => replied (fun a => (ContentId.fromBytes P data, address, a.1))
          (carryOut P outside ⟨some data, none, address.path,
            .setPath address.path (.fromBytes P data) .append, none⟩ node) := by
  unfold publishBytesAppendingPath
  simp only [read_bind, id_eq]
  cases node.addressOf path with
  | error e => rfl
  | ok address =>
    rw [check_ok_bind]
    simp only [carryOut, publishContent, run_bind, publishBytes_apply]
    cases outside.contentSaved with
    | error e => rfl
    | ok u =>
      simp only [pure_apply, publishLocalDeviceWriterPath]
      rcases publishLocalDeviceWriterOperation P outside address.path
        (.setPath address.path (.fromBytes P data) .append) none (withContent P node data) with
        ⟨e | ⟨sequence, _⟩, last⟩ <;> rfl

theorem run_return {α β : Type} (x : NodeCall α) (f : α → β) :
    (x >>= fun a => pure (f a)) node = replied f (x node) := by
  rw [run_bind]
  rcases x node with ⟨e | a, mid⟩ <;> rfl

theorem replied_replied {α β γ : Type} (f : α → β) (g : β → γ)
    (x : Except (Fault NetworkError) α × LocalNode) :
    replied g (replied f x) = replied (fun a => g (f a)) x := by rcases x with ⟨e | a, node⟩ <;> rfl

theorem mutate_apply (m : Mutation) : mutate P outside m node =
      match m.request node with
      | .error e => (.error e, node)
      | .ok request =>
        match node.localRecordMutations[m.mutationId]? with
        | some previous => (m.replay P node request previous, node)
        | none =>
          match node.validateCurrentRecordRevisions P request.path request.requestedRevisions
              m.kind.required with
          | .error e => (.error e, node)
          | .ok () =>
              replied (fun a => Request.reply P node (m.write P request) a.1 a.2 (.mutate m))
              (carryOut P outside (m.write P request) node) := by
  obtain ⟨kind, path, observedRevision, observedRevisions, mutationId⟩ := m
  cases kind with
  | update data | restore data =>
    simp only [mutate, run_return, updateLocalRecord, restoreLocalRecord, writeLocalRecord,
      read_bind, id_eq,
      Mutation.request, Mutation.replay, MutationKind.required]
    cases node.recordRequest path observedRevision observedRevisions mutationId with
    | error e => rfl
    | ok request =>
      simp only [check_ok_bind]
      cases node.localRecordMutations[mutationId]? with
      | some previous =>
        dsimp only
        cases node.replayRecordWrite P _ request data previous <;> rfl
      | none =>
        dsimp only
        cases node.validateCurrentRecordRevisions P request.path request.requestedRevisions _ with
        | error e => rfl
        | ok u =>
          rw [check_ok_bind, carryOut_at_some request.path data (fun contentId => some ⟨mutationId,
            request.requestedRevisions, _, some contentId⟩) fun contentId _ revision =>
              LocalRecordUpdate.mk
              request.path (P.contentIdToString contentId) revision data]
          exact replied_replied _ _ _
  | delete =>
    simp only [mutate, run_return, deleteLocalRecord, read_bind, id_eq, Mutation.request,
      Mutation.replay,
      MutationKind.required]
    cases node.recordRequest path observedRevision observedRevisions mutationId with
    | error e => rfl
    | ok request =>
      simp only [check_ok_bind]
      cases node.localRecordMutations[mutationId]? with
      | some previous =>
        dsimp only
        cases replayRecordDelete request previous <;> rfl
      | none =>
        dsimp only
        cases node.validateCurrentRecordRevisions P request.path request.requestedRevisions _ with
        | error e => rfl
        | ok u =>
          rw [check_ok_bind]
          simp only [carryOut, Mutation.write, MutationKind.content, MutationKind.operation,
            Option.map_none, Write.at,
            publishContent, run_bind, pure_apply]
          rcases publishLocalUpdateLogAction P outside (.removePath request.path)
            node with ⟨e | sequence, mid⟩
          · rfl
          · simp only
            rcases publishLocalDeviceWriterOperation P outside request.path
              (.tombstonePath request.path) _ mid with
              ⟨e | ⟨_, revision⟩, last⟩ <;> rfl

/-- **A request is planned and, unless it is answered at once, carried out.** -/
theorem call_apply (request : Request) : call P outside request node =
      match plan P node request with
      | .error e => (.error e, node)
      | .ok (.inl reply) => (.ok reply, node)
      | .ok (.inr w) =>
          replied (fun a => request.reply P node w a.1 a.2) (carryOut P outside w node) := by
  cases request with
  | publish data path =>
    simp only [call, run_return, publishBytesAtPath_apply, plan]
    cases ha : node.addressOf path with
    | error e => rfl
    | ok address =>
      rw [addressOf_eq_ok ha]
      exact replied_replied _ _ _
  | append data path =>
    simp only [call, run_return, publishBytesAppendingPath_apply, plan]
    cases ha : node.addressOf path with
    | error e => rfl
    | ok address =>
      rw [addressOf_eq_ok ha]
      exact replied_replied _ _ _
  | mutate m =>
    simp only [call, mutate_apply, plan]
    cases m.request node with
    | error e => rfl
    | ok request =>
      cases node.localRecordMutations[m.mutationId]? with
      | some previous =>
        simp only [bind, Except.bind]
        cases m.replay P node request previous <;> rfl
      | none =>
        simp only [bind, Except.bind]
        cases node.validateCurrentRecordRevisions P request.path request.requestedRevisions
          m.kind.required <;> rfl

/-! ### The stages of a write -/

/-- The node once the content of a write is published. -/
def afterContent (P : Primitives) (w : Write) (node : LocalNode) : LocalNode :=
  match w.content with
  | none => node
  | some data => withContent P node data

/-- The node once the write of the content has failed. -/
def afterCut (P : Primitives) (outside : Outside) (w : Write) (node : LocalNode) : LocalNode :=
  match w.content with
  | none => node
  | some data => withCut P outside node data

theorem afterCut_eq (P : Primitives) (outside : Outside) (node : LocalNode) (w : Write) :
    ∃ publishedContent tornContent,
    afterCut P outside w node =
      node.setStore { node.store with publishedContent, tornContent } := by
  unfold afterCut
  cases w.content with
  | none => exact ⟨_, _, rfl⟩
  | some data => exact withCut_eq P outside node data

/-- The node once an entry is in its update log, in memory and on disk. -/
def logged (node : LocalNode) (entry : UpdateLogEntry) : LocalNode :=
  (withEntry node entry).setStore (node.store.saveUpdateLog (extendedLog node entry))

/-- **How a write ends**: each stage keeps what the stages before it have done. -/
theorem carryOut_apply (w : Write) : carryOut P outside w node =
      match w.content.elim (.ok ()) fun _ => outside.contentSaved with
      | .error e => (.error (.err (.protocol e)), afterCut P outside w node)
      | .ok () =>
        match w.action with
        | none =>
            publishLocalDeviceWriterOperation P outside w.path w.operation w.intent
            (afterContent P w node)
        | some action =>
          match node.nextUpdateLogEntry P action with
          | .error e => (.error (.err (.protocol e.toString)), afterContent P w node)
          | .ok entry =>
            match outside.updateLogSaved with
            | .error e => (.error (.err (.protocol e)), withEntry (afterContent P w node) entry)
            | .ok () => replied (fun a => (entry.body.sequence, a.2))
                (publishLocalDeviceWriterOperation P outside w.path w.operation w.intent
                  (logged (afterContent P w node) entry)) := by
  obtain ⟨content, action, path, operation, intent⟩ := w
  have hstages : ∀ mid : LocalNode, mid.nextUpdateLogEntry P = node.nextUpdateLogEntry P →
    (match action with
      | none => publishLocalDeviceWriterOperation P outside path operation intent
      | some action => do
        let sequence ← publishLocalUpdateLogAction P outside action
        let (_, revision) ← publishLocalDeviceWriterOperation P outside path operation intent
        return (sequence, revision) : NodeCall (UInt64 × String)) mid =
      match action with
      | none => publishLocalDeviceWriterOperation P outside path operation intent mid
      | some action =>
        match node.nextUpdateLogEntry P action with
        | .error e => (.error (.err (.protocol e.toString)), mid)
        | .ok entry =>
          match outside.updateLogSaved with
          | .error e => (.error (.err (.protocol e)), withEntry mid entry)
          | .ok () => replied (fun a => (entry.body.sequence, a.2))
              (publishLocalDeviceWriterOperation P outside path operation intent
                (logged mid entry)) := by
    intro mid hmid
    cases action with
    | none => rfl
    | some action =>
      simp only [run_bind, publishLocalUpdateLogAction_apply, hmid]
      cases node.nextUpdateLogEntry P action with
      | error e => rfl
      | ok entry =>
        cases outside.updateLogSaved with
        | error e => rfl
        | ok u =>
          show _ = replied _ (publishLocalDeviceWriterOperation P outside path operation intent
            (logged mid entry))
          rw [← run_return (publishLocalDeviceWriterOperation P outside path operation intent)]
          rfl
  cases content with
  | none => exact hstages node rfl
  | some data =>
    unfold carryOut
    rw [run_bind, publishContent, run_bind, publishBytes_apply]
    cases outside.contentSaved with
    | error e => rfl
    | ok u => exact hstages (withContent P node data) rfl

/-- **A write that succeeds**: the node as its log gets the entry, and what that stage does. -/
theorem carryOut_eq_ok {w : Write} {sequence : UInt64} {revision : String}
    (h : carryOut P outside w node = (.ok (sequence, revision), node')) :
    ∃ mid deviceSequence, (w.action = none ∧ mid = afterContent P w node ∧
      sequence = deviceSequence ∨
        ∃ action entry, w.action = some action ∧ node.nextUpdateLogEntry P action = .ok entry ∧
          mid = logged (afterContent P w node) entry ∧ sequence = entry.body.sequence) ∧
      publishLocalDeviceWriterOperation P outside w.path w.operation w.intent mid =
        (.ok (deviceSequence, revision), node') := by
  rw [carryOut_apply] at h
  rcases hcontent : w.content.elim (.ok ()) fun _ => outside.contentSaved with e | u
  · simp [hcontent] at h
  cases haction : w.action with
  | none =>
    simp only [hcontent, haction] at h
    exact ⟨_, sequence, .inl ⟨rfl, rfl, rfl⟩, h⟩
  | some action =>
    simp only [hcontent, haction] at h
    rcases hentry : node.nextUpdateLogEntry P action with e | entry
    · simp [hentry] at h
    rcases hsaved : outside.updateLogSaved with e | v
    · simp [hentry, hsaved] at h
    simp only [hentry, hsaved] at h
    rcases hpublish : publishLocalDeviceWriterOperation P outside w.path w.operation w.intent
      (logged (afterContent P w node) entry) with ⟨e | ⟨deviceSequence, r⟩, last⟩
    · simp [hpublish, replied] at h
    · simp only [hpublish, replied, Prod.mk.injEq, Except.ok.injEq] at h
      obtain ⟨⟨rfl, rfl⟩, rfl⟩ := h
      exact ⟨_, deviceSequence, .inr ⟨action, entry, rfl, hentry, rfl, rfl⟩, hpublish⟩

theorem mid_frame {w : Write} {mid : LocalNode} {sequence deviceSequence : UInt64}
    (h : w.action = none ∧ mid = afterContent P w node ∧ sequence = deviceSequence ∨
      ∃ action entry, w.action = some action ∧ node.nextUpdateLogEntry P action = .ok entry ∧
        mid = logged (afterContent P w node) entry ∧ sequence = entry.body.sequence) :
    ∃ updateLogs store, mid = { node with updateLogs, store } := by
  have hcontent : ∃ store, afterContent P w node = { node with store } := by
    unfold afterContent
    cases w.content <;> exact ⟨_, rfl⟩
  obtain ⟨store, hstore⟩ := hcontent
  rcases h with ⟨-, rfl, -⟩ | ⟨_, _, -, -, rfl, -⟩ <;> rw [hstore]
  · exact ⟨_, _, rfl⟩
  · exact ⟨_, _, rfl⟩

section

variable (path : String) (content : Option Bytes) (intent : Option RecordMutationIntent)

@[simp] theorem path_at : (Write.at P path content intent).path = path := by
  cases content <;> rfl

@[simp] theorem intent_at : (Write.at P path content intent).intent = intent := by
  cases content <;> rfl

end

variable {request : Request}

theorem plan_eq_inl {reply : Reply} (h : plan P node request = .ok (.inl reply)) :
    ∃ m r previous, request = .mutate m ∧ m.request node = .ok r ∧
      node.localRecordMutations[m.mutationId]? = some previous ∧
      m.replay P node r previous = .ok reply := by
  cases request with
  | publish data path => simp [plan] at h
  | append data path => simp [plan] at h
  | mutate m =>
    simp only [plan, bind_eq_ok] at h
    obtain ⟨r, hr, h⟩ := h
    cases hprevious : node.localRecordMutations[m.mutationId]? with
    | none => simp [hprevious] at h
    | some previous =>
      simp only [hprevious, bind_eq_ok, pure_eq_ok, Sum.inl.injEq] at h
      obtain ⟨answer, hanswer, rfl⟩ := h
      exact ⟨m, r, previous, rfl, hr, hprevious, hanswer⟩

theorem plan_eq_inr {w : Write} (h : plan P node request = .ok (.inr w)) :
    (∃ data path address, request = .publish data path ∧ node.addressOf path = .ok address ∧
      w = .at P address.path (some data) none) ∨
    (∃ data path address, request = .append data path ∧ node.addressOf path = .ok address ∧
      w = ⟨some data, none, address.path, .setPath address.path (.fromBytes P data) .append,
        none⟩) ∨
    ∃ m r, request = .mutate m ∧ m.request node = .ok r ∧
      node.localRecordMutations[m.mutationId]? = none ∧
      node.validateCurrentRecordRevisions P r.path r.requestedRevisions m.kind.required = .ok () ∧
      w = m.write P r := by
  cases request with
  | publish data path =>
    simp only [plan, bind_eq_ok, pure_eq_ok, Sum.inr.injEq] at h
    obtain ⟨address, haddress, rfl⟩ := h
    exact .inl ⟨data, path, address, rfl, haddress, rfl⟩
  | append data path =>
    simp only [plan, bind_eq_ok, pure_eq_ok, Sum.inr.injEq] at h
    obtain ⟨address, haddress, rfl⟩ := h
    exact .inr (.inl ⟨data, path, address, rfl, haddress, rfl⟩)
  | mutate m =>
    simp only [plan, bind_eq_ok] at h
    obtain ⟨r, hr, h⟩ := h
    cases hprevious : node.localRecordMutations[m.mutationId]? with
    | some previous => simp [hprevious] at h
    | none =>
      simp only [hprevious, bind_eq_ok, pure_eq_ok, Sum.inr.injEq] at h
      obtain ⟨u, hvalid, rfl⟩ := h
      exact .inr (.inr ⟨m, r, rfl, hr, hprevious, hvalid, rfl⟩)

/-- The request is answered from the table of mutations. -/
def Replayed (node : LocalNode) : Request → Prop
  | .mutate m => m.mutationId ∈ node.localRecordMutations
  | _ => False

instance (node : LocalNode) (request : Request) : Decidable (Replayed node request) :=
  match request with
  | .mutate m => inferInstanceAs (Decidable (m.mutationId ∈ node.localRecordMutations))
  | .publish _ _ => .isFalse id
  | .append _ _ => .isFalse id

theorem call_eq_ok_of_fresh {reply : Reply} (hfresh : ¬ Replayed node request)
    (h : call P outside request node = (.ok reply, node')) :
    ∃ w sequence revision, plan P node request = .ok (.inr w) ∧
      carryOut P outside w node = (.ok (sequence, revision), node') ∧
      reply = request.reply P node w sequence revision := by
  rw [call_apply] at h
  rcases hplan : plan P node request with e | answer | w
  · simp [hplan] at h
  · obtain ⟨m, r, previous, rfl, -, hprevious, -⟩ := plan_eq_inl hplan
    exact absurd (ExtTreeMap.mem_iff_isSome_getElem?.mpr (hprevious ▸ rfl)) hfresh
  simp only [hplan] at h
  rcases hcarry : carryOut P outside w node with ⟨e | ⟨sequence, revision⟩, last⟩
  · simp [hcarry, replied] at h
  simp only [hcarry, replied, Prod.mk.injEq, Except.ok.injEq] at h
  obtain ⟨rfl, rfl⟩ := h
  exact ⟨w, sequence, revision, rfl, hcarry, rfl⟩

/-! ### What every stage keeps -/

/-- **A relation that the stages of writing keep**, whether they succeed or fail. -/
structure Stagewise (P : Primitives) (R : LocalNode → LocalNode → Prop) : Prop where
  refl : ∀ node, R node node
  trans : ∀ {a b c}, R a b → R b c → R a c
  content : ∀ node publishedContent tornContent,
    R node (node.setStore { node.store with publishedContent, tornContent })
  entry : ∀ node action entry, node.nextUpdateLogEntry P action = .ok entry → R node
    (withEntry node entry)
  logged : ∀ node action entry, node.nextUpdateLogEntry P action = .ok entry → R node
    (logged node entry)
  publish : ∀ outside path operation mutation,
    Keeps R (publishLocalDeviceWriterOperation P outside path operation mutation)

namespace Stagewise

variable {R : LocalNode → LocalNode → Prop}

section

variable (h : Stagewise P R) (outside : Outside)
include h

theorem publishBytes (data : Bytes) : Keeps R (LocalNode.publishBytes P outside data) := by
  intro node
  rw [publishBytes_apply]
  cases outside.contentSaved with
  | error e =>
    obtain ⟨publishedContent, tornContent, hcut⟩ := withCut_eq P outside node data
    rw [hcut]
    exact h.content node publishedContent tornContent
  | ok u => exact h.content node _ _

theorem updateLog (action : UpdateAction) :
    Keeps R (publishLocalUpdateLogAction P outside action) := by
  intro node
  rw [publishLocalUpdateLogAction_apply]
  cases hentry : node.nextUpdateLogEntry P action with
  | error e => exact h.refl node
  | ok entry =>
    cases outside.updateLogSaved with
    | error e => exact h.entry node action entry hentry
    | ok u => exact h.logged node action entry hentry

theorem carryOut (w : Write) : Keeps R (Requests.carryOut P outside w) := by
  refine Keeps.bind h.trans ?_ fun _ => ?_
  · cases w.content with
    | none => exact keeps_pure h.refl ()
    | some data =>
      exact Keeps.bind h.trans (h.publishBytes outside data) fun _ => keeps_pure h.refl ()
  · cases w.action with
    | none => exact h.publish outside w.path w.operation w.intent
    | some action =>
      refine Keeps.bind h.trans (h.updateLog outside action) fun sequence => ?_
      refine Keeps.bind h.trans (h.publish outside w.path w.operation w.intent) fun a => ?_
      exact keeps_pure h.refl (sequence, a.2)

end

theorem of_replied {α β : Type} {f : α → β} {x : Except (Fault NetworkError) α × LocalNode}
    (h : R node x.2) : R node (replied f x).2 := by
  rwa [replied_snd]

theorem call (h : Stagewise P R) (outside : Outside) (request : Request) :
    Keeps R (Requests.call P outside request) := by
  intro node
  rw [call_apply]
  rcases plan P node request with e | reply | w
  · exact h.refl node
  · exact h.refl node
  · exact of_replied (h.carryOut outside w node)

theorem publishBytesAtPath (h : Stagewise P R) (outside : Outside) (data : Bytes) (path : String) :
    Keeps R (LocalNode.publishBytesAtPath P outside data path) := by
  intro node
  rw [publishBytesAtPath_apply]
  cases node.addressOf path with
  | error e => exact h.refl node
  | ok address => exact of_replied (h.carryOut outside _ node)

theorem authority (h : Stagewise P R) (toJson : List DeviceAuthorizationRecord → Bytes)
    (outside : Outside) (ambient : Ambient) (operation : DeviceAuthorizationOperation)
    (htake : ∀ node records, nextAuthorityRecords P node outside.createdAt operation = .ok records →
      let mid :=
        (LocalNode.publishBytesAtPath P outside (toJson records) identityAuthorityPath node).2
      R node mid → R node (takeOver P ambient node.identity records mid).2) :
    Keeps R (appendLocalDeviceAuthorityOperation P toJson outside ambient operation) := by
  intro node
  rw [appendLocalDeviceAuthorityOperation_apply]
  rcases hnext : nextAuthorityRecords P node outside.createdAt operation with e | records
  · exact h.refl node
  dsimp only
  have hmid := h.publishBytesAtPath outside (toJson records) identityAuthorityPath node
  have hafter := htake node records hnext hmid
  rcases hpublish : LocalNode.publishBytesAtPath P outside (toJson records) identityAuthorityPath
    node with ⟨e | result, mid⟩
  · rw [hpublish] at hmid
    exact hmid
  · rw [hpublish] at hafter
    dsimp only at hafter ⊢
    rcases htaken : takeOver P ambient node.identity records mid with ⟨e | u, node'⟩
    · rw [htaken] at hafter
      exact hafter
    · rw [htaken] at hafter
      exact hafter

end Stagewise

end Jolt.Publishing.Requests
