import Jolt.Publishing.RecordHeads
import Jolt.Publishing.SampleNode

/-! # Reading one's own writes

On a node whose copies are in line, a write that returns is visible in the merged state: what is
written at a path alone wins there, and what is appended is among the records of the path
(`shown_of_inLine`). So it is after every run whose synced states are saved
(`run_reads_own_writes`).

A sync whose state is not saved takes this away: the chain of the cached state is then newer than
the one the node publishes by, and a device that the newer one revokes writes entries that are not
accepted (`unsaved_sync_hides_writes`). -/

namespace Jolt.Publishing.Visibility

open Std Lib Calls.Call Jolt.Core Jolt.Core.Types IdentityAuthority DeviceWriterLog UpdateLog
  Merge.Spec Merge.Causality Network DeviceWriterCache
open Node hiding Event step run construct
open Store Writing LocalNode Outcomes Requests Publishing.Alignment Publishing.Runs AlignedRuns
  RecordHeads
open SampleNode (diskFull offer primitives revoked withPhone)

variable {P : Primitives} {toJson : List DeviceAuthorizationRecord → Bytes}
  {peerIdOf : Bytes → Option PeerId} {node node' : LocalNode} {st : CachedDeviceWriterState}
  {outside : Outside} (path : String) (content : Option Bytes)
  (intent : Option RecordMutationIntent)

/-! ### What is visible -/

/-- The entry with the revision wins at the path, in the given state and without conflicts. -/
def WinsAlone (node : LocalNode) (path revision : String) (state : DeviceWriterPathState) : Prop :=
  ∃ st winner, node.state = some st ∧ st.merged.singletonPaths[path]? = some winner ∧
    winner.entryHash.toHex = revision ∧ winner.state = state ∧
    st.merged.singletonConflicts[path]? = none

/-- The last entry of the local device is among the append records of the path. -/
def Appended (P : Primitives) (node : LocalNode) (path : String) (contentId : ContentId)
    (deviceSequence : UInt64) : Prop :=
  ∃ st rows record, node.state = some st ∧ st.merged.appendRecords[path]? = some rows ∧
    record ∈ rows ∧ record.deviceId = node.localDeviceId ∧
    record.deviceSequence = deviceSequence ∧ record.contentId = contentId ∧
    node.localLog.getLast?.map (·.entryHash P) = some record.entryHash

/-- What a reply says is visible on the node. -/
def Shown (P : Primitives) (node : LocalNode) : Reply → Prop
  | .published contentId address _ revision =>
    WinsAlone node address.path revision (.present contentId)
  | .appended contentId address deviceSequence =>
    Appended P node address.path contentId deviceSequence
  | .updated record => ∃ contentId, record.contentId = P.contentIdToString contentId ∧
      WinsAlone node record.path record.revision (.present contentId)
  | .deleted record => WinsAlone node record.path record.revision .tombstone

/-! ### Writes on a node in line -/

def stateOf (P : Primitives) : Option Bytes → DeviceWriterPathState
  | some data => .present (.fromBytes P data)
  | none => .tombstone

theorem singletonAt_write : singletonAt path (Write.at P path content intent).operation =
    some (stateOf P content) := by
  cases content <;> simp [Write.at, singletonAt, stateOf]

theorem operation_write : (Write.at P path content intent).operation = .tombstonePath path ∨
      ∃ contentId, (Write.at P path content intent).operation = .setPath path contentId
        .singleton := by
  cases content with
  | none => exact .inl rfl
  | some data => exact .inr ⟨_, rfl⟩

theorem observedHeadsOf_mid (updateLogs : IdentityId → Option (List UpdateLogEntry))
    (store : ContentStore) :
    LocalNode.observedHeadsOf P { node with updateLogs, store } = node.observedHeadsOf P := by
  funext iteration operation mutation
  cases mutation <;> rfl

/-- **A singleton write that observes the heads of its path wins there alone.** -/
theorem winsAlone_of_carryOut (ha : Aligned P node st) {path : String} {content : Option Bytes}
    {intent : Option RecordMutationIntent} {sequence : UInt64} {revision : String}
    (hobserves : ∀ observed, node.observedHeadsOf P outside.network.iteration
        (Write.at P path content intent).operation intent = .ok observed →
      ∀ hash ∈ recordHeads st path, hash ∈ observed)
    (h : carryOut P outside (.at P path content intent) node = (.ok (sequence, revision), node')) :
    WinsAlone node' path revision (stateOf P content) := by
  obtain ⟨mid, deviceSequence, hmid, hpublish⟩ := carryOut_eq_ok h
  obtain ⟨updateLogs, store, rfl⟩ := mid_frame hmid
  have hmidAligned : Aligned P { node with updateLogs, store } st := aligned_of_network ha rfl rfl
  obtain ⟨e, observed, record, network', st', -, hobserved, rfl, hid, -, -, rfl, hw⟩ :=
    publish_eq_ok hmidAligned hpublish
  rw [observedHeadsOf_mid, intent_at] at hobserved
  have hcovered : ∀ c, Reported st.merged path c → c.entryHash ∈ observed := fun c hc =>
    hobserves observed hobserved _ (mem_recordHeads hc)
  obtain ⟨hwinner, hconflicts⟩ := hw.heads_eq hmidAligned (singletonAt_write path content intent)
    hcovered hid
  exact ⟨st', _, hw.aligned.state, hwinner, rfl, rfl, hconflicts⟩

theorem appended_of_carryOut (ha : Aligned P node st) {path : String} {data : Bytes}
    {sequence : UInt64} {revision : String}
    (h : carryOut P outside ⟨some data, none, path, .setPath path (.fromBytes P data) .append, none⟩
      node = (.ok (sequence, revision), node')) :
        Appended P node' path (.fromBytes P data) sequence := by
  obtain ⟨mid, deviceSequence, hmid, hpublish⟩ := carryOut_eq_ok h
  obtain ⟨updateLogs, store, rfl⟩ := mid_frame hmid
  have hsequence : sequence = deviceSequence := by
    rcases hmid with ⟨-, -, h⟩ | ⟨_, _, h, -⟩
    · exact h
    · cases h
  have hmidAligned : Aligned P { node with updateLogs, store } st := aligned_of_network ha rfl rfl
  obtain ⟨e, observed, record, network', st', -, hobserved, rfl, hid, hdevice, rfl, rfl, hw⟩ :=
    publish_eq_ok hmidAligned hpublish
  have hop : appendAt path (.setPath path (.fromBytes P data) .append) =
    some (ContentId.fromBytes P data) := by
    simp [appendAt]
  obtain ⟨rows, hrows, hmem⟩ := hw.mem_appendRecords hop hid
  refine ⟨st', rows, _, hw.aligned.state, hrows, hmem, ?_, hsequence.symm, rfl, ?_⟩
  · exact hw.next.deviceId.trans hdevice.symm
  · rw [hw.log, List.getLast?_concat]
    rfl

/-- **On a node in line, what is written is visible.** -/
theorem shown_of_inLine (ha : InLine P node) {request : Request} {reply : Reply}
    (hfresh : ¬ Replayed node request) (h : call P outside request node = (.ok reply, node')) :
    Shown P node' reply := by
  obtain ⟨st, hst⟩ := ha
  obtain ⟨w, sequence, revision, hplan, hcarry, rfl⟩ := call_eq_ok_of_fresh hfresh h
  rcases plan_eq_inr hplan with ⟨data, path, address, rfl, -, rfl⟩ | ⟨data, path, address,
    rfl, -, rfl⟩ |
    ⟨m, r, rfl, -, -, hvalid, rfl⟩
  · refine winsAlone_of_carryOut hst (fun observed hobserved hash hhash => ?_) hcarry
    cases hobserved
    exact (mem_currentSingletonHeads hst.state (operation_write _ _ _)).mpr hhash
  · exact appended_of_carryOut hst hcarry
  · have hwins := winsAlone_of_carryOut hst (fun observed hobserved hash hhash => ?_) hcarry
    · show Shown P node' (Request.reply P node (m.write P r) sequence revision (.mutate m))
      unfold Request.reply Mutation.write
      rw [path_at]
      dsimp only
      cases hcontent : m.kind.content with
      | none =>
        rw [hcontent] at hwins
        exact hwins
      | some data =>
        rw [hcontent] at hwins
        exact ⟨_, rfl, hwins⟩
    · rw [observed_eq_recordHeads hst.state hvalid hobserved]
      exact hhash

/-! ### Over every run -/

/-- **A node reads its own writes**: after every run from its construction on in which the states
that syncs bring for its identity are saved, whatever a request writes is visible when it
returns. -/
theorem run_reads_own_writes {keys : Keys} {boot : Boot} {store : ContentStore}
    (hapart : Apart (keys.localDeviceId P) store)
    (hstart : construct P keys boot store = (.ok (), node)) {events : List Event}
    (hsaved : ∀ event ∈ events, Saved node.identity event) {request : Request} {reply : Reply}
    (hfresh : ¬ Replayed (run P toJson peerIdOf node events) request)
    (h : call P outside request (run P toJson peerIdOf node events) = (.ok reply, node')) :
    Shown P node' reply :=
  shown_of_inLine (inLine_run (inLine_construct hapart hstart) hsaved) hfresh h

/-- The phone is authorized by a sync, and then the node writes a note. -/
theorem run_reads_own_writes_note : ∃ reply node', call primitives default (.publish [1] "/note")
        (run primitives (fun _ => []) SampleNode.peerIdOf SampleNode.node
          [.offer default "phone" (offer withPhone [])]) = (.ok reply, node') ∧
      Shown primitives node' reply := by
  obtain ⟨reply, node', h⟩ : ∃ reply node', call primitives default (.publish [1] "/note")
        (run primitives (fun _ => []) SampleNode.peerIdOf SampleNode.node
          [.offer default "phone" (offer withPhone [])]) = (.ok reply, node') :=
    exists_of_isOk (by decide +kernel)
  refine ⟨reply, node', h, run_reads_own_writes (SampleNode.apart_empty _) SampleNode.construct_eq
    ?_ id h⟩
  intro event hevent
  rw [List.mem_singleton.mp hevent]
  exact fun _ => rfl

/-- **A sync that is not saved hides the writes after it.** The phone brings a chain that revokes
the device of the node, and the disk is full. The node goes on by the chain it had, so that
publishing returns a revision; the merged state goes by the new one and has nothing at the path. -/
theorem unsaved_sync_hides_writes : ∃ reply node', call primitives default (.publish [1] "/note")
        (run primitives (fun _ => []) SampleNode.peerIdOf SampleNode.node
          [.offer diskFull "phone" (offer revoked [])]) = (.ok reply, node') ∧
      ¬ Shown primitives node' reply := by
  have hrun : (fun result : Except (Fault NetworkError) Reply × LocalNode =>
      (result.1.toOption.bind fun
          | .published _ address _ _ => some address.path
          | _ => none,
        result.2.state.map fun st => st.merged.singletonPaths["/note"]?))
      (call primitives default (.publish [1] "/note")
        (run primitives (fun _ => []) SampleNode.peerIdOf SampleNode.node
          [.offer diskFull "phone" (offer revoked [])])) =
      (some "/note", some none) := by
    decide +kernel
  generalize call primitives default (.publish [1] "/note") _ = result at hrun ⊢
  obtain ⟨e | reply, node'⟩ := result
  · cases congrArg Prod.fst hrun
  refine ⟨reply, node', rfl, fun hshown => ?_⟩
  obtain ⟨hpath, hnone⟩ := Prod.mk.inj hrun
  cases reply with
  | published contentId address sequence revision =>
    obtain ⟨st, winner, hstate, hwinner, -⟩ := hshown
    rw [Option.some.inj hpath] at hwinner
    rw [hstate] at hnone
    cases hwinner.symm.trans (Option.some.inj hnone)
  | _ => cases hpath

end Jolt.Publishing.Visibility
