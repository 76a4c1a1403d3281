import Jolt.Publishing.CompareAndSwap

/-! # Writes that fail

A write goes through several stages, and each keeps what the stages before it have done. One that
fails before the update log gets its entry leaves everything but content as it was, unless the write
of its content cuts off content that was published before. One that fails later, because a log is
not saved, the local device is revoked or its history diverged, leaves the entry in the update log,
which is served to others, though the record was not written (`failed_write_iff`). -/

namespace Jolt.Publishing.FailedWrites

open Std Jolt.Core Jolt.Core.Types DeviceWriterLog UpdateLog Network.DeviceWriterCache Writing
  LocalNode Outcomes Requests Publishing.Alignment

variable {P : Primitives} {node node' : LocalNode} {outside : Outside} {path : String}
  {operation : DeviceWriterOperation} {mutation : Option RecordMutationIntent}
  {e : Fault NetworkError} {w : Write}

/-! ### What a failed stage leaves alone -/

section

variable (h : publishLocalDeviceWriterOperation P outside path operation mutation node =
  (.error e, node'))
include h

/-- An operation that fails leaves the log of the device, the states and what is known in memory;
the record of the device may be saved, and the identity be blocked. -/
theorem publish_error_frame : ∃ network store, node' = { node with network, store } ∧
      (network = node.network ∨ network = node.network.setBlocked node.network.identity true) ∧
      store.updateLog = node.store.updateLog := by
  obtain ⟨e, hout⟩ | ⟨entry, rec, network, -, ⟨e, hn, hout⟩ | ⟨stored, -, hout⟩⟩ :=
    publish_cases P outside path operation mutation node <;> rw [hout] at h
  · exact ⟨_, _, (Prod.mk.inj h).2.symm, .inl rfl, rfl⟩
  · exact ⟨network, _, (Prod.mk.inj h).2.symm, storeVerified_eq_error hn, rfl⟩
  · cases h

theorem unchanged_of_publish_error : node'.localLog = node.localLog ∧ node'.state = node.state := by
  obtain ⟨network, store, rfl, hnetwork, -⟩ := publish_error_frame h
  rcases hnetwork with rfl | rfl <;> exact ⟨rfl, rfl⟩

theorem updateLog_of_publish_error : node'.updateLog = node.updateLog := by
  obtain ⟨network, store, rfl, hnetwork, -⟩ := publish_error_frame h
  rcases hnetwork with rfl | rfl <;> rfl

end

theorem afterContent_eq (P : Primitives) (node : LocalNode) (w : Write) :
    ∃ publishedContent tornContent,
      afterContent P w node =
        { node with store := { node.store with publishedContent, tornContent } } ∧
      ∀ contentId, contentId ∈ node.store.publishedContent → contentId ∈ publishedContent := by
  unfold afterContent
  cases w.content with
  | none => exact ⟨_, _, rfl, fun _ h => h⟩
  | some data => exact ⟨_, _, rfl, fun _ h => ExtTreeMap.mem_insert.mpr (.inr h)⟩

theorem updateLog_logged (node : LocalNode) (entry : UpdateLogEntry) :
    (logged node entry).updateLog = some (extendedLog node entry) :=
  updateLog_withEntry node entry

/-- **How a write fails**: before its entry of the update log, with at most content added, or with
the entry in the update log or none asked for. -/
theorem carryOut_error (h : carryOut P outside w node = (.error e, node')) :
    ((∃ error, w.content.elim (.ok ()) (fun _ => outside.contentSaved) = .error error) ∧
      node' = afterCut P outside w node) ∨
    (w.content.elim (.ok ()) (fun _ => outside.contentSaved) = .ok () ∧
      (∃ action error, w.action = some action ∧ node.nextUpdateLogEntry P action = .error error) ∧
      node' = afterContent P w node) ∨
    (w.content.elim (.ok ()) (fun _ => outside.contentSaved) = .ok () ∧
      node'.localLog = node.localLog ∧ node'.state = node.state ∧
      ∀ action, w.action = some action → ∃ entry, node.nextUpdateLogEntry P action = .ok entry ∧
        node'.updateLog = some (extendedLog node entry)) := by
  obtain ⟨publishedContent, tornContent, hcontent, -⟩ := afterContent_eq P node w
  rw [carryOut_apply] at h
  rcases hsaved : w.content.elim (.ok ()) fun _ => outside.contentSaved with error | u
  · simp only [hsaved, Prod.mk.injEq] at h
    exact .inl ⟨⟨error, hsaved⟩, h.2.symm⟩
  refine .inr ?_
  simp only [hsaved] at h
  cases haction : w.action with
  | none =>
    simp only [haction, hcontent] at h
    obtain ⟨hlog, hstate⟩ := unchanged_of_publish_error h
    exact .inr ⟨hsaved, hlog, hstate, by simp⟩
  | some action =>
    simp only [haction] at h
    rcases hentry : node.nextUpdateLogEntry P action with error | entry
    · simp only [hentry, Prod.mk.injEq] at h
      exact .inl ⟨hsaved, ⟨action, error, rfl, hentry⟩, h.2.symm⟩
    refine .inr ⟨hsaved, ?_⟩
    rcases hlog : outside.updateLogSaved with error | u
    · simp only [hentry, hlog, hcontent, Prod.mk.injEq] at h
      obtain ⟨-, rfl⟩ := h
      refine ⟨rfl, rfl, ?_⟩
      rintro _ ⟨⟩
      exact ⟨entry, hentry, updateLog_withEntry _ entry⟩
    simp only [hentry, hlog, hcontent] at h
    generalize hpublish : publishLocalDeviceWriterOperation P outside w.path w.operation w.intent
      _ = result at h
    obtain ⟨error | done, last⟩ := result
    · simp only [replied, Prod.mk.injEq] at h
      obtain ⟨-, rfl⟩ := h
      obtain ⟨hlocal, hstate⟩ := unchanged_of_publish_error hpublish
      refine ⟨hlocal, hstate, ?_⟩
      rintro _ ⟨⟩
      exact ⟨entry, hentry, (updateLog_of_publish_error hpublish).trans (updateLog_logged _ entry)⟩
    · simp [replied] at h

theorem unchanged_of_carryOut_error (h : carryOut P outside w node = (.error e, node')) :
    node'.localLog = node.localLog ∧ node'.state = node.state := by
  rcases carryOut_error h with ⟨-, rfl⟩ | ⟨-, -, rfl⟩ | ⟨-, hlog, hstate, -⟩
  · obtain ⟨_, _, hcut⟩ := afterCut_eq P outside node w
    rw [hcut]
    exact ⟨rfl, rfl⟩
  · obtain ⟨_, _, hcontent, -⟩ := afterContent_eq P node w
    rw [hcontent]
    exact ⟨rfl, rfl⟩
  · exact ⟨hlog, hstate⟩

/-! ### Failed requests -/

/-- From `a` to `b` the identity's logs, its merged state and the table of mutations are the same,
in memory and on disk, and content was at most added. -/
structure OnlyContentAdded (a b : LocalNode) : Prop where
  updateLog : b.updateLog = a.updateLog
  localLog : b.localLog = a.localLog
  state : b.state = a.state
  mutations : b.localRecordMutations = a.localRecordMutations
  savedUpdateLog : b.store.updateLog = a.store.updateLog
  savedRecord : b.store.deviceWriterLog = a.store.deviceWriterLog
  content : ∀ contentId, contentId ∈ a.store.publishedContent → contentId ∈ b.store.publishedContent

theorem onlyContentAdded_refl (node : LocalNode) : OnlyContentAdded node node :=
  ⟨rfl, rfl, rfl, rfl, rfl, rfl, fun _ h => h⟩

theorem onlyContentAdded_afterContent (w : Write) :
    OnlyContentAdded node (afterContent P w node) := by
  obtain ⟨_, _, hcontent, hkept⟩ := afterContent_eq P node w
  rw [hcontent]
  exact ⟨rfl, rfl, rfl, rfl, rfl, rfl, hkept⟩

/-- The write of the content, which fails, has cut off content that was published before. -/
def CutsOff (P : Primitives) (outside : Outside) (node : LocalNode) (data : Bytes) : Prop :=
  outside.contentCut.isSome = true ∧
    P.contentIdToString (.fromBytes P data) ∈ node.store.publishedContent

theorem onlyContentAdded_withCut_iff (data : Bytes) :
    OnlyContentAdded node (withCut P outside node data) ↔ ¬ CutsOff P outside node data := by
  unfold CutsOff withCut Store.ContentStore.cutOff
  cases outside.contentCut with
  | none => exact iff_of_true (onlyContentAdded_refl node) (by simp)
  | some n =>
    constructor
    · rintro hadded ⟨-, hmem⟩
      obtain ⟨entry, hentry⟩ :=
        Option.isSome_iff_exists.mp (ExtTreeMap.mem_iff_isSome_getElem?.mp hmem)
      have hlost := hadded.content _ hmem
      simp [hentry, setStore] at hlost
    · intro hnew
      have habsent : P.contentIdToString (.fromBytes P data) ∉ node.store.publishedContent :=
        fun hmem => hnew ⟨rfl, hmem⟩
      split
      · refine ⟨rfl, rfl, rfl, rfl, rfl, rfl, fun contentId hmem => ?_⟩
        refine ExtTreeMap.mem_erase.mpr ⟨fun heq => habsent ?_, hmem⟩
        rwa [LawfulEqCmp.eq_of_compare heq]
      · exact onlyContentAdded_refl node

/-- The request is refused by its checks, or its content is not saved and nothing is cut off, or the
update log can take no entry of its action. -/
def RefusedBeforeLog (P : Primitives) (outside : Outside) (node : LocalNode)
    (request : Request) : Prop :=
  match plan P node request with
  | .error _ => True
  | .ok (.inl _) => False
  | .ok (.inr w) =>
    if (w.content.elim (.ok ()) fun _ => outside.contentSaved).isOk then
      ∃ action, w.action = some action ∧ (node.nextUpdateLogEntry P action).isOk = false
    else ∀ data ∈ w.content, ¬ CutsOff P outside node data

theorem action_of_plan {request : Request} (h : ∀ data path, request ≠ .append data path)
    (hplan : plan P node request = .ok (.inr w)) : ∃ action, w.action = some action := by
  have hat : ∀ path content intent, ∃ action, (Write.at P path content intent).action =
    some action := by
    intro path content intent
    cases content <;> exact ⟨_, rfl⟩
  rcases plan_eq_inr hplan with ⟨_, _, _, -, -, rfl⟩ | ⟨data, path, _, rfl, -⟩ | ⟨_, _,
    -, -, -, -, rfl⟩
  · exact hat _ _ _
  · exact absurd rfl (h data path)
  · exact hat _ _ _

theorem extendedLog_ne (entry : UpdateLogEntry) :
    some (extendedLog node entry) ≠ node.updateLog := by
  unfold extendedLog
  cases node.updateLog with
  | none => exact nofun
  | some entries => simp

/-- **A failed publish or mutation only adds content exactly if it fails before the update log gets
its entry and cuts no content off.** -/
theorem failed_write_iff {request : Request} {e : Fault NetworkError}
    (hrequest : ∀ data path, request ≠ .append data path)
    (h : call P outside request node = (.error e, node')) :
    OnlyContentAdded node node' ↔ RefusedBeforeLog P outside node request := by
  unfold RefusedBeforeLog
  rw [call_apply] at h
  rcases hplan : plan P node request with error | reply | w
  · simp only [hplan, Prod.mk.injEq] at h
    exact iff_of_true (h.2 ▸ onlyContentAdded_refl node) trivial
  · simp [hplan] at h
  simp only [hplan] at h ⊢
  obtain ⟨action, haction⟩ := action_of_plan hrequest hplan
  rcases hcarry : carryOut P outside w node with ⟨error | a, last⟩
  swap
  · simp [hcarry, replied] at h
  simp only [hcarry, replied, Prod.mk.injEq] at h
  obtain ⟨-, rfl⟩ := h
  rcases carryOut_error hcarry with ⟨⟨fault, hfault⟩, rfl⟩ |
    ⟨hsaved, ⟨_, fault, haction', hfault⟩, rfl⟩ | ⟨hsaved, -, -, hlog⟩
  · -- the content was not saved
    cases hcontent : w.content with
    | none => simp [hcontent] at hfault
    | some data =>
      simp only [hcontent, Option.elim_some] at hfault ⊢
      have hcut : afterCut P outside w node = withCut P outside node data := by
        rw [afterCut, hcontent]
      rw [hfault, hcut, onlyContentAdded_withCut_iff]
      simp [Except.isOk, Except.toBool]
  · -- the update log takes no entry
    rw [if_pos (by rw [hsaved]; rfl)]
    exact iff_of_true (onlyContentAdded_afterContent w) ⟨_, haction', by rw [hfault]; rfl⟩
  · -- the update log has the entry
    obtain ⟨entry, hentry, hlogged⟩ := hlog action haction
    rw [if_pos (by rw [hsaved]; rfl)]
    refine iff_of_false (fun hsame => ?_) ?_
    · exact extendedLog_ne entry (hlogged.symm.trans hsame.updateLog)
    · rintro ⟨_, hother, hrefused⟩
      cases haction.symm.trans hother
      rw [hentry] at hrefused
      cases hrefused

theorem call_of_plan_error {request : Request} (h : plan P node request = .error e) :
    call P outside request node = (.error e, node) := by rw [call_apply, h]

/-- A deletion of a record that does not exist changes nothing. -/
theorem refused_deletion_changes_nothing :
    ∃ e, call SampleNode.primitives default
      (.mutate (CompareAndSwap.deletion "a")) SampleNode.node =
        (.error e, SampleNode.node) ∧
      OnlyContentAdded SampleNode.node SampleNode.node := by
  have hfails : (plan SampleNode.primitives SampleNode.node
      (.mutate (CompareAndSwap.deletion "a"))).isOk = false := by
    decide +kernel
  rcases hplan : plan SampleNode.primitives SampleNode.node
    (.mutate (CompareAndSwap.deletion "a")) with e | a
  · have hcall := @call_of_plan_error _ _ default _ _ hplan
    refine ⟨e, hcall, (failed_write_iff (fun _ _ happend => by cases happend) hcall).mpr ?_⟩
    unfold RefusedBeforeLog
    rw [hplan]
    trivial
  · rw [hplan] at hfails
    cases hfails

/-- A publish while the disk takes no device-writer record. -/
def unsavedPublish : Except (Fault NetworkError) Reply × LocalNode :=
  call SampleNode.primitives { (default : Outside) with network := SampleNode.diskFull }
    (.publish [1] "/note") SampleNode.node

/-- It fails, and its entry is in the update log, in memory and on disk. -/
theorem failed_publish_logged : unsavedPublish.1.isOk = false ∧
    ¬ OnlyContentAdded SampleNode.node unsavedPublish.2 ∧
      unsavedPublish.2.updateLog.map List.length = some 1 ∧
      unsavedPublish.2.store.updateLog.map List.length = some 1 := by
  have hlength : unsavedPublish.2.updateLog.map List.length = some 1 := by decide +kernel
  have hnone : SampleNode.node.updateLog = none := by decide +kernel
  refine ⟨by decide +kernel, fun hsame => ?_, hlength, by decide +kernel⟩
  rw [hsame.updateLog, hnone] at hlength
  cases hlength

end Jolt.Publishing.FailedWrites
