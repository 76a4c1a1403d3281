import Jolt.Publishing.Lives
import Jolt.Publishing.CompareAndSwap

/-! # Mutations that are sent again

A client that gets no answer to a mutation sends it again, under the same id. A mutation that has
been answered is in the table (`call_recorded`) and stays there (`held_lives`); so the node answers
it from the table, as it did before, and nothing changes. The table holds a mutation in a short
form, with one revision or a list of several; the revisions are those that were asked for
(`getObservedRevisions_recorded`), and so what is asked for another mutation is told from it. -/

namespace Jolt.Publishing.Replays

open Std Lib Checks Calls.Call Jolt.Core Jolt.Core.Types IdentityAuthority Network DeviceWriterCache
open Node hiding Event step run construct
open Store Writing LocalNode Outcomes Requests Publishing.Runs Lives
open CompareAndSwap (deletion noted)

variable {P : Primitives} {toJson : List DeviceAuthorizationRecord → Bytes}
  {peerIdOf : Bytes → Option PeerId} {keys : Keys} {node node' start : LocalNode}
  {outside : Outside} {m m' : Mutation} {r : RecordRequest} {reply : Reply}
  {v : PersistedRecordMutation}

/-! ### Recorded mutations -/

structure Matches (P : Primitives) (m : Mutation) (r : RecordRequest)
    (v : PersistedRecordMutation) :
    Prop where
  operation : v.getOperation = m.kind.operation
  path : v.path = r.path
  revisions : v.getObservedRevisions = r.requestedRevisions
  content : v.contentId = m.kind.content.map fun data => P.contentIdToString (.fromBytes P data)

/-- What an answer to a mutation says: the path, the content and the revision. -/
def outcome : Reply → Option (String × Option String × String)
  | .updated record => some (record.path, some record.contentId, record.revision)
  | .deleted record => some (record.path, none, record.revision)
  | _ => none

def recordedOutcome (v : PersistedRecordMutation) : Option (String × Option String × String) :=
  some (v.path, v.contentId, v.resultRevision)

theorem replay_eq_ok (hmatches : Matches P m r v) (hcontent : ∀ data, m.kind.content = some data →
      (node.store.getContent (P.contentIdToString (.fromBytes P data))).isSome = true) :
    ∃ reply, m.replay P node r v = .ok reply ∧ outcome reply = recordedOutcome v := by
  obtain ⟨kind, path, observedRevision, observedRevisions, mutationId⟩ := m
  obtain ⟨hoperation, hpath, hrevisions, hcontentId⟩ := hmatches
  have hwrite : ∀ operation data, v.getOperation = operation →
      v.contentId = some (P.contentIdToString (.fromBytes P data)) →
      (node.store.getContent (P.contentIdToString (.fromBytes P data))).isSome = true →
      ∃ record, node.replayRecordWrite P operation r data v = .ok record ∧
        outcome (.updated record) = recordedOutcome v := by
    intro operation data hop hid hstored
    obtain ⟨stored, hstored⟩ := Option.isSome_iff_exists.mp hstored
    refine ⟨⟨v.path, P.contentIdToString (.fromBytes P data), v.resultRevision, stored.data⟩, ?_,
      ?_⟩
    · simp [replayRecordWrite, hid, hop, hpath, hrevisions, hstored]
    · simp [outcome, recordedOutcome, hid]
  cases kind with
  | update data | restore data =>
    obtain ⟨record, hrecord, houtcome⟩ := hwrite _ data hoperation hcontentId (hcontent data rfl)
    refine ⟨.updated record, ?_, houtcome⟩
    simp [Mutation.replay, MutationKind.operation] at hrecord ⊢
    exact hrecord
  | delete =>
    have hnone : v.contentId = none := hcontentId
    have hop : v.getOperation = .delete := hoperation
    refine ⟨.deleted ⟨v.path, v.resultRevision⟩, ?_, ?_⟩
    · simp [Mutation.replay, replayRecordDelete, hop, hpath, hrevisions, hnone]
    · simp [outcome, recordedOutcome, hnone]

theorem matches_of_replay (h : m.replay P node r v = .ok reply) :
    Matches P m r v ∧ outcome reply = recordedOutcome v := by
  obtain ⟨kind, path, observedRevision, observedRevisions, mutationId⟩ := m
  have hwrite : ∀ operation data record, node.replayRecordWrite P operation r data v = .ok record →
      v.getOperation = operation ∧ v.path = r.path ∧ v.getObservedRevisions = r.requestedRevisions ∧
        v.contentId = some (P.contentIdToString (.fromBytes P data)) ∧
        outcome (.updated record) = recordedOutcome v := by
    intro operation data record hrecord
    simp only [replayRecordWrite, bind_eq_ok, okOr_eq_ok, ensure_eq_ok, pure_eq_ok] at hrecord
    obtain ⟨contentId, hid, -, ⟨hop, hpath, hrevisions, rfl⟩, stored, -, rfl⟩ := hrecord
    exact ⟨hop, hpath, hrevisions, hid, by simp [outcome, recordedOutcome, hid]⟩
  cases kind with
  | update data | restore data =>
    simp only [Mutation.replay, bind_eq_ok, pure_eq_ok] at h
    obtain ⟨record, hrecord, rfl⟩ := h
    obtain ⟨hop, hpath, hrevisions, hid, houtcome⟩ := hwrite _ data record hrecord
    exact ⟨⟨hop, hpath, hrevisions, hid⟩, houtcome⟩
  | delete =>
    simp only [Mutation.replay, replayRecordDelete, bind_eq_ok, ensure_eq_ok, pure_eq_ok] at h
    obtain ⟨record, ⟨-, ⟨hop, hpath, hrevisions, hid⟩, rfl⟩, rfl⟩ := h
    exact ⟨⟨hop, hpath, hrevisions, hid⟩, by simp [outcome, recordedOutcome, hid]⟩

/-- **The short form keeps the revisions that were asked for.** -/
theorem getObservedRevisions_recorded {revisions : List String} {last : String}
    (h : revisions.getLast? = some last) (hv : v.observedRevision = last)
    (hv' : v.observedRevisions = if 1 < revisions.length then revisions else []) :
    v.getObservedRevisions = revisions := by
  unfold PersistedRecordMutation.getObservedRevisions
  rw [hv, hv']
  by_cases hlength : 1 < revisions.length
  · have hne : revisions ≠ [] := List.ne_nil_of_length_pos (by omega)
    simp [hlength, hne]
  · -- one revision is its own last
    obtain ⟨x, rfl⟩ : ∃ x, revisions = [x] := by
      have hne : revisions ≠ [] := fun hnil => by simp [hnil] at h
      have hpos := List.length_pos_iff.mpr hne
      exact List.length_eq_one_iff.mp (by omega)
    simp at h
    simp [h]

/-- **A mutation that is answered is in the table**, with the answer. -/
theorem call_recorded (hr : m.request node = .ok r)
    (h : call P outside (.mutate m) node = (.ok reply, node')) :
    ∃ v, node'.localRecordMutations[m.mutationId]? = some v ∧ Matches P m r v ∧
      outcome reply = recordedOutcome v := by
  cases hprevious : node.localRecordMutations[m.mutationId]? with
  | some v =>
    simp only [call, mutate_apply, hr, hprevious, Prod.mk.injEq] at h
    obtain ⟨hreplay, rfl⟩ := h
    exact ⟨v, hprevious, matches_of_replay hreplay⟩
  | none =>
    have hfresh : ¬ Replayed node (.mutate m) := by
      show m.mutationId ∉ node.localRecordMutations
      rw [ExtTreeMap.mem_iff_isSome_getElem?, hprevious]
      simp
    obtain ⟨w, sequence, revision, hplan, hcarry, rfl⟩ := call_eq_ok_of_fresh hfresh h
    rcases plan_eq_inr hplan with ⟨_, _, _, hm, -⟩ | ⟨_, _, _, hm, -⟩ | ⟨_, r', hm, hr', -, -, rfl⟩
    · cases hm
    · cases hm
    cases hm
    obtain rfl : r = r' := Except.ok.inj (hr.symm.trans hr')
    obtain ⟨mid, deviceSequence, hmid, hpublish⟩ := carryOut_eq_ok hcarry
    obtain ⟨updateLogs, store, rfl⟩ := mid_frame hmid
    obtain ⟨e, record, stored, network', hp, -, -, rfl, rfl⟩ :=
      publishLocalDeviceWriterOperation_eq_ok hpublish
    obtain ⟨-, -, -, -, -, htable, -⟩ := prepareDeviceWriterOperation_eq_ok.mp hp
    simp only [recordMutation, Mutation.write, intent_at, path_at, bind_eq_ok, okOr_eq_ok,
      pure_eq_ok] at htable
    obtain ⟨last, hlast, htable⟩ := htable
    refine ⟨_, by rw [published, ← htable, ExtTreeMap.getElem?_insert_self],
      ⟨rfl, rfl, getObservedRevisions_recorded hlast rfl rfl, ?_⟩, ?_⟩
    · cases m.kind <;> rfl
    · cases hkind : m.kind <;>
        simp [Request.reply, hkind, MutationKind.content, outcome, recordedOutcome, Mutation.write]

/-! ### Sent again -/

theorem request_unique {r' : RecordRequest} (h : Matches P m r v) (h' : Matches P m' r' v) :
    r = r' := by
  obtain ⟨path, revisions⟩ := r
  obtain ⟨path', revisions'⟩ := r'
  obtain rfl : path = path' := h.path.symm.trans h'.path
  obtain rfl : revisions = revisions' := h.revisions.symm.trans h'.revisions
  rfl

theorem kind_unique {r' : RecordRequest}
    (hfree : ∀ data data', m.kind.content = some data → m'.kind.content = some data' →
      ContentId.fromBytes P data = .fromBytes P data' → data = data')
    (h : Matches P m r v) (h' : Matches P m' r' v) : m'.kind = m.kind := by
  have hop : m'.kind.operation = m.kind.operation := h'.operation.symm.trans h.operation
  have hcontent := h.content.symm.trans h'.content
  have hdata : ∀ data data', m.kind.content = some data → m'.kind.content = some data' →
    data = data' := by
    intro data data' hm hm'
    rw [hm, hm'] at hcontent
    exact hfree data data' hm hm' (P.contentIdText.text_injective (Option.some.inj hcontent))
  cases hm : m.kind <;> cases hm' : m'.kind <;> simp_all [MutationKind.operation,
    MutationKind.content]

theorem call_of_recorded_ne (hv : node.localRecordMutations[m.mutationId]? = some v)
    (hne : ∀ r, m.request node = .ok r → ¬ Matches P m r v) :
    ∃ e, call P outside (.mutate m) node = (.error e, node) := by
  simp only [call, mutate_apply]
  cases hr : m.request node with
  | error e => exact ⟨e, rfl⟩
  | ok r =>
    simp only [hv]
    cases hreplay : m.replay P node r v with
    | error e => exact ⟨e, rfl⟩
    | ok reply => exact absurd (matches_of_replay hreplay).1 (hne r hr)

theorem request_eq (h : node'.identity = node.identity) : m.request node' = m.request node := by
  unfold Mutation.request recordRequest addressOf
  rw [h]

/-- **Mutations are carried out once for each id.** A mutation that has been answered is answered in
the same way whenever it is sent again, if its content is still there, and another mutation under
its id is refused. Neither changes anything. The digest is only asked to tell the contents of the
two mutations apart. -/
theorem mutation_ids_idempotent {boot : Boot} {store : ContentStore} {later : LocalNode}
    (hstart : construct P keys boot store = (.ok (), start))
    (hnode : Becomes P toJson peerIdOf keys start node true)
    (h : call P outside (.mutate m) node = (.ok reply, node'))
    (hlater : Becomes P toJson peerIdOf keys node' later true) (m' : Mutation)
    (hid : m'.mutationId = m.mutationId) (outside' : Outside) :
    (m'.kind = m.kind → m'.request node = m.request node →
      (∀ data, m.kind.content = some data →
        (later.store.getContent (P.contentIdToString (.fromBytes P data))).isSome = true) →
      ∃ reply', call P outside' (.mutate m') later = (.ok reply', later) ∧
        outcome reply' = outcome reply) ∧
    ((m'.kind ≠ m.kind ∨ m'.request node ≠ m.request node) →
      (∀ data data', m.kind.content = some data → m'.kind.content = some data' →
        ContentId.fromBytes P data = .fromBytes P data' → data = data') →
      ∃ e, call P outside' (.mutate m') later = (.error e, later)) := by
  obtain ⟨r, hr⟩ : ∃ r, m.request node = .ok r := by
    simp only [call, mutate_apply] at h
    cases hr : m.request node with
    | error e => simp [hr] at h
    | ok r => exact ⟨r, rfl⟩
  obtain ⟨v, hv, hmatches, houtcome⟩ := call_recorded hr h
  have hdurable : Durable node' := by
    have hkept := (@tableKept_call P node outside (.mutate m)).durable
      (durable_lives (durable_construct hstart) hnode)
    rwa [h] at hkept
  have hheld : later.localRecordMutations[m'.mutationId]? = some v := by
    rw [hid]
    exact held_lives hdurable hv hlater
  have hself : later.identity = node.identity := by
    have hnode := identity_lives (identity_construct hstart) hnode
    have hcall := stagewise_sameSelf.call (P := P) outside (.mutate m) node
    rw [h] at hcall
    rw [identity_lives (hcall.identity.trans hnode) hlater, hnode]
  have hrequest' : m'.request later = m'.request node := request_eq hself
  constructor
  · intro hkind hrequest hcontent
    have hmatches' : Matches P m' r v := by
      obtain ⟨hop, hpath, hrevisions, hcontentId⟩ := hmatches
      exact ⟨hkind ▸ hop, hpath, hrevisions, hkind ▸ hcontentId⟩
    obtain ⟨reply', hreply', houtcome'⟩ := replay_eq_ok hmatches' (hkind ▸ hcontent)
    refine ⟨reply', ?_, houtcome'.trans houtcome.symm⟩
    simp only [call, mutate_apply, hrequest', hrequest, hr, hheld, hreply']
  · intro hdiffers hfree
    refine call_of_recorded_ne hheld fun r' hr' hmatches' => ?_
    obtain rfl : r = r' := request_unique hmatches hmatches'
    have hkind : m'.kind = m.kind := kind_unique hfree hmatches hmatches'
    obtain hne | hne := hdiffers
    · exact hne hkind
    · exact hne (hrequest'.symm.trans (hr'.trans hr.symm))

/-! ### A deletion that is sent again -/

/-- The node after the deletion of a note. -/
def deleted : Except (Fault NetworkError) Reply × LocalNode :=
  call SampleNode.primitives default (.mutate (deletion "first")) noted

def restarted : Except (Fault NetworkError) Unit × LocalNode :=
  construct SampleNode.primitives SampleNode.keys default deleted.2.store

theorem deleted_and_restarted : deleted.1.isOk = true ∧ restarted.1.isOk = true := by decide +kernel

theorem deletion_sent_again : ∃ reply, deleted.1 = .ok reply ∧
      (∃ reply', call SampleNode.primitives default (.mutate (deletion "first")) restarted.2 =
        (.ok reply', restarted.2) ∧ outcome reply' = outcome reply) ∧
      ∃ e, call SampleNode.primitives default
        (.mutate { deletion "first" with kind := .update [1] })
        restarted.2 = (.error e, restarted.2) := by
  obtain ⟨hdeleted, hrestarted⟩ := deleted_and_restarted
  obtain ⟨reply, node', h⟩ := exists_of_isOk hdeleted
  obtain rfl : deleted.2 = node' := congrArg Prod.snd h
  have hnode : Becomes SampleNode.primitives (fun _ => []) SampleNode.peerIdOf SampleNode.keys
      SampleNode.node noted true := becomes_run .start CompareAndSwap.received
  have hlater : Becomes SampleNode.primitives (fun _ => []) SampleNode.peerIdOf SampleNode.keys
      deleted.2 restarted.2 restarted.1.isOk := .restart default .start
  rw [hrestarted] at hlater
  have hagain := fun m' => mutation_ids_idempotent SampleNode.construct_eq hnode h hlater m'
  exact ⟨reply, congrArg Prod.fst h, (hagain (deletion "first") rfl default).1 rfl rfl nofun,
    (hagain { deletion "first" with kind := .update [1] } rfl default).2 (.inl (by decide)) nofun⟩

end Jolt.Publishing.Replays
