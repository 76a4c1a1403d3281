import Jolt.Publishing.Visibility
import Jolt.Publishing.NamedRuns

/-! # Mutations replace the heads they name

A mutation that is carried out names exactly the heads of its path at that moment, and its entry
observes exactly them (`mutation_swaps`), on every node. It replaces them for good as long as the
device of the node stays in the chain: the entry stays in the local log, which only grows
(`stepwise_logGrows`), and is accepted whenever the device may write (`not_head_of_observed`), so
none of the heads it observes is a head again, and no other mutation can name them
(`run_compares_and_swaps`).

A chain that does not name the device of the node takes its entries out of the merged state. The
heads from before are then back, and another mutation that names them is carried out as well, under
a new authorization of the device (`fork_brings_heads_back`). -/

namespace Jolt.Publishing.CompareAndSwap

open Std Lib Calls.Call Lib.Runs Jolt.Core Jolt.Core.Types IdentityAuthority DeviceWriterLog
  Authority.Chain Merge Spec Causality
  Determinism Network DeviceWriterCache CacheSpec List
open Node hiding Event step run construct
open HeldLogs Store Writing LocalNode Outcomes Requests Publishing.Alignment Publishing.Runs
  AlignedRuns RecordHeads Visibility NamedRuns
open SampleNode (append offer primitives withPhone)

variable {P : Primitives} {toJson : List DeviceAuthorizationRecord → Bytes}
  {peerIdOf : Bytes → Option PeerId} {node node' : LocalNode} {st : CachedDeviceWriterState}
  {outside : Outside}

/-! ### The local log grows -/

/-- The local log of the one node is continued by that of the other, as far as hashes tell. -/
def LogGrows (P : Primitives) (a b : LocalNode) : Prop :=
  deviceLogIsPrefix P a.localLog b.localLog = true

theorem LogGrows.trans {a b c : LocalNode} (h : LogGrows P a b) (h' : LogGrows P b c) :
    LogGrows P a c :=
  deviceLogIsPrefix_iff.mpr ((deviceLogIsPrefix_iff.mp h).trans (deviceLogIsPrefix_iff.mp h'))

variable {a b : LocalNode}

theorem logGrows_of_eq (h : b.localLog = a.localLog) : LogGrows P a b := by
  unfold LogGrows
  rw [h]
  exact deviceLogIsPrefix_refl _

theorem logGrows_of_network (hid : b.network.identity = a.network.identity)
    (h : deviceLogIsPrefix P a.localLog (b.network.localDeviceWriterLogs a.identity) = true) :
    LogGrows P a b := by
  show deviceLogIsPrefix P a.localLog (b.network.localDeviceWriterLogs b.network.identity) = true
  rw [hid]
  exact h

theorem logGrows_of_logs (hid : b.network.identity = a.network.identity)
    (hlogs : b.network.localDeviceWriterLogs = a.network.localDeviceWriterLogs) : LogGrows P a b :=
  logGrows_of_network hid (hlogs ▸ deviceLogIsPrefix_refl _)

theorem logGrows_publish (outside : Outside) (path : String) (operation : DeviceWriterOperation)
    (mutation : Option RecordMutationIntent) :
    Keeps (LogGrows P) (publishLocalDeviceWriterOperation P outside path operation mutation) := by
  intro node
  obtain ⟨e, h⟩ | ⟨entry, record, network, hp, ⟨e, hn, h⟩ | ⟨stored, -, h⟩⟩ :=
    publish_cases P outside path operation mutation node <;> rw [h]
  · exact logGrows_of_eq rfl
  · rcases storeVerified_eq_error hn with rfl | rfl <;> exact logGrows_of_eq rfl
  · obtain ⟨-, _, -, -, -, -, hlog, -⟩ := prepareDeviceWriterOperation_eq_ok.mp hp
    refine deviceLogIsPrefix_iff.mpr ?_
    rw [localLog_published, hlog, map_append]
    exact prefix_append _ _

theorem stepwise_logGrows : Stepwise P (LogGrows P) where
  refl node := logGrows_of_eq rfl
  trans := .trans
  content _ _ _ := logGrows_of_eq rfl
  entry _ _ _ _ := logGrows_of_eq rfl
  logged _ _ _ _ := logGrows_of_eq rfl
  publish := logGrows_publish
  takeOver ambient identity records := by
    intro node
    rcases takeOver_cases (P := P) node ambient identity records with
      h | ⟨network, hid, -, hlogs, h | h⟩ <;> rw [h]
    · exact logGrows_of_eq rfl
    · exact logGrows_of_logs hid hlogs
    · exact logGrows_of_logs hid hlogs
  sync node ambient records logs := by
    obtain ⟨network', hid, -, hpre, h | ⟨merged, -, h⟩⟩ :=
      storeAndPersist_cases (P := P) node ambient records logs <;> rw [h]
    · exact logGrows_of_network hid hpre
    · exact logGrows_of_network hid hpre
  network _ _ hid _ hlogs := logGrows_of_logs hid hlogs
  updateLog _ _ _ _ := logGrows_of_eq rfl

/-! ### What a mutation names and observes -/

theorem body_next {operation : DeviceWriterOperation} {observed : List DeviceWriterLogEntryHash}
    {createdAt : UInt64} {e : DeviceWriterLogEntry}
    (h : node.nextDeviceWriterEntry P operation observed createdAt = .ok e) :
    e.body.operation = operation ∧ ∀ hash, hash ∈ e.body.observedHeads ↔ hash ∈ observed := by
  unfold nextDeviceWriterEntry at h
  cases hlast : node.localLog.getLast? with
  | none =>
    simp only [hlast] at h
    obtain ⟨-, rfl⟩ := signBody_eq_ok h
    exact ⟨rfl, fun _ => mem_canonicalHeads⟩
  | some previous =>
    simp only [hlast] at h
    obtain ⟨-, rfl⟩ := signBody_eq_ok h
    exact ⟨rfl, fun _ => mem_canonicalHeads⟩

/-- What a mutation does that is carried out: it names the heads `heads` of its path, and its entry
`e` observes them. -/
structure Swaps (P : Primitives) (node node' : LocalNode) (m : Mutation) (r : RecordRequest)
    (heads : List DeviceWriterLogEntryHash) (e : DeviceWriterLogEntry) : Prop where
  request : m.request node = .ok r
  current : ∃ st, node.state = some st ∧ heads = recordHeads st r.path
  named : r.requestedRevisions = heads.map (·.toHex)
  nonempty : heads ≠ []
  log : node'.localLog = node.localLog ++ [e]
  observed : ∀ hash, hash ∈ e.body.observedHeads ↔ hash ∈ heads
  operation : (singletonAt r.path e.body.operation).isSome
  authority : ∃ createdAt records, node.authorityRecordsForLocalDevice P createdAt true =
    .ok records ∧
      node'.localDeviceAuthorityRecords = records

/-- **A mutation that is carried out names the heads of its path and observes them.** -/
theorem mutation_swaps {m : Mutation} {reply : Reply} (hfresh : ¬ Replayed node (.mutate m))
    (h : call P outside (.mutate m) node = (.ok reply, node')) :
    ∃ r heads e, Swaps P node node' m r heads e := by
  obtain ⟨w, sequence, revision, hplan, hcarry, -⟩ := call_eq_ok_of_fresh hfresh h
  rcases plan_eq_inr hplan with ⟨_, _, _, hm, -⟩ | ⟨_, _, _, hm, -⟩ | ⟨_, r, hm, hr, -, hvalid, rfl⟩
  · cases hm
  · cases hm
  cases hm
  obtain ⟨mid, deviceSequence, hmid, hpublish⟩ := carryOut_eq_ok hcarry
  obtain ⟨updateLogs, store, rfl⟩ := mid_frame hmid
  obtain ⟨e, record, stored, network', hp, -, -, -, rfl⟩ :=
    publishLocalDeviceWriterOperation_eq_ok hpublish
  obtain ⟨-, observed, hobserved, hentry, hauthority, -, hlog, -⟩ :=
    prepareDeviceWriterOperation_eq_ok.mp hp
  obtain ⟨st, hstate, hrequested, hne⟩ := validate_eq_ok hvalid
  rw [observedHeadsOf_mid] at hobserved
  have hheads : observed = recordHeads st r.path :=
    observed_eq_recordHeads hstate hvalid (by simpa [Mutation.write,
      observedHeadsOf] using hobserved)
  obtain ⟨hoperation, hmem⟩ := body_next hentry
  refine ⟨r, recordHeads st r.path, e, hr, ⟨st, hstate, rfl⟩, hrequested, ?_, ?_,
    hheads ▸ hmem, ?_, ?_⟩
  · rintro hnil
    rw [hnil] at hrequested
    exact hne hrequested
  · rw [localLog_published, hlog]
    rfl
  · rw [hoperation]
    unfold Mutation.write
    rw [singletonAt_write]
    rfl
  · exact ⟨outside.createdAt, record.authorityRecords, hauthority, rfl⟩

/-! ### No two mutations replace the same heads -/

/-- **Heads that an accepted entry of the local log observes are no heads.** -/
theorem not_head_of_observed (ha : Aligned P node st) {createdAt : UInt64}
    {records : List DeviceAuthorizationRecord} (hnamed : Named node)
    (hauthority : node.authorityRecordsForLocalDevice P createdAt true = .ok records)
    {x : DeviceWriterLogEntry} (hx : x ∈ node.localLog) {path : String}
    (hop : (singletonAt path x.body.operation).isSome) {hash : DeviceWriterLogEntryHash}
    (hobserved : hash ∈ x.body.observedHeads) : hash ∉ recordHeads st path := by
  obtain ⟨authority, iteration, hverify, -, hmerge⟩ := ha.ok.backed
  have hverifyLocal := hverify
  rw [ha.records] at hverifyLocal
  have hvalid := ha.deviceLog.valid x hx
  -- the chain names the device and lets it write, so its entries are accepted
  have haccepted : Accepted authority x := by
    rcases authorityRecords_cases hauthority with ⟨auth, device, hauth, hdevice, hactive, -,
      -⟩ | ⟨hunknown, -⟩
    · rw [hverifyLocal] at hauth
      cases hauth
      exact ⟨device, hvalid.deviceId ▸ hdevice, .inl (hactive rfl)⟩
    · have hnone := hunknown authority hverifyLocal
      rw [getElem?_devices_of_verify hverifyLocal] at hnone
      unfold Named at hnamed
      rw [hnone] at hnamed
      cases hnamed
  intro hmem
  obtain ⟨c, hc, rfl⟩ : ∃ c, Reported st.merged path c ∧ c.entryHash = hash := by
    unfold recordHeads at hmem
    rcases mem_append.mp hmem with h | h
    · obtain ⟨c, hc, rfl⟩ := mem_map.mp h
      cases hconflicts : st.merged.singletonConflicts[path]? with
      | none => simp [hconflicts] at hc
      | some conflicts =>
        rw [hconflicts] at hc
        exact ⟨c, .inr ⟨conflicts, hconflicts, hc⟩, rfl⟩
    · obtain ⟨c, hc, rfl⟩ := mem_map.mp h
      exact ⟨c, .inl (Option.mem_toList.mp hc), rfl⟩
  refine (mem_heads.mp ((reported_iff_mem_heads hmerge).mp hc)).2 (.inr ?_)
  rw [← ha.log] at hx
  refine ⟨held st.deviceLogs node.localDeviceId, ?_, x, hx, ⟨haccepted, hop⟩, hobserved⟩
  exact mem_values.mpr ⟨_, (getElem?_eq_some_iff_held ha.ok.wellKeyed).mpr ⟨rfl, ne_nil_of_mem hx⟩⟩

theorem exists_body_of_logGrows (h : LogGrows P node node')
    (hfree : CollisionFree P (node.localLog ++ node'.localLog)) {e : DeviceWriterLogEntry}
    (he : e ∈ node.localLog) : ∃ x ∈ node'.localLog, x.body = e.body := by
  have hhash : e.entryHash P ∈ node'.localLog.map (·.entryHash P) :=
    (deviceLogIsPrefix_iff.mp h).subset (mem_map_of_mem he)
  obtain ⟨x, hx, heq⟩ := mem_map.mp hhash
  exact ⟨x, hx, hfree x (mem_append_right _ hx) e (mem_append_left _ he) heq⟩

/-- **Mutations compare and swap.** A mutation that is carried out after any run names the heads of
its path, in order, and its entry observes them. If the states that syncs bring are saved and the
chains that can replace that of the node name the device, no later mutation that names these heads
is carried out. -/
theorem run_compares_and_swaps {keys : Keys} {boot : Boot} {store : ContentStore}
    (hapart : Apart (keys.localDeviceId P) store)
    (hstart : construct P keys boot store = (.ok (), node)) {before : List Event} {m : Mutation}
    {reply : Reply} (hfresh : ¬ Replayed (run P toJson peerIdOf node before) (.mutate m))
    (h : call P outside (.mutate m) (run P toJson peerIdOf node before) = (.ok reply, node')) :
    ∃ r heads e, Swaps P (run P toJson peerIdOf node before) node' m r heads e ∧
      ∀ between : List Event, (∀ event ∈ before ++ between, Saved node.identity event) →
        Along (step P toJson peerIdOf) (Names P) node' between →
        let later := run P toJson peerIdOf node' between
        CollisionFree P (node'.localLog ++ later.localLog) →
        ∀ outside' m', m'.request later = .ok r → ¬ Replayed later (.mutate m') →
          ∀ reply' node'', call P outside' (.mutate m') later ≠ (.ok reply', node'') := by
  obtain ⟨r, heads, e, hswaps⟩ := mutation_swaps hfresh h
  refine ⟨r, heads, e, hswaps, fun between hsaved hnames => ?_⟩
  intro later hfree outside' m' hrequest hfresh' reply' node'' h'
  have hcall := stagewise_sameSelf.call (P := P) outside (.mutate m)
    (run P toJson peerIdOf node before)
  rw [h] at hcall
  have hself : SameSelf node node' := (sameSelf_run node before).trans hcall
  -- the copies are in line after the first mutation and before the second
  have hline : InLine P node' := by
    have hkeeps := stagewise_inLine.call (P := P) outside (.mutate m)
      (run P toJson peerIdOf node before)
    rw [h] at hkeeps
    exact hkeeps (inLine_run (inLine_construct hapart hstart) fun event hevent =>
      hsaved event (mem_append_left _ hevent))
  have hbetween : ∀ event ∈ between, Saved node'.identity event := fun event hevent => by
    rw [hself.identity]
    exact hsaved event (mem_append_right _ hevent)
  obtain ⟨st, hst⟩ : InLine P later := inLine_run hline hbetween
  have hnamed : Named node' := by
    obtain ⟨_, records, hrecords, heq⟩ := hswaps.authority
    have hnamed' := named_authorityRecords hrecords
    rw [← heq, ← hcall.localDeviceId] at hnamed'
    exact hnamed'
  have hlater : Named later := named_run hline hnamed hbetween hnames
  -- the entry of the first mutation is still in the log
  have he : e ∈ node'.localLog := by
    rw [hswaps.log]
    exact mem_append_right _ (mem_singleton.mpr rfl)
  obtain ⟨x, hx, hbody⟩ := exists_body_of_logGrows (stepwise_logGrows.run node' between) hfree he
  obtain ⟨r', heads', e', hswaps'⟩ := mutation_swaps hfresh' h'
  obtain rfl : r = r' := by
    have heq := hswaps'.request
    rw [hrequest] at heq
    exact Except.ok.inj heq
  have hheads : heads' = heads := by
    have htexts := hswaps'.named
    rw [hswaps.named] at htexts
    exact (map_injective_iff.mpr toHex_injective htexts).symm
  obtain ⟨st', hstate, hcurrent⟩ := hswaps'.current
  obtain rfl : st = st' := Option.some.inj (hst.state.symm.trans hstate)
  obtain ⟨hash, hhash⟩ := exists_mem_of_ne_nil heads' hswaps'.nonempty
  obtain ⟨_, _, hauthority, -⟩ := hswaps'.authority
  have hop : (singletonAt r.path x.body.operation).isSome := hbody ▸ hswaps.operation
  have hobserved : hash ∈ x.body.observedHeads := by
    rw [hbody, hswaps.observed, ← hheads]
    exact hhash
  exact not_head_of_observed hst hlater hauthority hx hop hobserved (hcurrent ▸ hhash)

/-! ### A note of another device -/

def phoneNote : DeviceWriterLogEntry := SampleNode.phoneEntry
    (.setPath "/note" (SampleNode.content 2) .singleton)

/-- A deletion of this note, under the given id. -/
def deletion (mutationId : String) : Mutation where
  kind := .delete
  path := "/note"
  observedRevision := (phoneNote.entryHash primitives).toHex
  observedRevisions := []
  mutationId := mutationId

def received : List Event := [.offer default "phone" (offer withPhone [[phoneNote]])]

def noted : LocalNode := run primitives (fun _ => []) SampleNode.peerIdOf SampleNode.node received

/-- The chain of the owner on another branch, without the device of the node. -/
def forked : List DeviceAuthorizationRecord :=
  append (append [] (Sample.authorize "phone" 2)) (Sample.authorize "tablet" 3)

/-- The node after the note is deleted once and a chain is offered. -/
def offered (records : List DeviceAuthorizationRecord) : LocalNode :=
  run primitives (fun _ => []) SampleNode.peerIdOf
    (call primitives default (.mutate (deletion "first")) noted).2
    [.offer default "phone" (offer records [])]

theorem saved_offer (records : List DeviceAuthorizationRecord)
    (logs : List (List DeviceWriterLogEntry)) (identity : IdentityId) :
    Saved identity (.offer default "phone" (offer records logs)) := fun _ => rfl

theorem deletion_checks :
    let deleted := call primitives default (.mutate (deletion "first")) noted
    let later := offered withPhone
    deleted.1.isOk = true ∧ ¬ Replayed noted (.mutate (deletion "first")) ∧
      ¬ Replayed later (.mutate (deletion "second")) ∧
      (deletion "second").request later = (deletion "first").request noted ∧
      CollisionFree primitives (deleted.2.localLog ++ later.localLog) ∧
      (deviceOf withPhone deleted.2.localDeviceId).isSome = true := by decide +kernel

/-- The note is deleted once; the chain of the node offered again does not change that. -/
theorem run_compares_and_swaps_note :
    (call primitives default (.mutate (deletion "first")) noted).1.isOk = true ∧
      ∀ reply node', call primitives default (.mutate (deletion "second"))
        (offered withPhone) ≠ (.ok reply, node') := by
  obtain ⟨hok, hfresh, hfresh', hrequest, hfree, hnamed⟩ := deletion_checks
  refine ⟨hok, ?_⟩
  obtain ⟨reply, node', h⟩ := exists_of_isOk hok
  obtain ⟨r, heads, e, hswaps, honce⟩ := run_compares_and_swaps (SampleNode.apart_empty _)
    SampleNode.construct_eq hfresh h
  obtain rfl : (call primitives default (.mutate (deletion "first")) noted).2 = node' :=
    congrArg Prod.snd h
  refine honce [.offer default "phone" (offer withPhone [])] ?_ ?_ hfree default
    (deletion "second") (hrequest.trans hswaps.request) hfresh'
  · intro event hevent
    rcases mem_append.mp hevent with hevent | hevent <;> rw [mem_singleton.mp hevent] <;>
      exact saved_offer _ _ _
  · refine ⟨fun _ authority hauthority _ => ?_, trivial⟩
    rw [ExtTreeMap.mem_iff_isSome_getElem?, getElem?_devices_of_verify hauthority]
    exact hnamed

/-- **A forked chain brings the heads back.** The chain on another branch does not name the device
of the node, so its deletion is not accepted any more; the second deletion of the same note is
carried out, with a new authorization of the device. -/
theorem fork_brings_heads_back :
    (call primitives default (.mutate (deletion "first")) noted).1.isOk = true ∧
      ¬ Replayed (offered forked) (.mutate (deletion "second")) ∧
      (call primitives default (.mutate (deletion "second")) (offered forked)).1.isOk = true := by
  decide +kernel

end Jolt.Publishing.CompareAndSwap
