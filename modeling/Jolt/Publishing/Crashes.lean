import Jolt.Publishing.SampleNode

/-! # Update logs that crash a node

`verify_update_log_for_identity` indexes the first entry of the log it has verified, and an empty
log passes the verification. So it panics on an empty log and on no other (`verify_panics_iff`), and
with it `select_newest_verified_update_log` and `store_verified_update_log`. The handlers of
update-log responses look for an empty list first; the command that a relay runs for a pin request
and the loader of the persisted log do not. No log that a node holds is empty (`nonemptyLogs_run`),
so that verifying what is held is safe. -/

namespace Jolt.Publishing.Crashes

open Std Lib Checks Calls.Call Jolt.Core Jolt.Core.Types IdentityAuthority UpdateLog Network
  DeviceWriterCache
open Node hiding Event step run construct
open Store Writing LocalNode Outcomes Requests Publishing.Alignment Publishing.Runs

/-! ### Panics -/

section

variable {ε ε' α β : Type} {x : Except (Fault ε) α}

def Panics (result : Except (Fault ε) α) : Prop := ∃ message, result = .error (.panicked message)

@[simp] theorem not_panics_ok {a : α} : ¬ Panics (.ok a : Except (Fault ε) α) := by
  rintro ⟨message, h⟩
  cases h

@[simp] theorem not_panics_err {e : ε} : ¬ Panics (.error (.err e) : Except (Fault ε) α) := by
  rintro ⟨message, h⟩
  cases h

@[simp] theorem panics_panicked {message : String} :
    Panics (.error (.panicked message) : Except (Fault ε) α) := ⟨message, rfl⟩

@[simp] theorem not_panics_pure {a : α} : ¬ Panics (pure a : Except (Fault ε) α) := not_panics_ok

@[simp] theorem not_panics_mapError {x : Except ε α} : ¬ Panics (x.mapError Fault.err) := by
  cases x with
  | error e => exact not_panics_err
  | ok a => exact not_panics_ok

@[simp] theorem not_panics_ensure {c : Prop} [Decidable c] {e : ε} :
    ¬ Panics (ensure c (.err e : Fault ε)) := by
  unfold ensure
  split_ifs
  · exact not_panics_ok
  · exact not_panics_err

@[simp] theorem not_panics_okOr {o : Option α} {e : ε} : ¬ Panics (okOr o (.err e : Fault ε)) := by
  cases o with
  | none => exact not_panics_err
  | some a => exact not_panics_ok

theorem panics_bind {f : α → Except (Fault ε) β} : Panics (x >>= f) ↔ Panics x ∨ ∃ a, x = .ok a ∧
    Panics (f a) := by
  rcases x with (e | message) | a
  · simp [bind, Except.bind]
  · simp [bind, Except.bind]
  · simp [bind, Except.bind]

theorem panics_run_bind {x : NodeCall α} {f : α → NodeCall β} {node : LocalNode} :
    Panics ((x >>= f) node).1 ↔ Panics (x node).1 ∨ ∃ a, (x node).1 = .ok a ∧ Panics
      (f a (x node).2).1 := by
  rw [run_bind]
  rcases x node with ⟨(e | message) | a, node'⟩ <;> simp

@[simp] theorem panics_dropError : Panics (dropError x : Except (Fault ε') (Option α)) ↔
    Panics x := by
  rcases x with (e | message) | a <;> simp [dropError]

@[simp] theorem panics_asProtocolFault {text : ε → String} : Panics (asProtocolFault text x) ↔
    Panics x := by
  rcases x with (e | message) | a <;> simp [asProtocolFault]

end

variable {P : Primitives} {toJson : List DeviceAuthorizationRecord → Bytes}
  {peerIdOf : Bytes → Option PeerId} {node : LocalNode} {identity : IdentityId}
  {entries : List UpdateLogEntry}

/-! ### The verifier -/

/-- **Verifying panics on the empty log and on no other.** -/
theorem verify_panics_iff : Panics (verifyUpdateLogForIdentity P identity entries) ↔
    entries = [] := by
  cases entries with
  | nil => exact ⟨fun _ => rfl, fun _ => panics_panicked⟩
  | cons first rest =>
    simp only [verifyUpdateLogForIdentity, panics_bind, not_panics_mapError, not_panics_ensure,
      not_panics_pure, and_false, exists_false, or_self, reduceCtorEq]

theorem ne_nil_of_verify {sequence : UInt64}
    (h : verifyUpdateLogForIdentity P identity entries = .ok sequence) : entries ≠ [] := by
  rintro rfl
  cases h

/-! ### The newest of several logs -/

theorem newerVerified_panics_iff {best : Option VerifiedUpdateLog} :
    Panics (newerVerified P identity best entries) ↔ entries = [] := by
  rw [newerVerified, panics_bind, panics_dropError, verify_panics_iff, or_iff_left]
  rintro ⟨verified, -, h⟩
  cases verified with
  | none => exact not_panics_pure h
  | some sequence =>
    dsimp only at h
    split_ifs at h <;> exact not_panics_pure h

theorem select_panics_iff {candidates : List (List UpdateLogEntry)} :
    Panics (selectNewestVerifiedUpdateLog P identity candidates) ↔ [] ∈ candidates := by
  unfold selectNewestVerifiedUpdateLog
  generalize (none : Option VerifiedUpdateLog) = best
  induction candidates generalizing best with
  | nil => simp
  | cons entries candidates ih =>
    rw [List.foldlM_cons, panics_bind, newerVerified_panics_iff, List.mem_cons, eq_comm]
    refine or_congr_right' fun hne => ?_
    -- The turn returns, as it has no errors and does not panic here.
    have hturn : Panics (newerVerified P identity best entries) ↔ entries = [] :=
      newerVerified_panics_iff
    rcases hnewer : newerVerified P identity best entries with (e | message) | best'
    · exact e.elim
    · exact absurd (hturn.mp (hnewer ▸ panics_panicked)).symm hne
    · simp [ih best']

/-! ### Where logs come from -/

section

variable (P : Primitives)

/-- What is done with an update log that a peer sends: an empty one does not reach the verifier. -/
def receiveUpdateLog (identity : IdentityId) (entries : List UpdateLogEntry) : NodeCall Unit :=
  if entries = [] then return () else storeVerifiedUpdateLog P identity entries

/-- `DaemonCommand::StoreUpdateLog`, which a relay runs for the log of a pin request; `announced` is
how the announcement to the network ends. -/
def storeUpdateLog (announced : Except NetworkError Unit) (identity : IdentityId)
    (entries : List UpdateLogEntry) : NodeCall UInt64 := do
  storeVerifiedUpdateLog P identity entries
  let node ← read id
  let held ← check (okOr (node.updateLogs identity)
    (.err (.protocol s!"No verified update log cached for {P.identityToString identity}")))
  let sequence ← check (asProtocolFault UpdateLogError.toString
    (verifyUpdateLogForIdentity P identity held))
  check (announced.mapError .err)
  return sequence

end

def NonemptyLogs (node : LocalNode) : Prop := ∀ identity, node.updateLogs identity ≠ some []

theorem nonemptyLogs_of_eq {a b : LocalNode} (h : b.updateLogs = a.updateLogs)
    (ha : NonemptyLogs a) : NonemptyLogs b := by
  intro identity
  rw [h]
  exact ha identity

section

variable (h : NonemptyLogs node)
include h

theorem NonemptyLogs.insert (hne : entries ≠ []) (identity : IdentityId) :
    NonemptyLogs (node.insertUpdateLog identity entries) := by
  intro other
  show Function.update node.updateLogs identity (some entries) other ≠ some []
  rw [Function.update_apply]
  split_ifs
  · simpa using hne
  · exact h other

theorem not_panics_heldSequence : ¬ Panics (heldSequence P node identity) := by
  unfold heldSequence
  rcases hheld : node.updateLogs identity with _ | current
  · exact not_panics_ok
  · rw [panics_dropError, verify_panics_iff]
    rintro rfl
    exact h identity hheld

/-- **Storing panics on the empty log and on no other**, in a node that holds no empty log. -/
theorem store_panics_iff : Panics (storeVerifiedUpdateLog P identity entries node).1 ↔
    entries = [] := by
  unfold storeVerifiedUpdateLog
  simp only [read_bind, id_eq, panics_run_bind, check_apply, panics_asProtocolFault,
    verify_panics_iff]
  rw [or_iff_left]
  rintro ⟨candidate, -, hheld | ⟨current, -, hpanics⟩⟩
  · exact not_panics_heldSequence h hheld
  · split_ifs at hpanics <;> exact not_panics_ok hpanics

theorem nonemptyLogs_store : NonemptyLogs (storeVerifiedUpdateLog P identity entries node).2 := by
  rcases storeVerifiedUpdateLog_cases (P := P) node identity entries with heq | ⟨heq, _, hv, -⟩ <;>
    rw [heq]
  · exact h
  · exact h.insert (ne_nil_of_verify hv) identity

theorem storeUpdateLog_panics_iff (announced : Except NetworkError Unit) :
    Panics (storeUpdateLog P announced identity entries node).1 ↔ entries = [] := by
  unfold storeUpdateLog
  simp only [panics_run_bind, read_bind, id_eq, check_apply, store_panics_iff h,
    panics_asProtocolFault, verify_panics_iff, not_panics_mapError]
  rw [or_iff_left]
  rintro ⟨_, -, hheld | ⟨held, hheld, rfl | ⟨sequence, -, hrest | ⟨_, -, hrest⟩⟩⟩⟩
  · exact not_panics_okOr hheld
  · exact nonemptyLogs_store h identity (okOr_eq_ok.mp hheld)
  · exact hrest
  · exact not_panics_ok hrest

theorem receive_not_panics : ¬ Panics (receiveUpdateLog P identity entries node).1 := by
  unfold receiveUpdateLog
  split_ifs with hempty
  · exact not_panics_ok
  · rwa [store_panics_iff h]

end

theorem load_panics_iff : Panics (loadPersistedLocalUpdateLog P node).1 ↔
    node.store.updateLog = some [] := by
  unfold loadPersistedLocalUpdateLog
  simp only [read_bind, id_eq]
  rcases hsaved : node.store.updateLog with _ | saved
  · simp
  · simp only [panics_run_bind, check_apply, panics_asProtocolFault, verify_panics_iff,
      Option.some.injEq]
    rw [or_iff_left]
    rintro ⟨_, -, hwrite⟩
    exact not_panics_ok hwrite

/-! ### Runs -/

theorem stepwise_nonemptyLogs : Stepwise P (fun a b => NonemptyLogs a → NonemptyLogs b) where
  refl _ := id
  trans hab hbc ha := hbc (hab ha)
  content _ _ _ := id
  entry _ _ _ _ h := h.insert (by simp [extendedLog]) _
  logged _ _ _ _ h := h.insert (by simp [extendedLog]) _
  publish outside path operation mutation node :=
    nonemptyLogs_of_eq (updateLogs_publish outside path operation mutation node)
  takeOver ambient identity records := by
    intro node
    rcases takeOver_cases (P := P) node ambient identity records with
      h | ⟨network, -, -, -, h | h⟩ <;> rw [h] <;> exact id
  sync node ambient records logs := by
    obtain ⟨network', -, -, -, h | ⟨merged, -, h⟩⟩ :=
      storeAndPersist_cases (P := P) node ambient records logs <;> rw [h] <;> exact id
  network _ _ _ _ _ := id
  updateLog _ identity _ htakes h := h.insert (ne_nil_of_verify htakes.choose_spec.1) identity

/-- **No node ever holds an empty log.** -/
theorem nonemptyLogs_run (h : NonemptyLogs node) (events : List Event) :
    NonemptyLogs (run P toJson peerIdOf node events) :=
  stepwise_nonemptyLogs.run node events h

theorem nonemptyLogs_construct {keys : Keys} {boot : Boot} {store : ContentStore}
    (h : construct P keys boot store = (.ok (), node)) : NonemptyLogs node := by
  unfold construct load at h
  simp only [run_bind_eq_ok, write_apply, Prod.mk.injEq] at h
  obtain ⟨_, updates, hupdates, _, logs, hlogs, _, restored, ⟨-, rfl⟩, hensure⟩ := h
  have hfresh : NonemptyLogs (fresh P keys store) := fun _ => Option.some_ne_none _ |>.symm
  have hloaded : NonemptyLogs updates := by
    rcases loadPersistedLocalUpdateLog_eq_ok hupdates with ⟨-, rfl⟩ | ⟨entries, _, -, hv, rfl⟩
    · exact hfresh
    · exact hfresh.insert (ne_nil_of_verify hv) _
  have hrestored : logs.updateLogs = updates.updateLogs := by
    rcases loadPersistedLocalDeviceWriterLog_eq_ok hlogs with ⟨-, rfl⟩ | ⟨_, _, _, -,
      -, rfl⟩ <;> rfl
  obtain ⟨records, -, htake⟩ := ensureLocalDeviceAuthority_eq_ok hensure
  obtain ⟨sequence, network', -, rfl⟩ := takeOver_eq_ok htake
  exact nonemptyLogs_of_eq hrestored hloaded

/-! ### Empty logs crash, others do not -/

/-- **Which update logs crash a node.** At any time of a run, the verifier, the store and the
command a relay runs return for every log that is not empty, and only for those; what a peer sends
is never a crash; selecting returns if no candidate is empty, and a node loads its log if that is
not empty. -/
theorem returns_iff_nonempty {keys : Keys} {boot : Boot} {store : ContentStore}
    (h : construct P keys boot store = (.ok (), node)) (events : List Event) (identity : IdentityId)
    (entries : List UpdateLogEntry) :
    (¬ Panics (verifyUpdateLogForIdentity P identity entries) ↔ entries ≠ []) ∧
    (¬ Panics (storeVerifiedUpdateLog P identity entries (run P toJson peerIdOf node events)).1 ↔
      entries ≠ []) ∧
    (∀ announced, ¬ Panics (storeUpdateLog P announced identity entries
      (run P toJson peerIdOf node events)).1 ↔ entries ≠ []) ∧
    ¬ Panics (receiveUpdateLog P identity entries (run P toJson peerIdOf node events)).1 ∧
    (∀ candidates, ¬ Panics (selectNewestVerifiedUpdateLog P identity candidates) ↔
      [] ∉ candidates) ∧
    ∀ keys' store', ¬ Panics (loadPersistedLocalUpdateLog P (fresh P keys' store')).1 ↔
      store'.updateLog ≠ some [] := by
  have hheld : NonemptyLogs (run P toJson peerIdOf node events) :=
    nonemptyLogs_run (nonemptyLogs_construct h) events
  exact ⟨verify_panics_iff.not, (store_panics_iff hheld).not,
    fun announced => (storeUpdateLog_panics_iff hheld announced).not, receive_not_panics hheld,
    fun _ => select_panics_iff.not, fun _ _ => load_panics_iff.not⟩

def unsigned : UpdateLogEntry := ⟨⟨[], 0, none, .removePath "/note"⟩, []⟩

/-- A log that does not verify is refused, and no crash. -/
theorem returns_iff_nonempty_unsigned :
    ¬ Panics
      (storeVerifiedUpdateLog SampleNode.primitives Sample.owner [unsigned] SampleNode.node).1 ∧
    ¬ Panics (receiveUpdateLog SampleNode.primitives Sample.owner [] SampleNode.node).1 := by
  have h := fun entries => @returns_iff_nonempty SampleNode.primitives (fun _ => [])
    SampleNode.peerIdOf _ _ _ _ SampleNode.construct_eq [] Sample.owner entries
  exact ⟨(h [unsigned]).2.1.mpr (by simp), (h []).2.2.2.1⟩

/-- **An empty log is a crash**: of the verifier, of the selection, of the relay that is sent it in
a pin request, and of a node that finds it on disk. -/
theorem empty_log_panics :
    Panics (verifyUpdateLogForIdentity SampleNode.primitives Sample.owner []) ∧
    Panics (selectNewestVerifiedUpdateLog SampleNode.primitives Sample.owner [[]]) ∧
    Panics (storeUpdateLog SampleNode.primitives (.ok ()) Sample.owner [] SampleNode.node).1 ∧
    Panics (construct SampleNode.primitives SampleNode.keys default
      { ContentStore.empty with updateLog := some [] }).1 :=
  ⟨⟨_, rfl⟩, ⟨_, rfl⟩, ⟨_, rfl⟩, ⟨_, rfl⟩⟩

end Jolt.Publishing.Crashes
