import Jolt.Encryption.Envelopes
import Jolt.Lib.Calls
import Jolt.Lib.FirstMatch
import Jolt.Lib.Runs
import Jolt.Network.DeviceWriterCache

/-! # Recipient ingress

The queue of `ingress.rs`: encrypted objects that others have sent to the local identity and that
its owner accepts or rejects. A record is found by the identifier of its object. The queue is
written to a file after every change, as far as that succeeds and only with the records that arrived
last, and is read again when the daemon starts, without the records whose time is over.

An object that is sent again gets a second record, which is pending although the first is decided
(`accepted_object_pending_again`). As long as no object is submitted of which there is a record, the
writes of decisions succeed and a decided record is among the 1024 newest when the daemon restarts,
a decision is final (`decisions_final`). -/

namespace Jolt.Network.Ingress

open Lib Checks Calls Call FirstMatch Lib.Runs Sorting Jolt.Core Jolt.Core.Types EncryptedObject
  Encryption Envelopes DeviceWriterCache List SampleCiphers
open Sample (key owner primitives)

/-! ### Records -/

inductive IngressStatus where
  | pending
  | accepted
  | rejected
deriving DecidableEq

structure IngressRecord where
  ingressId : String
  receiverId : String
  senderIdentity : String
  recipientIdentity : String
  schemaHint : Option String
  status : IngressStatus
  receivedAt : UInt64
  expiresAt : Option UInt64
  size : UInt64
  encryptedObject : Bytes
  acceptedAt : Option UInt64
  rejectedAt : Option UInt64
deriving DecidableEq

/-- A record in the file, where the status is a text. -/
structure PersistedIngressRecord where
  ingressId : String
  receiverId : String
  senderIdentity : String
  recipientIdentity : String
  schemaHint : Option String
  status : String
  receivedAt : UInt64
  expiresAt : Option UInt64
  encryptedObject : Bytes
  acceptedAt : Option UInt64
  rejectedAt : Option UInt64
deriving DecidableEq

def IngressStatus.toText : IngressStatus → String
  | pending => "pending"
  | accepted => "accepted"
  | rejected => "rejected"

def IngressStatus.ofText (status : String) : IngressStatus :=
  if status = "accepted" then .accepted else if status = "rejected" then .rejected else .pending

def IngressRecord.persist (record : IngressRecord) : PersistedIngressRecord where
  ingressId := record.ingressId
  receiverId := record.receiverId
  senderIdentity := record.senderIdentity
  recipientIdentity := record.recipientIdentity
  schemaHint := record.schemaHint
  status := record.status.toText
  receivedAt := record.receivedAt
  expiresAt := record.expiresAt
  encryptedObject := record.encryptedObject
  acceptedAt := record.acceptedAt
  rejectedAt := record.rejectedAt

def PersistedIngressRecord.restore (record : PersistedIngressRecord) : IngressRecord where
  ingressId := record.ingressId
  receiverId := record.receiverId
  senderIdentity := record.senderIdentity
  recipientIdentity := record.recipientIdentity
  schemaHint := record.schemaHint
  status := .ofText record.status
  receivedAt := record.receivedAt
  expiresAt := record.expiresAt
  size := record.encryptedObject.length.toUInt64
  encryptedObject := record.encryptedObject
  acceptedAt := record.acceptedAt
  rejectedAt := record.rejectedAt

def unexpired (now : UInt64) (expiresAt : Option UInt64) : Bool := expiresAt.all (now < ·)

/-! ### The queue -/

structure IngressQueue where
  records : List IngressRecord

def maxPersistedIngressRecords : ℕ := 1024

namespace IngressQueue

variable (queue : IngressQueue)

def fromPersisted (persisted : List PersistedIngressRecord) (now : UInt64) : IngressQueue :=
  ⟨(persisted.filter fun record => unexpired now record.expiresAt).map (·.restore)⟩

/-- The records that arrived last, the newest first. -/
def toPersisted : List PersistedIngressRecord :=
  ((sortBy (fun a b => compare b.receivedAt a.receivedAt) queue.records).take
    maxPersistedIngressRecords).map (·.persist)

def push (record : IngressRecord) : IngressQueue := ⟨queue.records ++ [record]⟩

def listPending : List IngressRecord := queue.records.filter (·.status = .pending)

def find (queue : IngressQueue) (ingressId : String) : Except NetworkError IngressRecord :=
  okOr (queue.records.find? (·.ingressId = ingressId))
    (.invalidInput s!"ingress envelope not found: {ingressId}")

end IngressQueue

def IngressRecord.decideAs (status : IngressStatus) (now : UInt64) (record : IngressRecord) :
    IngressRecord :=
  match status with
  | .accepted => { record with status := .accepted, acceptedAt := some now }
  | .rejected => { record with status := .rejected, rejectedAt := some now }
  | .pending => { record with status := .pending }

/-- The record with the decision, and the queue after it. A decision that was made already is
repeated. -/
def IngressQueue.decide (queue : IngressQueue) (ingressId : String) (status : IngressStatus)
    (now : UInt64) : Except NetworkError (IngressRecord × IngressQueue) := do
  let record ← queue.find ingressId
  if record.status = status then return (record, queue)
  else do
    ensure (record.status = .pending)
      (.invalidInput s!"ingress envelope is not pending: {ingressId}")
    return (record.decideAs status now,
      ⟨updateFirst (·.ingressId = ingressId) (·.decideAs status now) queue.records⟩)

/-! ### The node -/

structure IngressNode where
  pendingIngress : IngressQueue
  file : List PersistedIngressRecord

/-- A failed write costs restart durability only. -/
def persistIngressQueue (saved : Bool) : Call IngressNode NetworkError Unit :=
  write fun node => if saved then { node with file := node.pendingIngress.toPersisted } else node

section

variable (P : Primitives) (json : EnvelopeJson) (localIdentity : IdentityId) (now : UInt64)
  (encryptedObject : Bytes)

def ingressIdOf : String := s!"ing_{P.contentIdToString (ContentId.fromBytes P encryptedObject)}"

/-- The envelope, if it is signed and addressed to the local identity. -/
def checkEnvelope : Except NetworkError EncryptedObjectEnvelope := do
  let envelope ← (EncryptedObjectEnvelope.fromBytes json encryptedObject).mapError
    fun e => NetworkError.invalidInput e.toString
  (envelope.verifySignature P).mapError fun e => NetworkError.invalidInput e.toString
  ensure (envelope.body.recipients.any (·.recipientIdentity = localIdentity) = true)
    (.invalidInput "ingress envelope is not addressed to the local identity")
  return envelope

def arrived (receiverId : String) (encryptedObject : Bytes) (expiresAt : Option UInt64)
    (envelope : EncryptedObjectEnvelope) : IngressRecord where
  ingressId := ingressIdOf P encryptedObject
  receiverId := receiverId
  senderIdentity := P.identityToString envelope.body.author.identity
  recipientIdentity := P.identityToString localIdentity
  schemaHint := envelope.body.plaintext.schema
  status := .pending
  receivedAt := now
  expiresAt := expiresAt
  size := encryptedObject.length.toUInt64
  encryptedObject := encryptedObject
  acceptedAt := none
  rejectedAt := none

def submitIngress (receiverId : String) (encryptedObject : Bytes) (expiresAt : Option UInt64)
    (saved : Bool) :
    Call IngressNode NetworkError IngressRecord := do
  check (ensure (trimIsEmpty receiverId = false) (.invalidInput "receiver_id must not be empty"))
  check (ensure (unexpired now expiresAt = true) (.invalidInput "ingress envelope is expired"))
  let envelope ← check (checkEnvelope P json localIdentity encryptedObject)
  let record := arrived P localIdentity now receiverId encryptedObject expiresAt envelope
  write fun node => { node with pendingIngress := node.pendingIngress.push record }
  persistIngressQueue saved
  return record

/-- `accept_ingress` and `reject_ingress`. -/
def decideIngress (status : IngressStatus) (now : UInt64) (ingressId : String) (saved : Bool) :
    Call IngressNode NetworkError IngressRecord := do
  let node ← read id
  let (record, queue) ← check (node.pendingIngress.decide ingressId status now)
  write fun node => { node with pendingIngress := queue }
  persistIngressQueue saved
  return record

def acceptIngress := decideIngress .accepted

def rejectIngress := decideIngress .rejected

inductive IngressStep where
  | submit (now : UInt64) (receiverId : String) (encryptedObject : Bytes)
      (expiresAt : Option UInt64) (saved : Bool)
  | accept (now : UInt64) (ingressId : String) (saved : Bool)
  | reject (now : UInt64) (ingressId : String) (saved : Bool)
  | restart (now : UInt64)

def step (node : IngressNode) : IngressStep → IngressNode
  | .submit now receiverId encryptedObject expiresAt saved =>
    (submitIngress P json localIdentity now receiverId encryptedObject expiresAt saved node).2
  | .accept now ingressId saved => (acceptIngress now ingressId saved node).2
  | .reject now ingressId saved => (rejectIngress now ingressId saved node).2
  | .restart now => ⟨.fromPersisted node.file now, node.file⟩

def IngressNode.init : IngressNode := ⟨⟨[]⟩, []⟩

def run (steps : List IngressStep) : IngressNode := steps.foldl (step P json localIdentity) .init

end

/-! ### Distinct identifiers -/

/-- No two records, in memory or in the file, have one identifier. -/
def Distinct (node : IngressNode) : Prop :=
  (node.pendingIngress.records.map (·.ingressId)).Nodup ∧ (node.file.map (·.ingressId)).Nodup

theorem nodup_toPersisted {queue : IngressQueue} (h : (queue.records.map (·.ingressId)).Nodup) :
    (queue.toPersisted.map (·.ingressId)).Nodup := by
  unfold IngressQueue.toPersisted
  rw [map_map]
  have hsorted := ((perm_sortBy (fun a b => compare b.receivedAt a.receivedAt)
    queue.records).map (·.ingressId)).nodup_iff.mpr h
  exact hsorted.sublist ((take_sublist _ _).map _)

theorem nodup_fromPersisted {file : List PersistedIngressRecord}
    (h : (file.map (·.ingressId)).Nodup) (now : UInt64) :
    ((IngressQueue.fromPersisted file now).records.map (·.ingressId)).Nodup := by
  unfold IngressQueue.fromPersisted
  rw [map_map]
  exact h.sublist ((filter_sublist).map _)

theorem Distinct.persist {node : IngressNode} (h : Distinct node) (saved : Bool) :
    Distinct (persistIngressQueue saved node).2 := by
  unfold persistIngressQueue
  cases saved with
  | false => exact h
  | true => exact ⟨h.1, nodup_toPersisted h.1⟩

theorem persist_pendingIngress (saved : Bool) (node : IngressNode) :
    (persistIngressQueue saved node).2.pendingIngress = node.pendingIngress := by
  cases saved <;> rfl

@[simp] theorem ingressId_decideAs (status : IngressStatus) (now : UInt64)
    (record : IngressRecord) :
    (record.decideAs status now).ingressId = record.ingressId := by cases status <;> rfl

theorem find?_of_mem {records : List IngressRecord} (h : (records.map (·.ingressId)).Nodup)
    {record : IngressRecord} (hrecord : record ∈ records) :
    records.find? (·.ingressId = record.ingressId) = some record := by
  cases hfind : records.find? (·.ingressId = record.ingressId) with
  | none =>
    have hnone := find?_eq_none.mp hfind record hrecord
    simp at hnone
  | some found =>
    have hid : found.ingressId = record.ingressId := by simpa using find?_some hfind
    rw [inj_on_of_nodup_map h (mem_of_find?_eq_some hfind) hrecord hid]

/-! ### What a step does -/

section

variable {P : Primitives} {json : EnvelopeJson} {localIdentity : IdentityId} {node : IngressNode}
  {status : IngressStatus} {record : IngressRecord}

variable (P json localIdentity) in
theorem submitIngress_cases (now : UInt64) (receiverId : String) (encryptedObject : Bytes)
    (expiresAt : Option UInt64) (saved : Bool) (node : IngressNode) :
    (∃ e, submitIngress P json localIdentity now receiverId encryptedObject expiresAt saved node =
      (.error e, node)) ∨
    ∃ record : IngressRecord, record.ingressId = ingressIdOf P encryptedObject ∧
      record.status = .pending ∧
      submitIngress P json localIdentity now receiverId encryptedObject expiresAt saved node =
        (.ok record, (persistIngressQueue saved
          { node with pendingIngress := node.pendingIngress.push record }).2) := by
  unfold submitIngress
  cases hreceiver : ensure (trimIsEmpty receiverId = false)
      (NetworkError.invalidInput "receiver_id must not be empty") with
  | error e => exact .inl ⟨e, rfl⟩
  | ok _ =>
    cases hexpires : ensure (unexpired now expiresAt = true)
        (NetworkError.invalidInput "ingress envelope is expired") with
    | error e => exact .inl ⟨e, rfl⟩
    | ok _ =>
      cases henvelope : checkEnvelope P json localIdentity encryptedObject with
      | error e => exact .inl ⟨e, rfl⟩
      | ok envelope => exact .inr ⟨_, rfl, rfl, rfl⟩

variable {ingressId : String}

theorem decide_eq_ok {queue queue' : IngressQueue} {now : UInt64}
    (h : queue.decide ingressId status now = .ok (record, queue')) :
    ∃ found, queue.records.find? (·.ingressId = ingressId) = some found ∧
      ((found.status = status ∧ record = found ∧ queue' = queue) ∨
        (found.status ≠ status ∧ found.status = .pending ∧ record = found.decideAs status now ∧
          queue' = ⟨updateFirst (·.ingressId = ingressId) (·.decideAs status now)
            queue.records⟩)) := by
  simp only [IngressQueue.decide, IngressQueue.find, bind_eq_ok, okOr_eq_ok] at h
  obtain ⟨found, hfind, h⟩ := h
  refine ⟨found, hfind, ?_⟩
  split_ifs at h with hstatus
  · simp only [pure_eq_ok, Prod.mk.injEq] at h
    exact .inl ⟨hstatus, h.1.symm, h.2.symm⟩
  · simp only [bind_eq_ok, ensure_eq_ok, pure_eq_ok, Prod.mk.injEq] at h
    obtain ⟨-, hpending, hrecord, hqueue⟩ := h
    exact .inr ⟨hstatus, hpending, hrecord.symm, hqueue.symm⟩

theorem decideIngress_cases (status : IngressStatus) (now : UInt64) (ingressId : String)
    (saved : Bool) (node : IngressNode) :
    (∃ e, decideIngress status now ingressId saved node = (.error e, node)) ∨
    ∃ record queue, node.pendingIngress.decide ingressId status now = .ok (record, queue) ∧
      decideIngress status now ingressId saved node =
        (.ok record, (persistIngressQueue saved { node with pendingIngress := queue }).2) := by
  unfold decideIngress
  simp only [read_bind, id]
  cases hdecide : node.pendingIngress.decide ingressId status now with
  | error e => exact .inl ⟨e, rfl⟩
  | ok result => exact .inr ⟨result.1, result.2, rfl, rfl⟩

theorem Distinct.decided (h : Distinct node) {now : UInt64} {queue : IngressQueue}
    (hdecide : node.pendingIngress.decide ingressId status now = .ok (record, queue)) :
    Distinct { node with pendingIngress := queue } ∧
      ∀ old ∈ node.pendingIngress.records, old.status ≠ .pending → old ∈ queue.records := by
  obtain ⟨found, hfind, ⟨-, -, rfl⟩ | ⟨-, hpending, -, rfl⟩⟩ := decide_eq_ok hdecide
  · exact ⟨h, fun old hold _ => hold⟩
  · refine ⟨⟨?_, h.2⟩, fun old hold hdecided => mem_updateFirst_of_not ?_ hold⟩
    · dsimp only
      rw [map_updateFirst fun record => ingressId_decideAs status now record]
      exact h.1
    · -- the record that is changed was pending, so it is another one
      refine decide_eq_false fun hid => hdecided ?_
      subst hid
      rw [find?_of_mem h.1 hold] at hfind
      cases hfind
      exact hpending

/-! ### Decisions are final -/

/-- The object with the identifier has been decided. -/
def Decided (ingressId : String) (status : IngressStatus) (expiresAt : Option UInt64)
    (node : IngressNode) : Prop :=
  ∃ record ∈ node.pendingIngress.records, record.ingressId = ingressId ∧ record.status = status ∧
    status ≠ .pending ∧ record.expiresAt = expiresAt

/-- At most as many records of the queue as the file takes arrived no earlier than the record. -/
def IngressQueue.Newest (queue : IngressQueue) (record : IngressRecord) : Prop :=
  (queue.records.filter (record.receivedAt ≤ ·.receivedAt)).length ≤ maxPersistedIngressRecords

variable (P) in
/-- No object is submitted of which there is a record, the writes of decisions succeed, and what has
been decided and has not expired is among the newest records when the daemon restarts. -/
def Kept (node : IngressNode) : IngressStep → Prop
  | .submit _ _ encryptedObject _ _ =>
    ∀ record ∈ node.pendingIngress.records, record.ingressId ≠ ingressIdOf P encryptedObject
  | .accept _ _ saved | .reject _ _ saved => saved = true
  | .restart now => ∀ record ∈ node.pendingIngress.records, record.status ≠ .pending →
      unexpired now record.expiresAt = true → node.pendingIngress.Newest record

theorem Distinct.step (h : Distinct node) {next : IngressStep} (hnext : Kept P node next) :
    Distinct (step P json localIdentity node next) := by
  have hdecide (status : IngressStatus) (now : UInt64) (ingressId : String) (saved : Bool) :
      Distinct (decideIngress status now ingressId saved node).2 := by
    obtain ⟨e, he⟩ | ⟨record, queue, hqueue, heq⟩ :=
      decideIngress_cases status now ingressId saved node
    · rwa [he]
    · rw [heq]
      exact (h.decided hqueue).1.persist saved
  cases next with
  | submit now receiverId encryptedObject expiresAt saved =>
    obtain ⟨e, he⟩ | ⟨record, hid, -, heq⟩ := submitIngress_cases P json localIdentity now
      receiverId encryptedObject expiresAt saved node
    · dsimp only [Ingress.step]
      rwa [he]
    · have hpushed : Distinct { node with pendingIngress := node.pendingIngress.push record } := by
        refine ⟨?_, h.2⟩
        dsimp only [IngressQueue.push]
        rw [map_append, nodup_append_comm, map_singleton, singleton_append, nodup_cons]
        refine ⟨fun hmem => ?_, h.1⟩
        obtain ⟨old, hold, holdId⟩ := mem_map.mp hmem
        exact hnext old hold (holdId.trans hid)
      dsimp only [Ingress.step]
      rw [heq]
      exact hpushed.persist saved
  | restart now => exact ⟨nodup_fromPersisted h.2 now, h.2⟩
  | _ => exact hdecide _ _ _ _

theorem ofText_toText (status : IngressStatus) : IngressStatus.ofText status.toText = status := by
  cases status <;> decide

/-! ### What is in the file -/

/-- The file has the decided records that are among the newest, and what is read from it would be
written again as it is. -/
structure Written (node : IngressNode) : Prop where
  decided : ∀ record ∈ node.pendingIngress.records, record.status ≠ .pending →
    node.pendingIngress.Newest record → record.persist ∈ node.file
  restored : ∀ persisted ∈ node.file, persisted.restore.persist = persisted

theorem persist_restore_persist (record : IngressRecord) :
    record.persist.restore.persist = record.persist := by
  unfold IngressRecord.persist PersistedIngressRecord.restore
  simp only [ofText_toText]

theorem persist_mem_toPersisted {queue : IngressQueue} (hmem : record ∈ queue.records)
    (h : queue.Newest record) : record.persist ∈ queue.toPersisted := by
  have : Std.TransCmp fun a b : IngressRecord => compare b.receivedAt a.receivedAt :=
    inferInstanceAs (Std.TransCmp fun a b : IngressRecord =>
      compareOn (·.receivedAt) b a)
  have hsorted := @pairwise_sortBy _ (fun a b => compare b.receivedAt a.receivedAt) _ queue.records
  have hperm := perm_sortBy (fun a b => compare b.receivedAt a.receivedAt) queue.records
  refine mem_map_of_mem (mem_take_of_length_filter_le (p := (record.receivedAt ≤ ·.receivedAt)) ?_
    (hperm.mem_iff.mpr hmem) (decide_eq_true (UInt64.le_refl _)) ?_)
  · refine hsorted.imp fun {a b} hle hb => ?_
    have hle' : b.receivedAt ≤ a.receivedAt := Std.isLE_compare.mp hle
    exact decide_eq_true (UInt64.le_trans (of_decide_eq_true hb) hle')
  · rw [(hperm.filter _).length_eq]
    exact h

/-- A write that succeeds brings the file up to date. -/
theorem written_persist (node : IngressNode) : Written (persistIngressQueue true node).2 := by
  refine ⟨fun record hmem _ hnewest => persist_mem_toPersisted hmem hnewest, fun _ hmem => ?_⟩
  obtain ⟨record, -, rfl⟩ := mem_map.mp hmem
  exact persist_restore_persist record

theorem Written.push (h : Written node) (hpending : record.status = .pending) :
    Written { node with pendingIngress := node.pendingIngress.push record } := by
  refine ⟨fun old hold hdecided hnewest => ?_, h.restored⟩
  rcases mem_append.mp hold with hold | hnew
  · refine h.decided old hold hdecided (le_trans ?_ hnewest)
    exact ((sublist_append_left _ _).filter _).length_le
  · rw [mem_singleton.mp hnew] at hdecided
    exact absurd hpending hdecided

theorem Written.step (h : Written node) {next : IngressStep} (hnext : Kept P node next) :
    Written (step P json localIdentity node next) := by
  have hdecide (status : IngressStatus) (now : UInt64) (ingressId : String) :
      Written (decideIngress status now ingressId true node).2 := by
    obtain ⟨e, he⟩ | ⟨_, queue, -, heq⟩ := decideIngress_cases status now ingressId true node
    · rwa [he]
    · rw [heq]
      exact written_persist _
  cases next with
  | submit now receiverId encryptedObject expiresAt saved =>
    dsimp only [Ingress.step]
    obtain ⟨e, he⟩ | ⟨new, -, hpending, heq⟩ := submitIngress_cases P json localIdentity now
      receiverId encryptedObject expiresAt saved node
    · rwa [he]
    · rw [heq]
      cases saved with
      | true => exact written_persist _
      | false => exact h.push hpending
  | accept now ingressId saved =>
    obtain rfl : saved = true := hnext
    exact hdecide .accepted now ingressId
  | reject now ingressId saved =>
    obtain rfl : saved = true := hnext
    exact hdecide .rejected now ingressId
  | restart now =>
    refine ⟨fun record hmem _ _ => ?_, h.restored⟩
    obtain ⟨persisted, hfile, rfl⟩ := mem_map.mp hmem
    rw [h.restored persisted (mem_of_mem_filter hfile)]
    exact mem_of_mem_filter hfile

section

variable {status : IngressStatus} {expiresAt : Option UInt64}
  (h : Decided ingressId status expiresAt node) (hdistinct : Distinct node)
include h hdistinct

/-- A step keeps a decision, unless the time of the object is over when the daemon restarts. -/
theorem Decided.step (hwritten : Written node) {next : IngressStep}
    (hnext : Kept P node next)
    (hunexpired : ∀ now, next = .restart now → unexpired now expiresAt = true) :
    Decided ingressId status expiresAt (step P json localIdentity node next) := by
  obtain ⟨record, hrecord, hid, hstatus, hdecided, hexpires⟩ := h
  have hkept (node' : IngressNode) (hmem : record ∈ node'.pendingIngress.records) :
      Decided ingressId status expiresAt node' := ⟨record, hmem, hid, hstatus, hdecided, hexpires⟩
  have hdecide (status' : IngressStatus) (now : UInt64) (ingressId' : String) (saved : Bool) :
      Decided ingressId status expiresAt (decideIngress status' now ingressId' saved node).2 := by
    obtain ⟨e, he⟩ | ⟨_, queue, hqueue, heq⟩ :=
      decideIngress_cases status' now ingressId' saved node
    · rw [he]
      exact hkept _ hrecord
    · rw [heq]
      refine hkept _ ?_
      rw [persist_pendingIngress]
      exact (hdistinct.decided hqueue).2 record hrecord (by rwa [hstatus])
  cases next with
  | submit now receiverId encryptedObject expiresAt' saved =>
    dsimp only [Ingress.step]
    obtain ⟨e, he⟩ | ⟨new, -, -, heq⟩ := submitIngress_cases P json localIdentity now receiverId
      encryptedObject expiresAt' saved node
    · rw [he]
      exact hkept _ hrecord
    · rw [heq]
      refine hkept _ ?_
      rw [persist_pendingIngress]
      exact mem_append_left _ hrecord
  | restart now =>
    have hlive : unexpired now record.expiresAt = true := by
      rw [hexpires]
      exact hunexpired now rfl
    have hpending : record.status ≠ .pending := by rwa [hstatus]
    have hfile := hwritten.decided record hrecord hpending (hnext record hrecord hpending hlive)
    refine ⟨record.persist.restore, mem_map_of_mem (mem_filter.mpr ⟨hfile, hlive⟩), hid, ?_,
      hdecided, hexpires⟩
    exact (ofText_toText record.status).trans hstatus
  | _ => exact hdecide _ _ _ _

theorem Decided.final : (∀ record ∈ node.pendingIngress.listPending, record.ingressId ≠ ingressId) ∧
      ∀ status' now record queue, node.pendingIngress.decide ingressId status' now =
        .ok (record, queue) → record.status = status := by
  obtain ⟨record, hrecord, rfl, rfl, hdecided, -⟩ := h
  constructor
  · intro pending hpending hid
    obtain ⟨hmem, hstatus⟩ := mem_filter.mp hpending
    obtain rfl := inj_on_of_nodup_map hdistinct.1 hmem hrecord hid
    exact hdecided (by simpa using hstatus)
  · intro status' now decided queue hdecide
    obtain ⟨found, hfind, hcases⟩ := decide_eq_ok hdecide
    rw [find?_of_mem hdistinct.1 hrecord] at hfind
    cases hfind
    obtain ⟨-, rfl, -⟩ | ⟨-, hpending, -⟩ := hcases
    · rfl
    · exact absurd hpending hdecided

end

end

variable {envelope : EncryptedObjectEnvelope}

/-- Once an object has been accepted or rejected, it is not listed as pending again and not reported
with the other decision, as long as its time is not over at a restart. -/
def DecisionsFinal (P : Primitives) (json : EnvelopeJson) (localIdentity : IdentityId)
    (steps : List IngressStep) : Prop :=
  ∀ before after, steps = before ++ after → ∀ ingressId record,
    (run P json localIdentity before).pendingIngress.records.find? (·.ingressId = ingressId) =
      some record → record.status ≠ .pending →
    (∀ now, .restart now ∈ after → unexpired now record.expiresAt = true) →
    (∀ pending ∈ (run P json localIdentity steps).pendingIngress.listPending,
      pending.ingressId ≠ ingressId) ∧
    ∀ status now decided queue, (run P json localIdentity steps).pendingIngress.decide ingressId
      status now = .ok (decided, queue) → decided.status = record.status

/-- **Decisions are final** in the histories in which no object is submitted of which there is a
record, the writes of decisions succeed, and what has been decided is among the newest records at
every restart. -/
theorem decisions_final (P : Primitives) (json : EnvelopeJson) (localIdentity : IdentityId)
    (steps : List IngressStep) (hsteps : Along (step P json localIdentity) (Kept P) .init steps) :
    DecisionsFinal P json localIdentity steps := by
  rintro before after rfl ingressId record hfind hdecided hunexpired
  obtain ⟨hbefore, hafter⟩ := along_append.mp hsteps
  have hinit : Distinct .init ∧ Written .init :=
    ⟨⟨nodup_nil, nodup_nil⟩, forall_mem_nil _, forall_mem_nil _⟩
  have hat : Distinct (run P json localIdentity before) ∧
    Written (run P json localIdentity before) :=
    hbefore.invariant (I := fun node => Distinct node ∧ Written node)
      (fun _ _ h hnext => ⟨h.1.step hnext, h.2.step hnext⟩) hinit
  have hid : record.ingressId = ingressId := by simpa using find?_some hfind
  have hdone : Decided ingressId record.status record.expiresAt (run P json localIdentity before) :=
    ⟨record, mem_of_find?_eq_some hfind, hid, rfl, hdecided, rfl⟩
  have hlive : ∀ next ∈ after, ∀ now, next = IngressStep.restart now →
      unexpired now record.expiresAt = true := by
    rintro next hnext now rfl
    exact hunexpired now hnext
  rw [run, foldl_append]
  obtain ⟨hdistinct, -, hend⟩ := (hafter.and (along_of_forall_mem hlive)).invariant
    (I := fun node => Distinct node ∧ Written node ∧
      Decided ingressId record.status record.expiresAt node)
    (fun _ _ h hnext =>
      ⟨h.1.step hnext.1, h.2.1.step hnext.1, h.2.2.step h.1 h.2.1 hnext.1 hnext.2⟩)
    ⟨hat.1, hat.2, hdone⟩
  exact hend.final hdistinct

/-! ### An object that is sent again -/

/-- An object for the owner that its node takes in. -/
theorem exists_object : ∃ object envelope, checkEnvelope primitives json owner object =
    .ok envelope := by
  obtain ⟨envelope, henvelope⟩ : ∃ envelope, encryptAs primitives ciphers
      sampleDrawn (key 0) [1, 2, 3] "text/plain" none [(reader 9 "enc_1").1] 5 = .ok envelope :=
    exists_encryptAs fun recipient hmem => by
      rw [mem_singleton.mp hmem]
      exact ⟨⟨rfl, rfl, rfl, rfl, rfl⟩, (reader 9 "enc_1").2, holdsKey_reader 9 "enc_1"⟩
  obtain ⟨_, wraps, -, hwraps, hbody, -⟩ := encryptAs_eq_ok.mp henvelope
  obtain ⟨wrap, hwrap, hrecipient⟩ : ∃ wrap ∈ wraps, wrap.recipientIdentity = owner := by
    obtain ⟨wrap, hwrap, _, hcontent⟩ :=
      exists_wrap_of_wrapAll hwraps (reader 9 "enc_1").1 mem_cons_self
    exact ⟨wrap, hwrap, (wrapContentKey_eq_ok.mp hcontent).2.2.1⟩
  refine ⟨json.toVec envelope, envelope, ?_⟩
  simp only [checkEnvelope, bind_eq_ok, mapError_eq_ok, ensure_eq_ok, pure_eq_ok]
  refine ⟨envelope, fromBytes_toVec henvelope, (), verifySignature_encryptAs henvelope, (), ?_, rfl⟩
  rw [hbody]
  exact any_eq_true.mpr ⟨wrap, hwrap, decide_eq_true hrecipient⟩

/-- The object arrives and is accepted. -/
def acceptedSteps (object : Bytes) : List IngressStep :=
  [.submit 1 "receiver" object none true, .accept 2 (ingressIdOf primitives object) true]

section

variable {object : Bytes} (hobject : checkEnvelope primitives json owner object = .ok envelope)
include hobject

theorem submit_object (node : IngressNode) (now : UInt64) (saved : Bool) :
    (submitIngress primitives json owner now "receiver" object none saved node).2 =
      (persistIngressQueue saved { node with
        pendingIngress := node.pendingIngress.push
          (arrived primitives owner now "receiver" object none envelope) }).2 := by
  simp only [submitIngress, hobject]
  rfl

theorem run_accepted :
    let accepted := (arrived primitives owner 1 "receiver" object none envelope).decideAs
      .accepted 2
    run primitives json owner (acceptedSteps object) = ⟨⟨[accepted]⟩, [accepted.persist]⟩ := by
  intro accepted
  let record := arrived primitives owner 1 "receiver" object none envelope
  have hsubmitted : step primitives json owner .init
      (.submit 1 "receiver" object none true) = ⟨⟨[record]⟩, [record.persist]⟩ := by
    rw [step, submit_object hobject]
    rfl
  simp only [acceptedSteps, run, foldl_cons, hsubmitted, foldl_nil]
  have hdecide : IngressQueue.decide ⟨[record]⟩ (ingressIdOf primitives object) .accepted 2 =
      .ok (accepted, ⟨[accepted]⟩) := by
    have hid : decide (record.ingressId = ingressIdOf primitives object) = true :=
      decide_eq_true rfl
    have hfind : [record].find? (·.ingressId = ingressIdOf primitives object) = some record :=
      find?_cons_of_pos hid
    have hupdate : updateFirst (·.ingressId = ingressIdOf primitives object)
        (·.decideAs .accepted 2) [record] = [accepted] := if_pos hid
    simp only [IngressQueue.decide, IngressQueue.find, hfind, hupdate]
    rfl
  simp only [step, acceptIngress, decideIngress, read_bind, id, hdecide]
  rfl

theorem find?_accepted :
    ∃ record, (run primitives json owner (acceptedSteps object)).pendingIngress.records.find?
          (·.ingressId = ingressIdOf primitives object) = some record ∧
      record.status ≠ .pending ∧ record.expiresAt = none := by
  rw [run_accepted hobject]
  exact ⟨_, find?_cons_of_pos (decide_eq_true rfl), nofun, rfl⟩

end

/-- The object is accepted, and the daemon restarts. -/
theorem accepted_object_stays_accepted : ∃ object, ∀ pending ∈ (run primitives SampleCiphers.json
      owner (acceptedSteps object ++ [.restart 3])).pendingIngress.listPending,
      pending.ingressId ≠ ingressIdOf primitives object := by
  obtain ⟨object, envelope, hobject⟩ := exists_object
  have hkept : Along (step primitives json owner) (Kept primitives) .init
      (acceptedSteps object ++ [.restart 3]) := by
    refine along_append.mpr ⟨⟨fun _ h => by (cases h), rfl, trivial⟩, ?_, trivial⟩
    intro record _ _ _
    refine (length_filter_le _ _).trans ?_
    change (run primitives json owner (acceptedSteps object)).pendingIngress.records.length ≤ _
    rw [run_accepted hobject]
    exact (by decide : 1 ≤ maxPersistedIngressRecords)
  obtain ⟨record, hfind, hdecided, hexpires⟩ := find?_accepted hobject
  refine ⟨object, (decisions_final _ _ _ _ hkept (acceptedSteps object) [.restart 3] rfl _ record
    hfind hdecided fun _ _ => ?_).1⟩
  rw [hexpires]
  rfl

/-- The object is accepted and sent again, and is then listed as pending. -/
theorem accepted_object_pending_again :
    ¬ ∀ steps, DecisionsFinal primitives SampleCiphers.json owner steps := by
  intro h
  obtain ⟨object, envelope, hobject⟩ := exists_object
  obtain ⟨record, hfind, hdecided, hexpires⟩ := find?_accepted hobject
  let retry : IngressStep := .submit 3 "receiver" object none true
  have hfinal := (h (acceptedSteps object ++ [retry]) (acceptedSteps object) [retry] rfl _ record
    hfind hdecided fun _ hmem => by simp [retry] at hmem).1
  refine hfinal (arrived primitives owner 3 "receiver" object none envelope) ?_ rfl
  rw [run, foldl_append]
  change _ ∈ (step primitives json owner (run primitives json owner (acceptedSteps object))
    retry).pendingIngress.listPending
  rw [step, submit_object hobject, persist_pendingIngress]
  exact mem_filter.mpr ⟨mem_append_right _ (mem_singleton_self _), rfl⟩

end Jolt.Network.Ingress
