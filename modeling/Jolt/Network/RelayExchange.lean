import Jolt.Core.Sample
import Jolt.Core.SignedRecords
import Jolt.Lib.Sorting

/-! # Relay records for an exchange

The records of relays that a node passes on (`relay_records_for_exchange` in `relays.rs`): those of
its address book (`record_relay_record` in `store.rs`) and, if it is a relay, one that it signs
anew. They are sorted by the text of the relay id, the first record of each relay is kept, and
stored records come first. So an own record that others have sent back wins over the new one
(`own_record_stale`), and the own record is left out if enough relays come before it. These are the
only ways in which an exchange is not fresh (`exchange_fresh_iff`). -/

namespace Jolt.Network.RelayExchange

open Core.Types Core.SignedRecords Lib.Checks Lib.Sorting List
open Core.Sample (key primitives)

structure RelayRecord where
  body : RelayRecordBody
  signature : Bytes
deriving DecidableEq

inductive RelayRecordError where
  | invalidRelayPublicKey
  | invalidSignatureLength
  | invalidSignature
  | relayIdMismatch
  | expiredRecord
  | invalidTimeRange

/-- `key` is the signing key of the identity. -/
structure NetworkNode where
  key : Bytes32
  bootstrapRelay : Bool
  localPeerId : String
  listeners : List String

variable (P : Primitives)

def RelayRecord.verifyAt (record : RelayRecord) (now : UInt64) : Except RelayRecordError Unit := do
  ensure (record.body.observedAt < record.body.expiresAt) .invalidTimeRange
  ensure (record.body.relayPublicKey.length = 32) .invalidRelayPublicKey
  ensure (record.body.relayId.publicKey.bytes = record.body.relayPublicKey) .relayIdMismatch
  ensure (record.signature.length = 64) .invalidSignatureLength
  ensure (P.keyFromBytes record.body.relayPublicKey = true) .invalidRelayPublicKey
  ensure (P.verify record.body.relayPublicKey (record.body.canonicalBytes P) record.signature =
    true) .invalidSignature
  ensure (now < record.body.expiresAt) .expiredRecord

def relayRecordMatchesCapabilities (record : RelayRecord)
    (capabilities : List RelayRecordCapability) : Bool :=
  capabilities.isEmpty || capabilities.any (· ∈ record.body.capabilities)

/-! ### The address book -/

structure StoredRelayRecord where
  relayRecord : RelayRecord
  firstSeen : UInt64
  lastSeen : UInt64
  lastSuccess : Option UInt64
  failureCount : UInt32

def StoredRelayRecord.relayId (stored : StoredRelayRecord) : IdentityId :=
  stored.relayRecord.body.relayId

inductive StoreError where
  | invalidRelayRecord (error : RelayRecordError)
  | io (message : String)

/-- The record of a relay that is seen again is replaced by one that is not older. -/
def StoredRelayRecord.seenAgain (existing : StoredRelayRecord) (record : RelayRecord)
    (seenAt : UInt64) : StoredRelayRecord :=
  { existing with
    relayRecord :=
      if existing.relayRecord.body.observedAt ≤ record.body.observedAt then record
      else existing.relayRecord
    lastSeen := seenAt
    failureCount := 0 }

/-- At most one record is of the relay (`AddressBook`), so that all that are of it are changed. -/
def insertRecord (records : List StoredRelayRecord) (record : RelayRecord) (seenAt : UInt64) :
    List StoredRelayRecord :=
  if records.any (·.relayId = record.body.relayId) then
    records.map fun existing =>
      if existing.relayId = record.body.relayId then existing.seenAgain record seenAt else existing
  else records ++ [⟨record, seenAt, seenAt, none, 0⟩]

theorem nodup_insertRecord {records : List StoredRelayRecord} {record : RelayRecord}
    {seenAt : UInt64} (h : (records.map (·.relayId)).Nodup) :
    ((insertRecord records record seenAt).map (·.relayId)).Nodup := by
  unfold insertRecord
  split_ifs with hany
  · rw [map_map]
    refine (congrArg Nodup (map_congr_left fun existing _ => ?_)).mp h
    dsimp only [Function.comp_apply]
    split_ifs with hid
    · unfold StoredRelayRecord.seenAgain StoredRelayRecord.relayId
      dsimp only
      split_ifs
      · exact hid
      · rfl
    · rfl
  · rw [map_append]
    refine nodup_append.mpr ⟨h, nodup_singleton _, fun id hid id' hid' heq => hany ?_⟩
    obtain ⟨existing, hexisting, rfl⟩ := mem_map.mp hid
    exact any_eq_true.mpr ⟨existing, hexisting, decide_eq_true (heq.trans (mem_singleton.mp hid'))⟩

/-- What `relay_records.json` holds. Only `record_relay_record` changes the records in it; the marks
for failures and successes change the counters. -/
structure AddressBook where
  records : List StoredRelayRecord
  nodup : (records.map (·.relayId)).Nodup

namespace AddressBook

def empty : AddressBook := ⟨[], nodup_nil⟩

/-- `MAX_STORED_RELAY_RECORDS` is 64. `saved` is the outcome of writing the file. -/
def recordRelayRecord (book : AddressBook) (record : RelayRecord) (seenAt : UInt64)
    (saved : Except String Unit) : Except StoreError AddressBook := do
  (record.verifyAt P seenAt).mapError .invalidRelayRecord
  saved.mapError .io
  return {
    records := (sortBy (fun a b => compare b.lastSeen a.lastSeen)
      (insertRecord book.records record seenAt)).take 64
    nodup := (((perm_sortBy _ _).map _).nodup_iff.mpr (nodup_insertRecord book.nodup)).sublist
      ((take_sublist _ _).map _) }

/-- The records that are valid. A book that cannot be read counts as `empty`. -/
def loadRelayRecords (book : AddressBook) (now : UInt64) : List RelayRecord :=
  (book.records.map (·.relayRecord)).filter fun record => (record.verifyAt P now).isOk

end AddressBook

/-! ### The exchange -/

namespace NetworkNode

variable (node : NetworkNode)

def relayId : IdentityId := .fromPublicKey (P.verifyingKey node.key)

/-- `RELAY_RECORD_TTL_SECS` is an hour. -/
def localRelayRecord (now : UInt64) : Option RelayRecord :=
  if !node.bootstrapRelay then none
  else
    let body : RelayRecordBody :=
      ⟨node.relayId P, (P.verifyingKey node.key).bytes, node.localPeerId, node.listeners,
        [.bootstrap, .discovery, .pinning], now, now + 3600⟩
    some ⟨body, P.sign node.key (body.canonicalBytes P)⟩

variable (book : AddressBook) (limit : ℕ) (capabilities : List RelayRecordCapability) (now : UInt64)

/-- The records that match, stored ones first. -/
def candidates : List RelayRecord :=
  (book.loadRelayRecords P now ++ (node.localRelayRecord P now).toList).filter
    (relayRecordMatchesCapabilities · capabilities)

def relayOrder (a b : RelayRecord) : Ordering :=
  compareOn (fun record : RelayRecord => P.identityToString record.body.relayId) a b

/-- One record of each relay, in the order of the relay ids. -/
def onePerRelay : List RelayRecord :=
  (sortBy (relayOrder P) (node.candidates P book capabilities now)).destutter
    (·.body.relayId ≠ ·.body.relayId)

/-- `RELAY_EXCHANGE_MAX_RECORDS` is 32. -/
def relayRecordsForExchange : List RelayRecord :=
  (node.onePerRelay P book capabilities now).take (min limit 32)

/-! ### Freshness -/

/-- What is passed on has one record of a relay, the newest there is, and the node's own. -/
structure Fresh : Prop where
  nodup : ((node.relayRecordsForExchange P book limit capabilities now).map (·.body.relayId)).Nodup
  newest : ∀ record ∈ node.relayRecordsForExchange P book limit capabilities now,
    ∀ other ∈ node.candidates P book capabilities now, other.body.relayId = record.body.relayId →
      other.body.observedAt ≤ record.body.observedAt
  own : ∀ own ∈ node.localRelayRecord P now, relayRecordMatchesCapabilities own
    capabilities = true →
    own ∈ node.relayRecordsForExchange P book limit capabilities now

/-- The stored records that match. -/
def matching : List RelayRecord :=
  (book.loadRelayRecords P now).filter (relayRecordMatchesCapabilities · capabilities)

/-- No other record of the node is stored. -/
def NoOther (own : RelayRecord) : Prop :=
  ∀ stored ∈ matching P book capabilities now, stored.body.relayId = own.body.relayId → stored = own

/-- Fewer relays than are passed on come before the node. -/
def HasRoom (own : RelayRecord) : Prop :=
  ((matching P book capabilities now).filter (relayOrder P · own = .lt)).length < min limit 32

end NetworkNode

open NetworkNode

variable {P} {node : NetworkNode} {book : AddressBook} {capabilities : List RelayRecordCapability}
  {now : UInt64} {limit : ℕ} {own record other : RelayRecord}

theorem relayOrder_eq_iff (a b : RelayRecord) :
    relayOrder P a b = .eq ↔ a.body.relayId = b.body.relayId :=
  compareOn_eq_iff.trans P.identityText.text_injective.eq_iff

instance transCmp_relayOrder : Std.TransCmp (relayOrder P) :=
  inferInstanceAs (Std.TransCmp (compareOn fun record : RelayRecord =>
    P.identityToString record.body.relayId))

theorem mem_candidates : record ∈ node.candidates P book capabilities now ↔
    record ∈ matching P book capabilities now ∨ record ∈ node.localRelayRecord P now ∧
      relayRecordMatchesCapabilities record capabilities = true := by
  simp only [NetworkNode.candidates, matching, filter_append, mem_append, mem_filter,
    Option.mem_toList, Option.mem_def]

theorem nodup_matching : ((matching P book capabilities now).map (·.body.relayId)).Nodup := by
  have hnodup := book.nodup
  rw [show (fun stored : StoredRelayRecord => stored.relayId) =
    (·.body.relayId) ∘ (·.relayRecord) from rfl, ← map_map] at hnodup
  exact hnodup.sublist ((filter_sublist.trans filter_sublist).map _)

theorem eq_of_mem_matching (hrecord : record ∈ matching P book capabilities now)
    (hother : other ∈ matching P book capabilities now)
    (hid : other.body.relayId = record.body.relayId) : other = record :=
  inj_on_of_nodup_map nodup_matching hother hrecord hid

theorem pairwise_onePerRelay :
    (node.onePerRelay P book capabilities now).Pairwise fun a b => relayOrder P a b = .lt :=
  pairwise_destutter relayOrder_eq_iff (pairwise_sortBy _)

theorem mem_onePerRelay_iff : record ∈ node.onePerRelay P book capabilities now ↔
    (node.candidates P book capabilities now).find? (·.body.relayId = record.body.relayId) =
      some record :=
  mem_destutter_sortBy_iff relayOrder_eq_iff

theorem mem_candidates_of_mem (h : record ∈ node.onePerRelay P book capabilities now) :
    record ∈ node.candidates P book capabilities now :=
  mem_of_find?_eq_some (mem_onePerRelay_iff.mp h)

theorem exists_find?_of_mem {records : List RelayRecord} {relayId : IdentityId}
    (hmem : record ∈ records) (hid : record.body.relayId = relayId) :
    ∃ found, records.find? (·.body.relayId = relayId) = some found :=
  Option.isSome_iff_exists.mp (find?_isSome.mpr ⟨record, hmem, decide_eq_true hid⟩)

theorem mem_onePerRelay_of_unique (hrecord : record ∈ node.candidates P book capabilities now)
    (hunique : ∀ other ∈ node.candidates P book capabilities now,
      other.body.relayId = record.body.relayId → other = record) :
    record ∈ node.onePerRelay P book capabilities now := by
  obtain ⟨found, hfound⟩ := exists_find?_of_mem hrecord rfl
  have hid := find?_some hfound
  rw [decide_eq_true_eq] at hid
  rw [hunique found (mem_of_find?_eq_some hfound) hid] at hfound
  exact mem_onePerRelay_iff.mpr hfound

/-- Stored records come first, so the own record is kept only if no other of the node is stored. -/
theorem noOther_of_mem (h : own ∈ node.onePerRelay P book capabilities now) :
    NoOther P book capabilities now own := by
  intro stored hstored hid
  have hfind := mem_onePerRelay_iff.mp h
  obtain ⟨found, hfound⟩ := exists_find?_of_mem hstored hid
  rw [candidates, filter_append, find?_append, ← matching, hfound, Option.some_or] at hfind
  rw [← Option.some.inj hfind] at hid ⊢
  exact eq_of_mem_matching (mem_of_find?_eq_some hfound) hstored hid

section

variable (hown : own ∈ node.localRelayRecord P now)
  (hmatch : relayRecordMatchesCapabilities own capabilities = true)
  (hother : NoOther P book capabilities now own)
include hown hother

theorem eq_own_of_mem (h : record ∈ node.candidates P book capabilities now)
    (hid : record.body.relayId = own.body.relayId) : record = own := by
  rcases mem_candidates.mp h with hstored | ⟨hlocal, -⟩
  · exact hother record hstored hid
  · exact Option.some.inj (hlocal.symm.trans hown)

include hmatch

theorem own_mem_onePerRelay : own ∈ node.onePerRelay P book capabilities now :=
  mem_onePerRelay_of_unique (mem_candidates.mpr (.inr ⟨hown, hmatch⟩))
    fun _ => eq_own_of_mem hown hother

/-- The records up to the own one are the own one and the stored ones before it. -/
theorem perm_upTo_own :
    ((node.onePerRelay P book capabilities now).filter fun record =>
      (relayOrder P record own).isLE).Perm
      (own :: (matching P book capabilities now).filter (relayOrder P · own = .lt)) := by
  have hrefl : relayOrder P own own = .eq := (relayOrder_eq_iff own own).mpr rfl
  refine (perm_ext_iff_of_nodup ?_ ?_).mpr fun record => ?_
  · refine Nodup.filter _ (pairwise_onePerRelay.imp fun {a b} hlt heq => ?_)
    rw [heq, (relayOrder_eq_iff b b).mpr rfl] at hlt
    cases hlt
  · refine nodup_cons.mpr ⟨fun hmem => ?_, (Nodup.of_map _ nodup_matching).filter _⟩
    have hlt := of_decide_eq_true (mem_filter.mp hmem).2
    rw [hrefl] at hlt
    cases hlt
  · rw [mem_filter, mem_cons, mem_filter, decide_eq_true_eq]
    constructor
    · rintro ⟨hmem, hle⟩
      by_cases hid : record.body.relayId = own.body.relayId
      · exact .inl (eq_own_of_mem hown hother (mem_candidates_of_mem hmem) hid)
      · refine .inr ⟨?_, lt_of_isLE_of_ne relayOrder_eq_iff hle hid⟩
        refine (mem_candidates.mp (mem_candidates_of_mem hmem)).resolve_right fun hlocal => hid ?_
        rw [Option.some.inj (hlocal.1.symm.trans hown)]
    · rintro (rfl | ⟨hmem, hlt⟩)
      · exact ⟨own_mem_onePerRelay hown hmatch hother, by rw [hrefl]; rfl⟩
      · refine ⟨mem_onePerRelay_of_unique (mem_candidates.mpr (.inl hmem)) ?_, by rw [hlt]; rfl⟩
        intro found hfound hid
        rcases mem_candidates.mp hfound with hstored | ⟨hlocal, -⟩
        · exact eq_of_mem_matching hmem hstored hid
        · rw [Option.some.inj (hlocal.symm.trans hown)] at hid
          rw [(relayOrder_eq_iff record own).mpr hid.symm] at hlt
          cases hlt

theorem own_mem_exchange_iff :
    own ∈ node.relayRecordsForExchange P book limit capabilities now ↔
      HasRoom P book limit capabilities now own := by
  have hlength := (perm_upTo_own hown hmatch hother).length_eq
  have hrefl : relayOrder P own own = .eq := (relayOrder_eq_iff own own).mpr rfl
  rw [HasRoom, ← Nat.add_one_le_iff, ← length_cons, ← hlength]
  constructor
  · refine length_filter_le_of_mem_take (pairwise_onePerRelay.imp fun {a b} hlt heq => ?_)
    rw [heq] at hlt
    rw [@Std.OrientedCmp.eq_swap _ (relayOrder P) _ b own, hlt]
    rfl
  · refine mem_take_of_length_filter_le (pairwise_onePerRelay.imp fun {a b} hlt hle => ?_)
      (own_mem_onePerRelay hown hmatch hother) (by rw [hrefl]; rfl)
    exact Std.TransCmp.isLE_trans (by rw [hlt]; rfl) hle

end

theorem eq_of_mem_candidates
    (hown : ∀ own ∈ node.localRelayRecord P now,
      relayRecordMatchesCapabilities own capabilities = true → NoOther P book capabilities now own)
    (hrecord : record ∈ node.candidates P book capabilities now)
    (hother : other ∈ node.candidates P book capabilities now)
    (hid : other.body.relayId = record.body.relayId) : other = record := by
  rcases mem_candidates.mp hrecord with hstored | ⟨hlocal, hmatch⟩
  · rcases mem_candidates.mp hother with hstored' | ⟨hlocal, hmatch⟩
    · exact eq_of_mem_matching hstored hstored' hid
    · exact (hown other hlocal hmatch record hstored hid.symm).symm
  · exact eq_own_of_mem hlocal (hown record hlocal hmatch) hother hid

/-- **When an exchange is fresh.** For every address book, it is exactly if the node is no matching
relay, or no other record of the node is stored, valid and matching, and fewer relays than are
passed on come before the node in the order of relay ids. -/
theorem exchange_fresh_iff (node : NetworkNode) (book : AddressBook) (limit : ℕ)
    (capabilities : List RelayRecordCapability) (now : UInt64) :
    node.Fresh P book limit capabilities now ↔
      ∀ own ∈ node.localRelayRecord P now, relayRecordMatchesCapabilities own capabilities = true →
        NoOther P book capabilities now own ∧ HasRoom P book limit capabilities now own := by
  constructor
  · intro hfresh own hown hmatch
    have hmem := hfresh.own own hown hmatch
    have hother := noOther_of_mem (mem_of_mem_take hmem)
    exact ⟨hother, (own_mem_exchange_iff hown hmatch hother).mp hmem⟩
  · intro hcurrent
    refine ⟨?_, fun record hrecord other hother hid => ?_, fun own hown hmatch => ?_⟩
    · refine pairwise_map.mpr ((pairwise_onePerRelay.sublist (take_sublist _ _)).imp ?_)
      intro a b hlt hid
      rw [(relayOrder_eq_iff a b).mpr hid] at hlt
      cases hlt
    · have hmem := mem_candidates_of_mem (mem_of_mem_take hrecord)
      rw [eq_of_mem_candidates (fun own hown hmatch => (hcurrent own hown hmatch).1)
        hmem hother hid]
      exact UInt64.le_refl _
    · obtain ⟨hother, hroom⟩ := hcurrent own hown hmatch
      exact (own_mem_exchange_iff hown hmatch hother).mpr hroom

def relay : NetworkNode := ⟨key 1, true, "relay", []⟩

/-- A record that was sent back to the relay is passed on in the place of the current one. -/
theorem own_record_stale : ∃ old book, relay.localRelayRecord primitives 0 = some old ∧
    AddressBook.empty.recordRelayRecord primitives old 1 (.ok ()) = .ok book ∧
    relay.relayRecordsForExchange primitives book 32 [] 5 = [old] ∧
    ¬ relay.Fresh primitives book 32 [] 5 := by
  have hfacts : ((relay.localRelayRecord primitives 0).map fun old =>
      (AddressBook.empty.recordRelayRecord primitives old 1 (.ok ())).toOption.map fun book =>
        (decide (relay.relayRecordsForExchange primitives book 32 [] 5 = [old]),
          decide (relay.localRelayRecord primitives 5 ≠ some old))) = some (some (true, true)) := by
    decide +kernel
  obtain ⟨old, hold, hfacts⟩ := Option.map_eq_some_iff.mp hfacts
  obtain ⟨book, hbook, hfacts⟩ := exists_eq_ok_of_toOption_map hfacts
  obtain ⟨hpassed, hnew⟩ := Prod.mk.inj hfacts
  have hpassed := of_decide_eq_true hpassed
  refine ⟨old, book, hold, hbook, hpassed, fun hfresh => of_decide_eq_true hnew ?_⟩
  obtain ⟨own, hown⟩ : ∃ own, relay.localRelayRecord primitives 5 = some own := ⟨_, rfl⟩
  have hmem := hfresh.own own hown rfl
  rw [hpassed, mem_singleton] at hmem
  rw [hown, hmem]

end Jolt.Network.RelayExchange
