import Jolt.Core.DeviceWriterLog
import Jolt.Lib.HashLinks

/-! # The shape of a device log

`verifyDeviceLogShape` accepts a log exactly if it is a hash chain of one device that starts at
sequence `0` (`verifyDeviceLogShape_eq_ok_iff`). So the entry at index `i` has sequence `i`,
sequences ascend, a prefix of such a log is again one, and its bodies are linked by their hashes. -/

namespace Jolt.Merge.Shape

open Lib.Checks Lib.HashLinks Jolt.Core Jolt.Core.Types DeviceWriterLog List

section

variable (P : Primitives)

structure ValidEntry (identity : IdentityId) (deviceId : String) (e : DeviceWriterLogEntry) :
    Prop where
  body : DeviceWriterLog.validateBody e.body = .ok ()
  identity : e.body.identity = identity
  deviceId : e.body.deviceId = deviceId

def Follows (a b : DeviceWriterLogEntry) : Prop :=
  b.body.deviceSequence.toNat = a.body.deviceSequence.toNat + 1 ∧ b.body.previousEntryHash =
    some (a.entryHash P)

def Genesis (e : DeviceWriterLogEntry) : Prop := e.body.deviceSequence = 0 ∧
    e.body.previousEntryHash = none

/-- **A device log**: valid entries of one device, each after the one before, from a genesis entry
on. -/
structure DeviceLog (identity : IdentityId) (deviceId : String) (log : List DeviceWriterLogEntry) :
    Prop where
  valid : ∀ e ∈ log, ValidEntry identity deviceId e
  chain : log.IsChain (Follows P)
  genesis : ∀ e ∈ log.head?, Genesis e

end

variable {P : Primitives} {identity : IdentityId} {deviceId : String}
  {log : List DeviceWriterLogEntry}

theorem verifyEntryShape_none_eq_ok_iff {index : ℕ} {e : DeviceWriterLogEntry} :
    verifyEntryShape P identity deviceId index none e = .ok () ↔ ValidEntry identity deviceId e ∧
      Genesis e := by
  simp only [verifyEntryShape, bind_eq_ok, ensure_eq_ok, Genesis]
  constructor
  · rintro ⟨_, hb, _, hi, _, hd, _, hs, hp⟩
    exact ⟨⟨hb, hi, hd⟩, hs, hp⟩
  · rintro ⟨⟨hb, hi, hd⟩, hs, hp⟩
    exact ⟨(), hb, (), hi, (), hd, (), hs, hp⟩

theorem verifyEntryShape_some_eq_ok_iff {index : ℕ} {previous e : DeviceWriterLogEntry} :
    verifyEntryShape P identity deviceId index (some previous) e = .ok () ↔
      ValidEntry identity deviceId e ∧ Follows P previous e := by
  simp only [verifyEntryShape, bind_eq_ok, ensure_eq_ok, Follows]
  constructor
  · rintro ⟨_, hb, _, hi, _, hd, _, hs, hp⟩
    exact ⟨⟨hb, hi, hd⟩, hs, hp⟩
  · rintro ⟨⟨hb, hi, hd⟩, hs, hp⟩
    exact ⟨(), hb, (), hi, (), hd, (), hs, hp⟩

theorem verifyEntryShapes_some_eq_ok_iff :
    ∀ {log : List DeviceWriterLogEntry} {index : ℕ} {previous : DeviceWriterLogEntry},
      verifyEntryShapes P identity deviceId index (some previous) log = .ok () ↔
        (∀ e ∈ log, ValidEntry identity deviceId e) ∧ (previous :: log).IsChain (Follows P)
  | [], _, _ => by simp [verifyEntryShapes]
  | e :: log, index, previous => by
    have ih : verifyEntryShapes P identity deviceId (index + 1) (some e) log = .ok () ↔
        (∀ d ∈ log, ValidEntry identity deviceId d) ∧ (e :: log).IsChain (Follows P) :=
      verifyEntryShapes_some_eq_ok_iff
    simp only [verifyEntryShapes, bind_eq_ok]
    rw [isChain_cons_cons, forall_mem_cons]
    constructor
    · rintro ⟨_, h, hrest⟩
      obtain ⟨hv, hf⟩ := verifyEntryShape_some_eq_ok_iff.mp h
      obtain ⟨hvs, hc⟩ := ih.mp hrest
      exact ⟨⟨hv, hvs⟩, hf, hc⟩
    · rintro ⟨⟨hv, hvs⟩, hf, hc⟩
      exact ⟨(), verifyEntryShape_some_eq_ok_iff.mpr ⟨hv, hf⟩, ih.mpr ⟨hvs, hc⟩⟩

/-- **What the shape check accepts**, for a log that is not empty. -/
theorem verifyDeviceLogShape_eq_ok_iff {first : DeviceWriterLogEntry}
    {rest : List DeviceWriterLogEntry} :
    verifyDeviceLogShape P identity (first :: rest) = .ok () ↔
      DeviceLog P identity first.body.deviceId (first :: rest) := by
  simp only [verifyDeviceLogShape, verifyEntryShapes, bind_eq_ok]
  constructor
  · rintro ⟨_, h, hrest⟩
    obtain ⟨hv, hg⟩ := verifyEntryShape_none_eq_ok_iff.mp h
    obtain ⟨hvs, hc⟩ := verifyEntryShapes_some_eq_ok_iff.mp hrest
    exact ⟨forall_mem_cons.mpr ⟨hv, hvs⟩, hc, by simpa using hg⟩
  · rintro ⟨hv, hc, hg⟩
    obtain ⟨hv, hvs⟩ := forall_mem_cons.mp hv
    exact ⟨(), verifyEntryShape_none_eq_ok_iff.mpr ⟨hv, hg first rfl⟩,
      verifyEntryShapes_some_eq_ok_iff.mpr ⟨hvs, hc⟩⟩

theorem verifyDeviceLogShape_iff_exists :
    verifyDeviceLogShape P identity log = .ok () ↔
      ∃ deviceId, DeviceLog P identity deviceId log := by
  cases log with
  | nil => exact ⟨fun _ => ⟨"", by simp, by simp, by simp⟩, fun _ => rfl⟩
  | cons first rest =>
    rw [verifyDeviceLogShape_eq_ok_iff]
    refine ⟨fun h => ⟨_, h⟩, fun ⟨deviceId, h⟩ => ?_⟩
    rwa [(h.valid first mem_cons_self).deviceId]

/-! ### Consequences -/

def deviceBodyHash (P : Primitives) (body : DeviceWriterLogEntryBody) : DeviceWriterLogEntryHash :=
  ⟨P.blake3 (body.canonicalBytes P)⟩

namespace DeviceLog

theorem of_isPrefix (h : DeviceLog P identity deviceId log) {short : List DeviceWriterLogEntry}
    (hp : short <+: log) : DeviceLog P identity deviceId short where
  valid e he := h.valid e (hp.subset he)
  chain := h.chain.prefix hp
  genesis e he := by
    cases short with
    | nil => simp at he
    | cons first rest =>
      obtain ⟨tail, rfl⟩ := hp
      exact h.genesis e (by simpa using he)

theorem previousEntryHash_concat {last : DeviceWriterLogEntry}
    (h : DeviceLog P identity deviceId (log ++ [last])) :
    last.body.previousEntryHash = log.getLast?.map (·.entryHash P) := by
  cases hl : log.getLast? with
  | none =>
    rw [getLast?_eq_none_iff] at hl
    subst hl
    exact (h.genesis last rfl).2
  | some e =>
    have hchain := (isChain_append.mp h.chain).2.2 e hl last rfl
    exact hchain.2

theorem linked (h : DeviceLog P identity deviceId log) :
    Linked (·.previousEntryHash) (deviceBodyHash P) (log.map (·.body)) := by
  induction log using List.reverseRecOn with
  | nil => exact Linked.nil
  | append_singleton log entry ih =>
    rw [map_append, map_singleton]
    refine (ih (h.of_isPrefix (prefix_append log [entry]))).concat ?_
    rw [h.previousEntryHash_concat, getLast?_map, Option.map_map]
    rfl

theorem pairwise_lt (h : DeviceLog P identity deviceId log) :
    log.Pairwise fun a b => a.body.deviceSequence < b.body.deviceSequence := by
  refine isChain_iff_pairwise.mp (h.chain.imp fun a b hab => ?_)
  rw [UInt64.lt_iff_toNat_lt, hab.1]
  omega

theorem toNat_deviceSequence (h : DeviceLog P identity deviceId log) :
    ∀ (i : ℕ) (hi : i < log.length), log[i].body.deviceSequence.toNat = i
  | 0, hi => by
    cases log with
    | nil => simp at hi
    | cons first rest => simp [(h.genesis first rfl).1]
  | i + 1, hi => by
    have ih := h.toNat_deviceSequence i (by omega)
    have hf := (isChain_iff_getElem.mp h.chain) i hi
    rw [hf.1, ih]

end DeviceLog

end Jolt.Merge.Shape
