import Jolt.Publishing.AlignedRuns

/-! # A computable node

A node of the owner of the sample records, as it is built on an empty store, with the chains and
logs that another of the owner's devices can bring. The text forms of the sample are long to
evaluate, so the values that occur here get short names. -/

namespace Jolt.Publishing.SampleNode

open Jolt.Core Jolt.Core.Types IdentityAuthority DeviceWriterLog
open Network.Node hiding step run construct
open Writing LocalNode AlignedRuns

/-! ### Short names -/

/-- The text form, except that the value `a` is written `name`, which is no text so far. -/
def named {α : Type} [DecidableEq α] (form : TextForm α) (a : α) (name : String)
    (h : form.parse name = none) : TextForm α where
  text b := if b = a then name else form.text b
  parse s := if s = name then some a else form.parse s
  parse_text b := by
    by_cases hb : b = a
    · rw [if_pos hb, if_pos rfl, hb]
    · have hne : form.text b ≠ name := by
        intro htext
        have hparse := form.parse_text b
        rw [htext, h] at hparse
        cases hparse
      rw [if_neg hb, if_neg hne]
      exact form.parse_text b

/-- The content `[n]`, for the bytes that are published here. -/
def content (n : UInt8) : ContentId := ⟨Sample.digest [n]⟩

def identityText : TextForm IdentityId :=
  named (named Sample.identityText Sample.owner "owner" (by decide +kernel)) ⟨Sample.key 1⟩ "laptop"
    (by decide +kernel)

def contentIdText : TextForm ContentId :=
  named (named Sample.contentIdText (content 1) "one" (by decide +kernel)) (content 2) "two"
    (by decide +kernel)

def primitives : Primitives :=
  { Sample.primitives with identityText := identityText, contentIdText := contentIdText }

/-! ### The node -/

def keys : Keys := ⟨Sample.key 0, Sample.key 1, 1, 4⟩

def node : LocalNode := (construct primitives keys default .empty).2

theorem construct_eq : construct primitives keys default .empty = (.ok (), node) := by
  have h : (construct primitives keys default .empty).1.toOption = some () := by decide +kernel
  rcases hc : construct primitives keys default .empty with ⟨e | u, started⟩
  · rw [hc] at h
    cases h
  · rw [node, hc]

theorem apart_empty (localDeviceId : String) : Apart localDeviceId .empty := by rintro record ⟨⟩

/-! ### What another device brings -/

/-- The phone is known by its signing key. -/
def peerIdOf (key : Bytes) : Option PeerId :=
  if key = (Sample.key 2).bytes then some "phone" else none

def append (records : List DeviceAuthorizationRecord) (operation : DeviceAuthorizationOperation) :
    List DeviceAuthorizationRecord :=
  let body : DeviceAuthorizationRecordBody :=
    { (Sample.record records.length.toUInt64 none operation).body with
      previousRecordHash := records.getLast?.map (·.recordHash primitives) }
  records ++ [⟨body, Sample.sign keys.identityKey (body.canonicalBytes primitives)⟩]

def phoneEntry (operation : DeviceWriterOperation) : DeviceWriterLogEntry :=
  let body := (Sample.entry (Sample.key 2) "phone" 0 none operation []).body
  ⟨body, Sample.sign (Sample.key 2) (body.canonicalBytes primitives)⟩

/-- The chain of the node, which authorizes its device, and a record that authorizes the phone. -/
def withPhone : List DeviceAuthorizationRecord :=
  append node.localDeviceAuthorityRecords (Sample.authorize "phone" 2)

/-- And a record that revokes the device of the node. -/
def revoked : List DeviceAuthorizationRecord := append withPhone
    (Sample.revoke node.localDeviceId none)

/-- What the phone offers, when the state of the sync is saved and when it is not. -/
def offer (records : List DeviceAuthorizationRecord) (logs : List (List DeviceWriterLogEntry)) :
    DeviceWriterSyncRequest := ⟨Sample.owner, records, logs⟩

def diskFull : Ambient := ⟨default, 0, .error "disk full"⟩

end Jolt.Publishing.SampleNode
