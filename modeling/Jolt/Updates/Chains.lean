import Jolt.Merge.Shape
import Jolt.Signing.Injective

/-! # Logs as hash chains

`verifyUpdateLog` accepts exactly the logs that `genesis` and `append` build
(`verifyUpdateLog_iff_built`). The bodies of such a log are linked by their hashes, and so are those
of a device log. Where BLAKE3 tells the bodies of two logs apart, the hash of the last entry
determines all bodies before it: a log is a prefix of another exactly if its last hash occurs there.
`resolveLatestRecord` replays a log; what it says of a path is the last action on the path. -/

namespace Jolt.Updates.Chains

open Std Lib.Checks Lib.HashLinks Jolt.Core Jolt.Core.Types UpdateLog List
open DeviceWriterLog (DeviceWriterLogEntry verifyDeviceLogShape)
open Merge.Shape (deviceBodyHash verifyDeviceLogShape_iff_exists)
open Signing.Injective
open Sample (content laptopNote primitives sign)

variable {P : Primitives} {owner : Bytes} {log entries : List UpdateLogEntry}
  {entry : UpdateLogEntry}

/-! ### What the verifier accepts -/

def Follows (P : Primitives) (a b : UpdateLogEntry) : Prop :=
  b.body.sequence.toNat = a.body.sequence.toNat + 1 ∧ b.body.previousEntryHash =
    some (a.entryHash P)

def Genesis (e : UpdateLogEntry) : Prop := e.body.sequence = 0 ∧ e.body.previousEntryHash = none

def SignedBy (P : Primitives) (owner : Bytes) (e : UpdateLogEntry) : Prop :=
  e.verifySignature P = .ok () ∧ e.body.ownerPublicKey = owner

/-- **A verified log**: entries of one owner, each after the one before, from a genesis entry on. -/
structure VerifiedLog (P : Primitives) (owner : Bytes) (log : List UpdateLogEntry) : Prop where
  signed : ∀ e ∈ log, SignedBy P owner e
  chain : log.IsChain (Follows P)
  genesis : ∀ e ∈ log.head?, Genesis e

theorem verifyEntry_some_eq_ok_iff {index : ℕ} {previous : UpdateLogEntry} :
    verifyEntry P owner index (some previous) entry = .ok () ↔ SignedBy P owner entry ∧
      Follows P previous entry := by
  simp only [verifyEntry, bind_eq_ok, ensure_eq_ok, SignedBy, Follows]
  constructor
  · rintro ⟨_, hsig, _, howner, _, hseq, hprev⟩
    exact ⟨⟨hsig, howner⟩, hseq, hprev⟩
  · rintro ⟨⟨hsig, howner⟩, hseq, hprev⟩
    exact ⟨(), hsig, (), howner, (), hseq, hprev⟩

theorem verifyEntries_some_eq_ok_iff : ∀ {log : List UpdateLogEntry} {index : ℕ}
    {previous : UpdateLogEntry},
      verifyEntries P owner index (some previous) log = .ok () ↔
        (∀ e ∈ log, SignedBy P owner e) ∧ (previous :: log).IsChain (Follows P)
  | [], _, _ => by simp [verifyEntries]
  | e :: log, index, previous => by
    have ih : verifyEntries P owner (index + 1) (some e) log = .ok () ↔
        (∀ d ∈ log, SignedBy P owner d) ∧ (e :: log).IsChain (Follows P) :=
      verifyEntries_some_eq_ok_iff
    simp only [verifyEntries, bind_eq_ok]
    rw [isChain_cons_cons, forall_mem_cons]
    constructor
    · rintro ⟨_, h, hrest⟩
      obtain ⟨hs, hf⟩ := verifyEntry_some_eq_ok_iff.mp h
      obtain ⟨hss, hc⟩ := ih.mp hrest
      exact ⟨⟨hs, hss⟩, hf, hc⟩
    · rintro ⟨⟨hs, hss⟩, hf, hc⟩
      exact ⟨(), verifyEntry_some_eq_ok_iff.mpr ⟨hs, hf⟩, ih.mpr ⟨hss, hc⟩⟩

theorem verifyUpdateLog_iff_exists : verifyUpdateLog P log = .ok () ↔
    ∃ owner, VerifiedLog P owner log := by
  cases log with
  | nil => exact ⟨fun _ => ⟨[], by simp, by simp, by simp⟩, fun _ => rfl⟩
  | cons first rest =>
    simp only [verifyUpdateLog, verifyEntries, verifyEntry, bind_eq_ok, ensure_eq_ok]
    constructor
    · rintro ⟨_, ⟨_, hsig, _, hseq, hprev⟩, hrest⟩
      obtain ⟨hsigned, hchain⟩ := verifyEntries_some_eq_ok_iff.mp hrest
      exact ⟨_, forall_mem_cons.mpr ⟨⟨hsig, rfl⟩, hsigned⟩, hchain, by
        rintro e ⟨⟩; exact ⟨hseq, hprev⟩⟩
    · rintro ⟨owner, hsigned, hchain, hgenesis⟩
      obtain ⟨⟨hsig, rfl⟩, hrest⟩ := forall_mem_cons.mp hsigned
      obtain ⟨hseq, hprev⟩ := hgenesis first rfl
      exact ⟨(), ⟨(), hsig, (), hseq, hprev⟩, verifyEntries_some_eq_ok_iff.mpr ⟨hrest, hchain⟩⟩

namespace VerifiedLog

theorem toNat_sequence (h : VerifiedLog P owner log) :
    ∀ (i : ℕ) (hi : i < log.length), log[i].body.sequence.toNat = i
  | 0, hi => by
    cases log with
    | nil => simp at hi
    | cons first rest => simp [(h.genesis first rfl).1]
  | i + 1, hi => by
    have ih := h.toNat_sequence i (by omega)
    have hfollows := (isChain_iff_getElem.mp h.chain) i hi
    rw [hfollows.1, ih]

theorem singleton_iff : VerifiedLog P owner [entry] ↔ SignedBy P owner entry ∧ Genesis entry := by
  constructor
  · intro h
    exact ⟨h.signed entry (by simp), h.genesis entry rfl⟩
  · rintro ⟨hsigned, hgenesis⟩
    exact ⟨by simpa using hsigned, by simp, by rintro e ⟨⟩; exact hgenesis⟩

theorem concat_iff {last : UpdateLogEntry} : VerifiedLog P owner (log ++ [last] ++ [entry]) ↔
      VerifiedLog P owner (log ++ [last]) ∧ SignedBy P owner entry ∧ Follows P last entry := by
  constructor
  · rintro ⟨hsigned, hchain, hgenesis⟩
    obtain ⟨hfront, -, hlast⟩ := isChain_append.mp hchain
    refine ⟨⟨fun e he => hsigned e (mem_append_left _ he), hfront, fun e he => ?_⟩,
      hsigned entry (by simp), hlast last (by simp) entry rfl⟩
    refine hgenesis e ?_
    rwa [head?_append_of_ne_nil (log ++ [last]) (by simp)]
  · rintro ⟨⟨hsigned, hchain, hgenesis⟩, hentry, hfollows⟩
    refine ⟨?_, ?_, fun e he => hgenesis e ?_⟩
    · intro e he
      rcases mem_append.mp he with he | he
      · exact hsigned e he
      · rw [mem_singleton.mp he]
        exact hentry
    · refine isChain_append.mpr ⟨hchain, by simp, ?_⟩
      rintro x hx y ⟨⟩
      rw [getLast?_concat] at hx
      cases hx
      exact hfollows
    · rwa [head?_append_of_ne_nil (log ++ [last]) (by simp)] at he

end VerifiedLog

variable {path : String} {contentId : ContentId} {resolved : ResolvedLatestRecord}

/-! ### Logs as they are built -/

/-- **A log as it is built**: a genesis entry of the owner and appended entries, with signatures
that verify. -/
inductive Built (P : Primitives) (owner : Bytes) : List UpdateLogEntry → Prop
  | genesis {action : UpdateAction} {signer : Bytes → Bytes} {entry : UpdateLogEntry}
      (h : UpdateLogEntry.genesis P owner action signer = .ok entry)
      (hsig : entry.verifySignature P = .ok ()) : Built P owner [entry]
  | append {log : List UpdateLogEntry} {last : UpdateLogEntry} {action : UpdateAction}
      {signer : Bytes → Bytes} {entry : UpdateLogEntry} (hlog : Built P owner (log ++ [last]))
      (h : last.append P action signer = .ok entry) (hsig : entry.verifySignature P = .ok ()) :
      Built P owner (log ++ [last] ++ [entry])

theorem signBody_eq_ok_iff {body : UpdateLogEntryBody} {signer : Bytes → Bytes} :
    UpdateLogEntry.signBody P body signer = .ok entry ↔
      body.ownerPublicKey.length = 32 ∧ (signer (body.canonicalBytes P)).length = 64 ∧
        ⟨body, signer (body.canonicalBytes P)⟩ = entry := by
  simp only [UpdateLogEntry.signBody, validateOwnerPublicKey, validateSignatureLen, bind_eq_ok,
    ensure_eq_ok, pure_eq_ok]
  constructor
  · rintro ⟨_, howner, _, hsig, heq⟩
    exact ⟨howner, hsig, heq⟩
  · rintro ⟨howner, hsig, heq⟩
    exact ⟨(), howner, (), hsig, heq⟩

theorem signBody_of_verifySignature (h : entry.verifySignature P = .ok ()) :
    UpdateLogEntry.signBody P entry.body (fun _ => entry.signature) = .ok entry := by
  simp only [UpdateLogEntry.verifySignature, UpdateLog.verifySignature, validateOwnerPublicKey,
    validateSignatureLen, bind_eq_ok, ensure_eq_ok] at h
  obtain ⟨_, howner, _, hsig, -⟩ := h
  exact signBody_eq_ok_iff.mpr ⟨howner, hsig, rfl⟩

theorem Built.ne_nil (h : Built P owner log) : log ≠ [] := by
  cases h <;> simp

theorem Built.verifiedLog (h : Built P owner log) (hlen : log.length ≤ 2 ^ 64) :
    VerifiedLog P owner log := by
  induction h with
  | genesis h hsig =>
    obtain ⟨-, -, rfl⟩ := signBody_eq_ok_iff.mp h
    exact VerifiedLog.singleton_iff.mpr ⟨⟨hsig, rfl⟩, rfl, rfl⟩
  | @append log last action signer entry hlog h hsig ih =>
    obtain ⟨-, -, rfl⟩ := signBody_eq_ok_iff.mp h
    simp only [length_append, length_singleton] at hlen
    have hfront : VerifiedLog P owner (log ++ [last]) := ih (by simp; omega)
    have hseq := hfront.toNat_sequence log.length (by simp)
    rw [getElem_concat_length rfl] at hseq
    refine VerifiedLog.concat_iff.mpr ⟨hfront, ⟨hsig, (hfront.signed last (by simp)).2⟩, ?_, rfl⟩
    show (last.body.sequence + 1).toNat = _
    rw [UInt64.toNat_add, UInt64.toNat_one, Nat.mod_eq_of_lt (by omega)]

theorem VerifiedLog.built (h : VerifiedLog P owner log) (hne : log ≠ []) : Built P owner log := by
  induction log using List.reverseRecOn with
  | nil => exact absurd rfl hne
  | append_singleton log entry ih =>
    rcases eq_nil_or_concat log with rfl | ⟨log, last, rfl⟩
    · obtain ⟨⟨hsig, howner⟩, hseq, hprev⟩ := VerifiedLog.singleton_iff.mp h
      refine @Built.genesis P owner entry.body.action (fun _ => entry.signature) entry ?_ hsig
      rw [← signBody_of_verifySignature hsig, UpdateLogEntry.genesis, ← howner, ← hseq, ← hprev]
    · rw [concat_eq_append] at h ih ⊢
      obtain ⟨hlog, ⟨hsig, howner⟩, hseq, hprev⟩ := VerifiedLog.concat_iff.mp h
      have hlast : last.body.ownerPublicKey = owner := (hlog.signed last (by simp)).2
      have hseq' : last.body.sequence + 1 = entry.body.sequence := by
        rw [← UInt64.toNat_inj, UInt64.toNat_add, UInt64.toNat_one, ← hseq,
          Nat.mod_eq_of_lt entry.body.sequence.toNat_lt]
      refine @Built.append P owner log last entry.body.action (fun _ => entry.signature) entry
        (ih hlog (by simp)) ?_ hsig
      rw [← signBody_of_verifySignature hsig, UpdateLogEntry.append, hseq', hlast,
        ← howner, ← hprev]

/-- **Accepted logs are the built ones.** The bound says that sequences do not overflow; a vector is
shorter. -/
theorem verifyUpdateLog_iff_built (hne : log ≠ []) (hlen : log.length ≤ 2 ^ 64) :
    verifyUpdateLog P log = .ok () ↔ ∃ owner, Built P owner log := by
  rw [verifyUpdateLog_iff_exists]
  exact ⟨fun ⟨owner, h⟩ => ⟨owner, h.built hne⟩, fun ⟨owner, h⟩ => ⟨owner, h.verifiedLog hlen⟩⟩

/-! ### Bodies and their hashes -/

/-- BLAKE3 tells the bodies apart: their lengths fit, and no two of their canonical bytes
collide. -/
def ToldApart (P : Primitives) (bodies : List SignedBody) : Prop :=
  (∀ body ∈ bodies, body.LengthsFit P) ∧ Set.InjOn P.blake3
  {bytes | ∃ body ∈ bodies, body.canonicalBytes P = bytes}

theorem ToldApart.eq_of_blake3_eq {bodies : List SignedBody} (h : ToldApart P bodies)
    {a b : SignedBody} (ha : a ∈ bodies) (hb : b ∈ bodies)
    (heq : P.blake3 (a.canonicalBytes P) = P.blake3 (b.canonicalBytes P)) : a = b := by
  have hbytes : a.canonicalBytes P = b.canonicalBytes P := h.2 ⟨a, ha, rfl⟩ ⟨b, hb, rfl⟩ heq
  have hparse := (parseSigned_eq_some_iff P).mpr ⟨h.1 a ha, hbytes⟩
  rw [(parseSigned_eq_some_iff P).mpr ⟨h.1 b hb, rfl⟩] at hparse
  exact (Option.some.inj hparse).symm

/-- Bodies of one type, seen as signed bodies by `mk`, are told apart by a digest that BLAKE3
computes from their canonical bytes. -/
theorem ToldApart.injOn {α β η : Type} {bodyOf : α → β} {mk : β → SignedBody} {digest : β → η}
    (hmk : Function.Injective mk)
    (hdigest : ∀ x y, digest x = digest y → P.blake3 ((mk x).canonicalBytes P) =
      P.blake3 ((mk y).canonicalBytes P))
    {a b : List α} (h : ToldApart P ((a ++ b).map fun e => mk (bodyOf e))) :
    Set.InjOn digest {x | x ∈ a.map bodyOf ∨ x ∈ b.map bodyOf} := by
  have hmem : ∀ x, x ∈ a.map bodyOf ∨ x ∈ b.map bodyOf → mk x ∈ (a ++ b).map fun e =>
    mk (bodyOf e) := by
    intro x hx
    rw [← mem_append, ← map_append] at hx
    obtain ⟨e, he, rfl⟩ := mem_map.mp hx
    exact mem_map_of_mem he
  intro x hx y hy hxy
  exact hmk (h.eq_of_blake3_eq (hmem x hx) (hmem y hy) (hdigest x y hxy))

def bodyHash (P : Primitives) (body : UpdateLogEntryBody) :
    UpdateLogEntryHash := ⟨P.blake3 (body.canonicalBytes P)⟩

theorem VerifiedLog.linked (h : VerifiedLog P owner log) :
    Linked (·.previousEntryHash) (bodyHash P) (log.map (·.body)) := by
  induction log using List.reverseRecOn with
  | nil => exact Linked.nil
  | append_singleton log entry ih =>
    rw [map_append, map_singleton]
    rcases eq_nil_or_concat log with rfl | ⟨log, last, rfl⟩
    · exact Linked.nil.concat (VerifiedLog.singleton_iff.mp h).2.2
    · rw [concat_eq_append] at h ih ⊢
      obtain ⟨hlog, -, -, hprev⟩ := VerifiedLog.concat_iff.mp h
      refine (ih hlog).concat ?_
      rw [map_append, map_singleton, getLast?_concat, hprev]
      rfl

/-! ### What the last hash says -/

/-- What the hash of the last entry of one log says of another: the last hashes are equal only if
all bodies are, and the bodies of one are a prefix of those of the other exactly if its last hash is
among the hashes there. -/
structure LastHashDecides {β η : Type} (digest : β → η) (a b : List β) : Prop where
  eq_of_last : a.getLast?.map digest = b.getLast?.map digest → a = b
  isPrefix_iff : ∀ hash ∈ a.getLast?.map digest, a <+: b ↔ hash ∈ b.map digest

theorem lastHashDecides_of_linked {β η : Type} {previous : β → Option η} {digest : β → η}
    {a b : List β} (ha : Linked previous digest a) (hb : Linked previous digest b)
    (hinj : Set.InjOn digest {x | x ∈ a ∨ x ∈ b}) : LastHashDecides digest a b where
  eq_of_last := ha.eq_of_getLast hb hinj
  isPrefix_iff hash hhash := by
    obtain ⟨last, hlast, rfl⟩ := Option.mem_map.mp hhash
    have hne : a ≠ [] := by
      rintro rfl
      simp at hlast
    have hget : a.getLast hne = last := by
      rw [getLast?_eq_some_getLast hne] at hlast
      exact Option.some.inj hlast
    rw [ha.isPrefix_iff hb hinj hne, hget]

theorem lastHashDecides_updateLogs {a b : List UpdateLogEntry} (ha : verifyUpdateLog P a = .ok ())
    (hb : verifyUpdateLog P b = .ok ())
    (hapart : ToldApart P ((a ++ b).map fun e => .updateLogEntry e.body)) :
    LastHashDecides (bodyHash P) (a.map (·.body)) (b.map (·.body)) := by
  obtain ⟨_, hla⟩ := verifyUpdateLog_iff_exists.mp ha
  obtain ⟨_, hlb⟩ := verifyUpdateLog_iff_exists.mp hb
  exact lastHashDecides_of_linked hla.linked hlb.linked (ToldApart.injOn
    (fun _ _ => SignedBody.updateLogEntry.inj) (fun _ _ h => congrArg (·.bytes) h) hapart)

theorem lastHashDecides_deviceLogs {identity identity' : IdentityId}
    {a b : List DeviceWriterLogEntry} (ha : verifyDeviceLogShape P identity a = .ok ())
    (hb : verifyDeviceLogShape P identity' b = .ok ())
    (hapart : ToldApart P ((a ++ b).map fun e => .deviceWriterLogEntry e.body)) :
    LastHashDecides (deviceBodyHash P) (a.map (·.body)) (b.map (·.body)) := by
  obtain ⟨_, hla⟩ := verifyDeviceLogShape_iff_exists.mp ha
  obtain ⟨_, hlb⟩ := verifyDeviceLogShape_iff_exists.mp hb
  exact lastHashDecides_of_linked hla.linked hlb.linked
    (ToldApart.injOn (fun _ _ => SignedBody.deviceWriterLogEntry.inj) (fun _ _ h =>
      congrArg (·.bytes) h) hapart)

/-! ### Replaying a log -/

def Touches (path : String) : UpdateAction → Prop
  | .setPath p _ => p = path
  | .removePath p => p = path
  | _ => False

/-- The last action of the log on the path sets it to the content. -/
def LastSets (entries : List UpdateLogEntry) (path : String) (contentId : ContentId) : Prop :=
  ∃ front entry rest, entries = front ++ entry :: rest ∧
    entry.body.action = .setPath path contentId ∧ ∀ later ∈ rest, ¬ Touches path later.body.action

theorem lastSets_concat : LastSets (log ++ [entry]) path contentId ↔
    entry.body.action = .setPath path contentId ∨
        ¬ Touches path entry.body.action ∧ LastSets log path contentId := by
  constructor
  · rintro ⟨front, e, rest, heq, hset, hrest⟩
    rcases eq_nil_or_concat rest with rfl | ⟨rest, last, rfl⟩
    · obtain ⟨-, hlast⟩ := append_inj' heq rfl
      cases hlast
      exact .inl hset
    · rw [concat_eq_append, ← cons_append, ← append_assoc] at heq
      obtain ⟨hlog, hlast⟩ := append_inj' heq rfl
      cases hlast
      refine .inr ⟨hrest entry (by simp), front, e, rest, hlog, hset, fun later hlater => ?_⟩
      exact hrest later (by simp [hlater])
  · rintro (hset | ⟨hother, front, e, rest, rfl, hset, hrest⟩)
    · exact ⟨log, entry, [], rfl, hset, by simp⟩
    · refine ⟨front, e, rest ++ [entry], by simp, hset, fun later hlater => ?_⟩
      rcases mem_append.mp hlater with hlater | hlater
      · exact hrest later hlater
      · rw [mem_singleton.mp hlater]
        exact hother

theorem getElem?_paths_apply : (resolved.apply entry).paths[path]? = some contentId ↔
      entry.body.action = .setPath path contentId ∨
        ¬ Touches path entry.body.action ∧ resolved.paths[path]? = some contentId := by
  unfold ResolvedLatestRecord.apply
  cases hact : entry.body.action with
  | setPath p c =>
    simp only [ExtTreeMap.getElem?_insert, Touches, UpdateAction.setPath.injEq]
    by_cases hp : p = path <;> simp [hp]
  | removePath p =>
    simp only [ExtTreeMap.getElem?_erase, Touches]
    by_cases hp : p = path <;> simp [hp]
  | _ => simp [Touches]

theorem getElem?_paths_foldl (hempty : resolved.paths = ∅) :
    (entries.foldl ResolvedLatestRecord.apply resolved).paths[path]? = some contentId ↔
      LastSets entries path contentId := by
  induction entries using List.reverseRecOn with
  | nil => simp [hempty, LastSets]
  | append_singleton entries entry ih =>
    rw [foldl_concat, getElem?_paths_apply, lastSets_concat, ih]

/-- **What a path resolves to** is the content that the last action on it sets. -/
theorem exists_resolveLatestRecord (hne : entries ≠ []) (h : verifyUpdateLog P entries = .ok ()) :
    ∃ resolved, resolveLatestRecord P entries = .ok resolved ∧ ∀ (path : String)
      (contentId : ContentId),
        resolved.paths[path]? = some contentId ↔ LastSets entries path contentId := by
  obtain ⟨first, rest, rfl⟩ := exists_cons_of_ne_nil hne
  refine ⟨(first :: rest).foldl ResolvedLatestRecord.apply
    ⟨first.body.ownerPublicKey, first.body.sequence, none, none, ∅, []⟩, ?_,
    fun path contentId => getElem?_paths_foldl rfl⟩
  rw [resolveLatestRecord, h]
  rfl

/-! ### The contract of the logs -/

/-- **Hash-chained logs.** A non-empty update log is accepted exactly if it was built by one owner;
the last hash of an accepted log, update log or device log, determines its bodies; and an accepted
update log resolves every path to what was last set there. -/
theorem hash_chained_logs (P : Primitives) :
    (∀ log : List UpdateLogEntry, log ≠ [] → log.length ≤ 2 ^ 64 →
      (verifyUpdateLog P log = .ok () ↔ ∃ owner, Built P owner log)) ∧
    (∀ a b : List UpdateLogEntry, verifyUpdateLog P a = .ok () → verifyUpdateLog P b = .ok () →
      ToldApart P ((a ++ b).map fun e => .updateLogEntry e.body) →
      LastHashDecides (bodyHash P) (a.map (·.body)) (b.map (·.body))) ∧
    (∀ (identity identity' : IdentityId) (a b : List DeviceWriterLogEntry),
      verifyDeviceLogShape P identity a = .ok () → verifyDeviceLogShape P identity' b = .ok () →
      ToldApart P ((a ++ b).map fun e => .deviceWriterLogEntry e.body) →
      LastHashDecides (deviceBodyHash P) (a.map (·.body)) (b.map (·.body))) ∧
    ∀ entries : List UpdateLogEntry, entries ≠ [] → verifyUpdateLog P entries = .ok () →
      ∃ resolved, resolveLatestRecord P entries = .ok resolved ∧
        ∀ (path : String) (contentId : ContentId),
          resolved.paths[path]? = some contentId ↔ LastSets entries path contentId :=
  ⟨fun _ => verifyUpdateLog_iff_built, fun _ _ => lastHashDecides_updateLogs,
    fun _ _ _ _ => lastHashDecides_deviceLogs, fun _ => exists_resolveLatestRecord⟩

/-! ### Two entries -/

def noteSet : UpdateLogEntry :=
  let body :
    UpdateLogEntryBody := ⟨Sample.owner.publicKey.bytes, 0, none, .setPath "/note" (content 1)⟩
  ⟨body, sign Sample.owner.publicKey (body.canonicalBytes primitives)⟩

def noteRemoved : UpdateLogEntry :=
  let body : UpdateLogEntryBody :=
    ⟨Sample.owner.publicKey.bytes, 1, some (noteSet.entryHash primitives), .removePath "/note"⟩
  ⟨body, sign Sample.owner.publicKey (body.canonicalBytes primitives)⟩

theorem toldApart_notes : ToldApart primitives
    (([noteSet] ++ [noteSet, noteRemoved]).map fun e => .updateLogEntry e.body) := by
  have hfits : ∀ body ∈ [SignedBody.updateLogEntry noteSet.body, .updateLogEntry noteRemoved.body],
      body.LengthsFit primitives := by
    simp only [forall_mem_cons, not_mem_nil, false_implies, implies_true, and_true]
    have howner : Sample.owner.publicKey.bytes.length < 2 ^ 64 := by decide
    have hpath : (asBytes "/note").length < 2 ^ 64 := by decide +kernel
    exact ⟨⟨howner, hpath, stringFits_sample_content 1 (by decide)⟩, howner, hpath⟩
  have hne : primitives.blake3 (noteSet.body.canonicalBytes primitives) ≠
      primitives.blake3 (noteRemoved.body.canonicalBytes primitives) := by decide +kernel
  constructor
  · intro body hbody
    exact hfits body (by simpa using hbody)
  · rintro _ ⟨x, hx, rfl⟩ _ ⟨y, hy, rfl⟩ hxy
    simp only [singleton_append, map_cons, map_nil, mem_cons, not_mem_nil, or_false,
      or_self_left] at hx hy
    rcases hx with rfl | rfl <;> rcases hy with rfl | rfl
    · rfl
    · exact absurd hxy hne
    · exact absurd hxy.symm hne
    · rfl

theorem toldApart_laptopNote : ToldApart primitives
    (([laptopNote] ++ [laptopNote]).map fun e => .deviceWriterLogEntry e.body) := by
  have hstrings : ∀ text ∈ [laptopNote.body.recordType,
    primitives.identityToString laptopNote.body.identity,
      laptopNote.body.deviceId, "/note"], (asBytes text).length < 2 ^ 64 := by decide +kernel
  constructor
  · intro body hbody
    obtain rfl : body = .deviceWriterLogEntry laptopNote.body := by simpa using hbody
    exact ⟨hstrings _ (by simp), hstrings _ (by simp), hstrings _ (by simp), ⟨hstrings _ (by simp),
      stringFits_sample_content 1 (by decide)⟩, by decide⟩
  · rintro _ ⟨x, hx, rfl⟩ _ ⟨y, hy, rfl⟩ -
    obtain rfl : x = .deviceWriterLogEntry laptopNote.body := by simpa using hx
    obtain rfl : y = .deviceWriterLogEntry laptopNote.body := by simpa using hy
    rfl

/-- The first entry alone is a prefix of both, and the path is bound in it and no more after. -/
theorem hash_chained_logs_notes : (∃ owner, Built primitives owner [noteSet, noteRemoved]) ∧
    LastHashDecides (bodyHash primitives) [noteSet.body] [noteSet.body, noteRemoved.body] ∧
    LastHashDecides (deviceBodyHash primitives) [laptopNote.body] [laptopNote.body] ∧
    ∃ resolved, resolveLatestRecord primitives [noteSet] = .ok resolved ∧
      resolved.paths["/note"]? = some (content 1) := by
  obtain ⟨hbuilt, hupdate, hdevice, hresolve⟩ := hash_chained_logs primitives
  have hone : verifyUpdateLog primitives [noteSet] = .ok () := by decide +kernel
  have htwo : verifyUpdateLog primitives [noteSet, noteRemoved] = .ok () := by decide +kernel
  have hnote : verifyDeviceLogShape primitives Sample.owner [laptopNote] = .ok () := by
    decide +kernel
  obtain ⟨resolved, hres, hpaths⟩ := hresolve [noteSet] (by simp) hone
  exact ⟨(hbuilt _ (by simp) (by simp)).mp htwo, hupdate _ _ hone htwo toldApart_notes,
    hdevice Sample.owner Sample.owner _ _ hnote hnote toldApart_laptopNote,
    resolved, hres, (hpaths _ _).mpr ⟨[], noteSet, [], rfl, rfl, by simp⟩⟩

end Jolt.Updates.Chains
