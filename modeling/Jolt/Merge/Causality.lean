import Jolt.Merge.Refine
import Jolt.Core.Sample

/-! # Causal order and heads

An entry refers by hash to the entry before it in its log and to its observed heads. If references
have no cycle, a path with candidates has a head: a candidate to which no other candidate refers,
directly or through others, is not superseded, and among finitely many there is one
(`heads_ne_nil`). So the merge never panics.

Heads are also concurrent, as far as accepted entries can tell: no accepted entry directly after a
head in causal order exists (`not_causalStep_of_mem_heads`), so two heads can be ordered only by a
chain that leaves the first of them through a rejected entry. -/

namespace Jolt.Merge.Causality

open Std Relation Lib Checks Families Following Jolt.Core Jolt.Core.Types IdentityAuthority
  DeviceWriterLog Spec Shape Refine List
open Sample (content laptopNote phoneNote phoneReply primitives tabletNote twoDevices)

variable {P : Primitives} {authority : VerifiedIdentityAuthority} {logs : Logs} {path : String}
  {log : List DeviceWriterLogEntry} {h : DeviceWriterLogEntryHash} {c : MergedDeviceWriterEntry}

/-! ### References have a last candidate -/

/-- A supplied entry with hash `h` refers to `h'`: as the entry before it or as an observed head. -/
def Refers (P : Primitives) (logs : Logs) (h h' : DeviceWriterLogEntryHash) : Prop :=
  ∃ log ∈ logs, ∃ e ∈ log, e.entryHash P = h ∧ (e.body.previousEntryHash = some h' ∨
    h' ∈ e.body.observedHeads)

/-- No entry refers to itself, directly or through others. -/
def Acyclic (P : Primitives) (logs : Logs) : Prop := ∀ h, ¬ TransGen (Refers P logs) h h

theorem Acyclic.of_entries {logs' : Logs} (h : Acyclic P logs')
    (hsub : ∀ log ∈ logs, ∀ e ∈ log, ∃ log' ∈ logs', e ∈ log') : Acyclic P logs := by
  have hstep : Refers P logs ≤ Refers P logs' := by
    rintro a b ⟨log, hl, e, he, hr⟩
    obtain ⟨log', hl', he'⟩ := hsub log hl e he
    exact ⟨log', hl', e, he', hr⟩
  exact fun x hx => h x (TransGen.mono hstep x x hx)

theorem Acyclic.mono {logs' : Logs} (h : Acyclic P logs') (hsub : logs ⊆ logs') : Acyclic P logs :=
  h.of_entries fun log hl _ he => ⟨log, hsub hl, he⟩

theorem refers_of_sublist {identity : IdentityId}
    (hshape : verifyDeviceLogShape P identity log = .ok ()) (hl : log ∈ logs)
    {e f : DeviceWriterLogEntry} (hs : [e, f].Sublist log) :
    TransGen (Refers P logs) (f.entryHash P) (e.entryHash P) := by
  obtain ⟨deviceId, hlog⟩ := verifyDeviceLogShape_iff_exists.mp hshape
  let After (a b : DeviceWriterLogEntry) : Prop := TransGen (Refers P logs) (b.entryHash P)
    (a.entryHash P)
  have : Trans After After After := ⟨fun hab hbc => hbc.trans hab⟩
  have hchain : log.IsChain After := hlog.chain.imp_of_mem_imp fun a b _ hb hab =>
    TransGen.single ⟨log, hl, b, hb, rfl, .inl hab.2⟩
  have hpair := (isChain_iff_pairwise.mp hchain).sublist hs
  exact rel_of_pairwise_cons hpair mem_cons_self

theorem exists_refers_of_superseded
    (hshape : ∀ log ∈ logs, verifyDeviceLogShape P authority.identity log = .ok ())
    (hs : Superseded P authority logs path h) :
    ∃ c ∈ candidatesAt P authority logs path, TransGen (Refers P logs) c.entryHash h := by
  have hcand : ∀ log ∈ logs, ∀ f ∈ log, Candidate authority path f →
      ∃ c ∈ candidatesAt P authority logs path, c.entryHash = f.entryHash P := by
    intro log hl f hf hc
    obtain ⟨c, hc⟩ := hc.exists_asCandidate (P := P)
    exact ⟨c, mem_candidatesAt.mpr ⟨log, hl, f, hf, hc⟩, (candidate_of_asCandidate hc).2⟩
  rcases hs with ⟨log, hl, e, f, hs, -, hf, rfl⟩ | ⟨log, hl, f, hf, hc, ho⟩
  · obtain ⟨c, hc, hce⟩ := hcand log hl f (hs.subset (by simp)) hf
    exact ⟨c, hc, by rw [hce]; exact refers_of_sublist (hshape log hl) hl hs⟩
  · obtain ⟨c, hcm, hce⟩ := hcand log hl f hf hc
    exact ⟨c, hcm, by rw [hce]; exact TransGen.single ⟨log, hl, f, hf, rfl, .inr ho⟩⟩

/-- **Every path with a candidate has a head.** -/
theorem heads_ne_nil (hacyc : Acyclic P logs)
    (hshape : ∀ log ∈ logs, verifyDeviceLogShape P authority.identity log = .ok ())
    (hc : candidatesAt P authority logs path ≠ []) : heads P authority logs path ≠ [] := by
  intro hnil
  have hall : ∀ c ∈ candidatesAt P authority logs path, Superseded P authority logs path
    c.entryHash := by
    intro c hc
    by_contra hns
    simpa [hnil] using mem_heads.mpr ⟨hc, hns⟩
  -- References, followed through, are a strict order, so finitely many candidates have a last one.
  have : IsStrictOrder DeviceWriterLogEntryHash (TransGen (Refers P logs)) :=
    { irrefl := hacyc, trans := fun _ _ _ => TransGen.trans }
  let hashes : Set DeviceWriterLogEntryHash :=
    {h | h ∈ (candidatesAt P authority logs path).map (·.entryHash)}
  have hwf : hashes.WellFoundedOn (TransGen (Refers P logs)) := (finite_toSet _).wellFoundedOn
  obtain ⟨c, hc⟩ := exists_mem_of_ne_nil _ hc
  refine hwf.induction (mem_map_of_mem hc) (P := fun _ => False) fun h hh ih => ?_
  obtain ⟨d, hd, rfl⟩ := mem_map.mp hh
  obtain ⟨d', hd', hrefers⟩ := exists_refers_of_superseded hshape (hall d hd)
  exact ih d'.entryHash (mem_map_of_mem hd') hrefers

theorem acyclic_of_rank (rank : DeviceWriterLogEntryHash → ℕ)
    (h : ∀ log ∈ logs, ∀ e ∈ log, ∀ x ∈ e.body.previousEntryHash.toList ++ e.body.observedHeads,
      rank x < rank (e.entryHash P)) : Acyclic P logs := by
  have hstep : ∀ x y, TransGen (Refers P logs) x y → rank y < rank x := by
    intro x y hxy
    refine TransGen.trans_induction_on hxy ?_ fun _ _ h₁ h₂ => h₂.trans h₁
    rintro x y ⟨log, hl, e, he, rfl, hp | ho⟩
    · exact h log hl e he y (by simp [hp])
    · exact h log hl e he y (by simp [ho])
  exact fun x hx => lt_irrefl _ (hstep x x hx)

/-- **The merge never panics** on entries whose references have no cycle: verified logs always
merge, and every path with a candidate gets a winner. -/
theorem merge_not_panicked (hacyc : Acyclic P logs) :
    (∀ message, mergeDeviceWriterLogs P authority logs ≠ .error (.panicked message)) ∧
    ((∀ log ∈ logs, LogVerified P authority log) →
      ∃ st, mergeDeviceWriterLogs P authority logs = .ok st ∧
        ∀ path, (∃ log ∈ logs, ∃ e ∈ log, Candidate authority path e) →
          heads P authority logs path ≠ [] ∧ ∃ winner, st.singletonPaths[path]? = some winner) := by
  constructor
  · intro message h
    obtain ⟨hv, path, hc, hnil⟩ := heads_eq_nil_of_merge_panicked h
    exact heads_ne_nil hacyc (fun log hl => (hv log hl).1) hc hnil
  · intro hv
    have hheads : ∀ path, candidatesAt P authority logs path ≠ [] →
      heads P authority logs path ≠ [] :=
      fun path hc => heads_ne_nil hacyc (fun log hl => (hv log hl).1) hc
    obtain ⟨st, hst⟩ := exists_merge_eq_ok_iff.mpr ⟨hv, hheads⟩
    refine ⟨st, hst, ?_⟩
    rintro path ⟨log, hl, e, he, hc⟩
    obtain ⟨c, hc⟩ := hc.exists_asCandidate (P := P)
    have hne : heads P authority logs path ≠ [] :=
      hheads path (ne_nil_of_mem (mem_candidatesAt.mpr ⟨log, hl, e, he, hc⟩))
    refine ⟨hne, (heads P authority logs path).getLast hne, ?_⟩
    rw [(merge_eq_ok_iff.mp hst).2.2.winner path, getLast?_eq_getLast_of_ne_nil hne]

theorem merge_not_panicked_notes : Acyclic primitives [[laptopNote], [phoneNote]] ∧
    ∀ message, mergeDeviceWriterLogs primitives twoDevices
      [[laptopNote], [phoneNote]] ≠ .error (.panicked message) := by
  have hacyc : Acyclic primitives [[laptopNote], [phoneNote]] :=
    acyclic_of_rank (fun h => if h = phoneNote.entryHash primitives then 1 else 0)
      (by decide +kernel)
  exact ⟨hacyc, (merge_not_panicked hacyc).1⟩

/-! ### Heads are concurrent -/

/-- `e` is a singleton or tombstone entry at `path`, accepted or not. -/
def Writes (path : String) (e : DeviceWriterLogEntry) : Prop :=
  (singletonAt path e.body.operation).isSome

instance (path : String) : DecidablePred (Writes path) := fun _ => inferInstanceAs
    (Decidable (_ = _))

/-- **One step of causal order at a path**, from the entry with hash `h` to the entry with hash
`h'`, both supplied singleton or tombstone entries at the path: `h` is earlier in a log with `h'`,
or `h'` names `h` as an observed head. `by_` restricts the entries a step may lead to. -/
def CausalStep (P : Primitives) (logs : Logs) (path : String) (by_ : DeviceWriterLogEntry → Prop)
    (h h' : DeviceWriterLogEntryHash) : Prop :=
  ∃ log ∈ logs, ∃ e ∈ log, ∃ log' ∈ logs, ∃ f ∈ log', Writes path e ∧ Writes path f ∧
    e.entryHash P = h ∧ f.entryHash P = h' ∧ by_ f ∧
    ([e, f].Sublist log' ∨ h ∈ f.body.observedHeads)

def CausallyBefore (P : Primitives) (logs : Logs) (path : String) :
    DeviceWriterLogEntryHash → DeviceWriterLogEntryHash → Prop :=
  TransGen (CausalStep P logs path fun _ => True)

/-- `c` is the winner or one of the conflicts of `path`. -/
def Reported (st : MergedDeviceIdentityState) (path : String) (c : MergedDeviceWriterEntry) :
    Prop :=
  st.singletonPaths[path]? = some c ∨ ∃ conflicts, st.singletonConflicts[path]? = some conflicts ∧
    c ∈ conflicts

theorem reported_iff_mem_heads {st : MergedDeviceIdentityState}
    (h : mergeDeviceWriterLogs P authority logs = .ok st) :
    Reported st path c ↔ c ∈ heads P authority logs path := by
  obtain ⟨-, -, hst⟩ := merge_eq_ok_iff.mp h
  unfold Reported
  rw [hst.winner, hst.conflicts, mem_iff_getLast?_or_mem_dropLast]
  refine or_congr_right ⟨?_, fun hc => ⟨_, row_eq_some.mpr ⟨rfl, ne_nil_of_mem hc⟩, hc⟩⟩
  rintro ⟨conflicts, hrow, hc⟩
  obtain ⟨rfl, -⟩ := row_eq_some.mp hrow
  exact hc

theorem accepted_of_sublist (hv : LogVerified P authority log) {e f : DeviceWriterLogEntry}
    (hs : [e, f].Sublist log) (hf : Accepted authority f) : Accepted authority e := by
  obtain ⟨deviceId, hlog⟩ := verifyDeviceLogShape_iff_exists.mp hv.1
  have he := hlog.valid e (hs.subset (by simp))
  have hf' := hlog.valid f (hs.subset (by simp))
  have hlt := rel_of_pairwise_cons (hlog.pairwise_lt.sublist hs) mem_cons_self
  obtain ⟨device, hd, hc⟩ := hf
  refine ⟨device, by rwa [he.deviceId, ← hf'.deviceId], hc.imp_right ?_⟩
  rintro ⟨cutoff, hcut, hle⟩
  exact ⟨cutoff, hcut, UInt64.le_trans (UInt64.le_of_lt hlt) hle⟩

theorem not_causalStep_of_mem_heads (hv : ∀ log ∈ logs, LogVerified P authority log)
    (hc : c ∈ heads P authority logs path) : ¬ CausalStep P logs path
    (Accepted authority) c.entryHash h := by
  rintro ⟨log, hl, e, he, log', hl', f, hf, hwe, hwf, hhe, rfl, hacc, hs | ho⟩
  · refine (mem_heads.mp hc).2 (.inl ⟨log', hl', e, f, hs, ⟨?_, hwe⟩, ⟨hacc, hwf⟩, hhe⟩)
    exact accepted_of_sublist (hv log' hl') hs hacc
  · exact (mem_heads.mp hc).2 (.inr ⟨log', hl', f, hf, ⟨hacc, hwf⟩, ho⟩)

/-- **Reported entries are concurrent as far as accepted entries can tell.** No causal chain leads
from one reported entry to another if the entry right after the first is accepted; so none runs
through accepted entries only. -/
theorem reported_not_ordered {st : MergedDeviceIdentityState}
    (h : mergeDeviceWriterLogs P authority logs = .ok st) (path : String) :
    ∀ a b, Reported st path a → Reported st path b →
      ¬ ∃ x, CausalStep P logs path (Accepted authority) a.entryHash x ∧
        ReflTransGen (CausalStep P logs path fun _ => True) x b.entryHash := by
  rintro a b ha - ⟨x, hstep, -⟩
  obtain ⟨hv, -, -⟩ := merge_eq_ok_iff.mp h
  exact not_causalStep_of_mem_heads hv ((reported_iff_mem_heads h).mp ha) hstep

/-- Two notes written without knowledge of each other. -/
theorem reported_not_ordered_notes : ∃ st a b, mergeDeviceWriterLogs primitives twoDevices
        [[laptopNote], [phoneReply]] = .ok st ∧
      Reported st "/note" a ∧ Reported st "/note" b ∧
      ¬ ∃ x, CausalStep primitives [[laptopNote], [phoneReply]] "/note"
        (Accepted twoDevices) a.entryHash x ∧
        ReflTransGen (CausalStep primitives [[laptopNote], [phoneReply]] "/note" fun _ =>
          True) x b.entryHash := by
  have hrun :
    (mergeDeviceWriterLogs primitives twoDevices [[laptopNote], [phoneReply]]).toOption.map
        (fun st => (st.singletonPaths["/note"]?, st.singletonConflicts["/note"]?)) =
      some (some (mergedEntry primitives phoneReply (.present (content 4))),
        some [mergedEntry primitives laptopNote (.present (content 1))]) := by
    decide +kernel
  obtain ⟨st, hst, hrep⟩ := exists_eq_ok_of_toOption_map hrun
  obtain ⟨hw, hc⟩ := Prod.ext_iff.mp hrep
  have ha : Reported st "/note" _ := .inr ⟨_, hc, mem_singleton.mpr rfl⟩
  have hb : Reported st "/note" _ := .inl hw
  exact ⟨st, _, _, hst, ha, hb, reported_not_ordered hst "/note" _ _ ha hb⟩

/-- **A rejected entry hides causal order.** The revoked tablet replaces the laptop's note and the
phone replaces the tablet's. The merge reports the laptop's note as a conflict of the phone's,
although it is causally before it. -/
theorem reported_ordered_through_rejected :
    ∃ st a b, mergeDeviceWriterLogs primitives Sample.tabletRevoked
        [[laptopNote], [tabletNote], [phoneReply]] = .ok st ∧
      Reported st "/note" a ∧ Reported st "/note" b ∧
      CausallyBefore primitives [[laptopNote], [tabletNote], [phoneReply]] "/note"
        a.entryHash b.entryHash := by
  have hrun : (mergeDeviceWriterLogs primitives Sample.tabletRevoked
      [[laptopNote], [tabletNote], [phoneReply]]).toOption.map
        (fun st => (st.singletonPaths["/note"]?, st.singletonConflicts["/note"]?)) =
      some (some (mergedEntry primitives phoneReply (.present (content 4))),
        some [mergedEntry primitives laptopNote (.present (content 1))]) := by
    decide +kernel
  obtain ⟨st, hst, hrep⟩ := exists_eq_ok_of_toOption_map hrun
  obtain ⟨hw, hc⟩ := Prod.ext_iff.mp hrep
  refine ⟨st, _, _, hst, .inr ⟨_, hc, mem_singleton.mpr rfl⟩, .inl hw, ?_⟩
  refine TransGen.head (b := tabletNote.entryHash primitives) ?_ (TransGen.single ?_)
  · exact ⟨[laptopNote], by simp, laptopNote, by simp, [tabletNote], by simp,
      tabletNote, by simp, by decide, by decide, rfl, rfl, trivial,
      .inr (mem_singleton.mpr rfl)⟩
  · exact ⟨[tabletNote], by simp, tabletNote, by simp, [phoneReply], by simp,
      phoneReply, by simp, by decide, by decide, rfl, rfl, trivial,
      .inr (mem_singleton.mpr rfl)⟩

end Jolt.Merge.Causality
