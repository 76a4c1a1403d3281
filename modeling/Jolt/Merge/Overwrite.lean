import Jolt.Merge.Refine

/-! # One more entry

What a merge makes of logs after one of them is extended by an entry. If the entry is written at a
path and observes the heads of the path, it becomes the only head there (`heads_eq_singleton`): what
was superseded stays superseded, and the heads are superseded by the entry. At every other path the
heads stay (`heads_perm_of_not_candidate`). -/

namespace Jolt.Merge.Overwrite

open Std Lib.Sorting Jolt.Core Jolt.Core.Types IdentityAuthority DeviceWriterLog Spec List

variable {P : Primitives} {authority authority' : VerifiedIdentityAuthority} {logs logs' : Logs}
  {path : String} {e : DeviceWriterLogEntry} {c : MergedDeviceWriterEntry}

/-- Every log is continued by one of the others. -/
def Continued (logs logs' : Logs) : Prop := ∀ log ∈ logs, ∃ log' ∈ logs', log.Sublist log'

theorem Superseded.mono (hext : Continued logs logs')
    (hstay : ∀ x ∈ logs.flatten, Candidate authority path x → Candidate authority' path x)
    {h : DeviceWriterLogEntryHash} (hs : Superseded P authority logs path h) :
    Superseded P authority' logs' path h := by
  rcases hs with ⟨log, hl, a, b, hab, ha, hb, hh⟩ | ⟨log, hl, f, hf, hc, ho⟩
  · obtain ⟨log', hl', hsub⟩ := hext log hl
    have hmem : ∀ x ∈ [a, b], x ∈ logs.flatten := fun x hx =>
      mem_flatten.mpr ⟨log, hl, hab.subset hx⟩
    exact .inl ⟨log', hl', a, b, hab.trans hsub, hstay a (hmem a (by simp)) ha,
      hstay b (hmem b (by simp)) hb, hh⟩
  · obtain ⟨log', hl', hsub⟩ := hext log hl
    have hmem : f ∈ logs.flatten := mem_flatten.mpr ⟨log, hl, hf⟩
    exact .inr ⟨log', hl', f, hsub.subset hf, hstay f hmem hc, ho⟩

theorem candidatesAt_perm_concat (authority : VerifiedIdentityAuthority)
    (hflat : logs'.flatten.Perm (logs.flatten ++ [e])) (path : String) :
    (candidatesAt P authority logs' path).Perm
      (candidatesAt P authority logs path ++ (asCandidate P authority path e).toList) := by
  have hperm := hflat.filterMap (asCandidate P authority path)
  rw [filterMap_append] at hperm
  have hlast : [e].filterMap (asCandidate P authority path) =
    (asCandidate P authority path e).toList := by
    cases h : asCandidate P authority path e <;> simp [h]
  rwa [hlast] at hperm

/-- **An entry that observes the heads of its path becomes the only head.** The authority may change
at the same time: no candidate is lost, and whatever becomes a candidate comes before the entry in
its log. -/
theorem heads_eq_singleton (hflat : logs'.flatten.Perm (logs.flatten ++ [e]))
    (hext : Continued logs logs')
    (hstay : ∀ x ∈ logs.flatten, Candidate authority path x → Candidate authority' path x)
    (hnew : ∀ x ∈ logs.flatten, Candidate authority' path x →
      Candidate authority path x ∨ ∃ log ∈ logs', [x, e].Sublist log)
    (hcand : asCandidate P authority' path e = some c)
    (hobserved : ∀ head ∈ heads P authority logs path, head.entryHash ∈ e.body.observedHeads)
    (hne : heads P authority' logs' path ≠ []) : heads P authority' logs' path = [c] := by
  classical
  have he : e ∈ logs'.flatten := hflat.mem_iff.mpr (by simp)
  obtain ⟨loge, hloge, hemem⟩ := mem_flatten.mp he
  have hcande : Candidate authority' path e := (candidate_of_asCandidate hcand).1
  -- every candidate but the new one is superseded
  have hsup : ∀ d ∈ candidatesAt P authority' logs path, Superseded P authority' logs' path
    d.entryHash := by
    intro d hd
    obtain ⟨log, hl, x, hx, hxd⟩ := mem_candidatesAt.mp hd
    obtain ⟨hcx, hdx⟩ := candidate_of_asCandidate hxd
    have hxmem : x ∈ logs.flatten := mem_flatten.mpr ⟨log, hl, hx⟩
    rcases hnew x hxmem hcx with hold | ⟨log', hl', hsub⟩
    · by_cases hs : Superseded P authority logs path d.entryHash
      · exact Superseded.mono hext hstay hs
      · obtain ⟨d', hd'⟩ := hold.exists_asCandidate (P := P)
        have hhash : d'.entryHash = d.entryHash := (candidate_of_asCandidate hd').2.trans hdx.symm
        have hhead : d' ∈ heads P authority logs path :=
          mem_heads.mpr ⟨mem_candidatesAt.mpr ⟨log, hl, x, hx, hd'⟩, hhash ▸ hs⟩
        exact .inr ⟨loge, hloge, e, hemem, hcande, hhash ▸ hobserved d' hhead⟩
    · exact .inl ⟨log', hl', x, e, hsub, hcx, hcande, hdx.symm⟩
  have hperm : (heads P authority' logs' path).Perm
      ([c].filter fun d => ¬ Superseded P authority' logs' path d.entryHash) := by
    have hfilter := (candidatesAt_perm_concat (P := P) authority' hflat path).filter
      fun d => ¬ Superseded P authority' logs' path d.entryHash
    have hold : (candidatesAt P authority' logs path).filter
        (fun d => ¬ Superseded P authority' logs' path d.entryHash) = [] :=
      filter_eq_nil_iff.mpr (by simpa using hsup)
    rw [hcand, filter_append, hold, nil_append] at hfilter
    exact (perm_sortBy entryOrder _).trans hfilter
  by_cases hs : Superseded P authority' logs' path c.entryHash
  · rw [filter_eq_nil_iff.mpr (by simpa using hs)] at hperm
    exact absurd hperm.eq_nil hne
  · rw [filter_eq_self.mpr (by simpa using hs)] at hperm
    exact perm_singleton.mp hperm

/-- **At other paths the heads stay.** Each log of `logs'` is one of `logs` or the extended one,
whose beginning is one of `logs` unless it is empty. -/
theorem heads_perm_of_not_candidate (hflat : logs'.flatten.Perm (logs.flatten ++ [e]))
    (hext : Continued logs logs')
    (hback : ∀ log' ∈ logs', log' ∈ logs ∨ ∃ l, log' = l ++ [e] ∧ (l ∈ logs ∨ l = []))
    (hcand : ¬ Candidate authority path e) : (heads P authority logs' path).Perm
    (heads P authority logs path) := by
  classical
  have hnone : asCandidate P authority path e = none := by
    cases h : asCandidate P authority path e with
    | none => rfl
    | some c => exact absurd (candidate_of_asCandidate h).1 hcand
  have hsup : ∀ h, Superseded P authority logs' path h ↔ Superseded P authority logs path h := by
    intro h
    refine ⟨?_, Superseded.mono hext fun _ _ hc => hc⟩
    rintro (⟨log', hl', a, b, hab, ha, hb, hh⟩ | ⟨log', hl', f, hf, hc, ho⟩)
    · rcases hback log' hl' with hl | ⟨l, rfl, hl⟩
      · exact .inl ⟨log', hl, a, b, hab, ha, hb, hh⟩
      · -- the pair ends before the new entry, which is no candidate
        obtain ⟨l₁, l₂, heq, h₁, h₂⟩ := sublist_append_iff.mp hab
        have hl₂ : l₂ = [] := by
          rcases sublist_singleton.mp h₂ with hnil | heq₂
          · exact hnil
          · subst heq₂
            have hlast : b = e := by
              have := congrArg List.getLast? heq
              simpa using this
            exact absurd (hlast ▸ hb) hcand
        rw [hl₂, append_nil] at heq
        rcases hl with hl | rfl
        · exact .inl ⟨l, hl, a, b, heq ▸ h₁, ha, hb, hh⟩
        · rw [sublist_nil.mp h₁] at heq
          cases heq
    · rcases hback log' hl' with hl | ⟨l, rfl, hl⟩
      · exact .inr ⟨log', hl, f, hf, hc, ho⟩
      · rcases mem_append.mp hf with hfl | hfe
        · rcases hl with hl | rfl
          · exact .inr ⟨l, hl, f, hfl, hc, ho⟩
          · cases hfl
        · exact absurd (mem_singleton.mp hfe ▸ hc) hcand
  have hperm := candidatesAt_perm_concat (P := P) authority hflat path
  rw [hnone, Option.toList_none, append_nil] at hperm
  unfold heads
  simp only [hsup]
  exact (perm_sortBy entryOrder _).trans ((hperm.filter _).trans (perm_sortBy entryOrder _).symm)

end Jolt.Merge.Overwrite
