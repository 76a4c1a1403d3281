import Jolt.Network.CacheSpec
import Jolt.Merge.Overwrite

/-! # Logs that extend what is held

What the loop over received logs does when every log extends the one that is held for its device: a
run is appended to what it continues (`accumulateLog_run`), a whole log replaces what is held of it
(`accumulateLog_whole`), and logs of distinct devices do not touch each other
(`foldlM_accumulateLog_of_forall`). And what a table becomes when one of its logs gets an entry more
(`Extends`). -/

namespace Jolt.Network.HeldLogs

open Std Lib.Checks Lib.Newest Core.Types Core.DeviceWriterLog Merge Spec Shape Overwrite
  DeviceWriterCache CacheSpec List ExtTreeMap Nat

variable {P : Primitives} {identity : IdentityId} {accumulated : DeviceLogs} {deviceId : String}
  {log : List DeviceWriterLogEntry} {accumulated' : DeviceLogs}

def held (accumulated : DeviceLogs) (deviceId : String) : List DeviceWriterLogEntry :=
    accumulated[deviceId]?.getD []

theorem getElem?_eq_some_iff_held (hk : WellKeyed accumulated) :
    accumulated[deviceId]? = some log ↔ held accumulated deviceId = log ∧ log ≠ [] := by
  unfold held
  constructor
  · intro h
    rw [h]
    exact ⟨rfl, hk.ne_nil h⟩
  · rintro ⟨rfl, hne⟩
    cases h : accumulated[deviceId]? with
    | none => simp [h] at hne
    | some log => rfl

theorem eq_of_held (hk : WellKeyed accumulated) (hk' : WellKeyed accumulated')
    (h : ∀ d, held accumulated d = held accumulated' d) : accumulated = accumulated' := by
  refine ext_getElem? fun d => Option.ext fun log => ?_
  rw [getElem?_eq_some_iff_held hk, getElem?_eq_some_iff_held hk', h d]

theorem keepNewer_of_isPrefix {known full : List DeviceWriterLogEntry} (h : known <+: full) :
    keepNewer (logOrder P) (some known) full = some full := by
  unfold keepNewer
  rcases h.length_le.lt_or_eq with hlt | heq
  · have hgt : logOrder P full known = .gt := by
      unfold logOrder
      rw [compareLex, compareOn, compare_eq_gt.mpr hlt]
      rfl
    simp only [hgt, if_true]
  · rw [h.eq_of_length heq]
    simp

section

variable (hk : WellKeyed accumulated)
include hk

theorem keepLog_of_isPrefix {full : List DeviceWriterLogEntry} (hne : full ≠ [])
    (h : held accumulated deviceId <+: full) :
    ∃ accumulated', keepLog P accumulated deviceId full = .ok accumulated' ∧
      ∀ d, held accumulated' d = if deviceId = d then full else held accumulated d := by
  obtain ⟨accumulated', hkeep, hlookup⟩ := keepLog_eq_ok (P := P) hk deviceId hne
  refine ⟨accumulated', hkeep, fun d => ?_⟩
  unfold held
  rw [hlookup d]
  by_cases hd : deviceId = d
  · subst hd
    rw [if_pos rfl, if_pos rfl]
    cases hknown : accumulated[deviceId]? with
    | none => rfl
    | some known =>
      have hpre : known <+: full := by simpa [held, hknown] using h
      rw [keepNewer_of_isPrefix hpre]
      rfl
  · rw [if_neg hd, if_neg hd]

/-- **A run that continues what is held** is appended to it. -/
theorem accumulateLog_run {whole run : List DeviceWriterLogEntry}
    (hlog : DeviceLog P identity deviceId whole) (h : held accumulated deviceId ++ run <+: whole) :
    ∃ accumulated', accumulateLog P accumulated run = .ok accumulated' ∧ ∀ d, held accumulated' d =
        if deviceId = d then held accumulated deviceId ++ run else held accumulated d := by
  cases run with
  | nil =>
    refine ⟨accumulated, rfl, fun d => ?_⟩
    split_ifs with hd
    · rw [hd, append_nil]
    · rfl
  | cons first rest =>
    have hshort := hlog.of_isPrefix h
    have hid : first.body.deviceId = deviceId :=
      (hshort.valid first (mem_append_right _ mem_cons_self)).deviceId
    have hne : held accumulated deviceId ++ first :: rest ≠ [] := by simp
    obtain ⟨kept, hkept, hheld⟩ := keepLog_of_isPrefix (P := P) hk hne
      (prefix_append (held accumulated deviceId) (first :: rest))
    refine ⟨kept, ?_, hheld⟩
    have hextend : extendKnown P accumulated first (first :: rest) =
        .ok (held accumulated deviceId ++ first :: rest) := by
      unfold extendKnown
      cases hknown : held accumulated deviceId with
      | nil =>
        rw [hknown] at hshort
        rw [if_pos (hshort.genesis first rfl).1]
        rfl
      | cons e known =>
        have hlast := getLast?_eq_getLast_of_ne_nil (cons_ne_nil e known)
        have hget : accumulated[deviceId]? = some (e :: known) :=
          (getElem?_eq_some_iff_held hk).mpr ⟨hknown, cons_ne_nil e known⟩
        rw [hknown] at hshort
        have hfollows := (isChain_append.mp hshort.chain).2.2 _ hlast first rfl
        have hpos : first.body.deviceSequence ≠ 0 := by
          intro h0
          have h1 := hfollows.1
          rw [h0] at h1
          simp at h1
        rw [if_neg hpos, hid, hget]
        simp only [hlast]
        rw [if_neg (by rw [not_or, not_not, not_not]; exact hfollows)]
    rw [accumulateLog, hextend]
    simpa [hid] using hkept

theorem accumulateLog_genesis {first : DeviceWriterLogEntry}
    {rest : List DeviceWriterLogEntry} (hzero : first.body.deviceSequence = 0)
    (h : held accumulated first.body.deviceId <+: first :: rest) :
    ∃ accumulated', accumulateLog P accumulated (first :: rest) = .ok accumulated' ∧
      ∀ d, held accumulated' d =
        if first.body.deviceId = d then first :: rest else held accumulated d := by
  obtain ⟨kept, hkept, hheld⟩ := keepLog_of_isPrefix (P := P) hk (cons_ne_nil first rest) h
  refine ⟨kept, ?_, hheld⟩
  rw [accumulateLog, extendKnown, if_pos hzero]
  exact hkept

/-- **A whole log** replaces what is held of it. -/
theorem accumulateLog_whole {whole : List DeviceWriterLogEntry}
    (hlog : DeviceLog P identity deviceId whole) (hne : whole ≠ [])
    (h : held accumulated deviceId <+: whole) :
    ∃ accumulated', accumulateLog P accumulated whole = .ok accumulated' ∧
      ∀ d, held accumulated' d = if deviceId = d then whole else held accumulated d := by
  obtain ⟨first, rest, rfl⟩ := exists_cons_of_ne_nil hne
  have hid : first.body.deviceId = deviceId := (hlog.valid first mem_cons_self).deviceId
  rw [← hid] at h ⊢
  exact accumulateLog_genesis hk (hlog.genesis first rfl).1 h

end

/-- **A loop over logs of distinct devices**, if each turn only sets the log of its device. -/
theorem foldlM_accumulateLog_of_forall {α : Type} (received target : α → List DeviceWriterLogEntry)
    (device : α → String) : ∀ (items : List α) {accumulated : DeviceLogs}, WellKeyed accumulated →
      (items.map device).Nodup →
      (∀ a ∈ items, ∀ {acc : DeviceLogs}, WellKeyed acc → held acc (device a) =
        held accumulated (device a) →
        ∃ acc', accumulateLog P acc (received a) = .ok acc' ∧
          ∀ d, held acc' d = if device a = d then target a else held acc d) →
      ∃ accumulated', (items.map received).foldlM (accumulateLog P) accumulated = .ok accumulated' ∧
        WellKeyed accumulated' ∧ (∀ a ∈ items, held accumulated' (device a) = target a) ∧
        ∀ d, d ∉ items.map device → held accumulated' d = held accumulated d
  | [], accumulated, hk, _, _ => ⟨accumulated, rfl, hk, by simp, fun _ _ => rfl⟩
  | a :: items, accumulated, hk, hnodup, hturn => by
    rw [map_cons, nodup_cons] at hnodup
    obtain ⟨acc, hacc, hheld⟩ := hturn a mem_cons_self hk rfl
    have hother : ∀ b ∈ items, held acc (device b) = held accumulated (device b) := by
      intro b hb
      rw [hheld, if_neg]
      intro heq
      exact hnodup.1 (heq ▸ mem_map_of_mem hb)
    obtain ⟨acc', hacc', hk', hset, hkeep⟩ := foldlM_accumulateLog_of_forall received target
      device items (hk.accumulateLog hacc) hnodup.2 fun b hb acc₁ hk₁ heq =>
        hturn b (mem_cons_of_mem a hb) hk₁ (heq.trans (hother b hb))
    refine ⟨acc', ?_, hk', ?_, ?_⟩
    · rw [map_cons, foldlM_cons, hacc]
      exact hacc'
    · intro b hb
      rcases mem_cons.mp hb with rfl | hb
      · rw [hkeep _ hnodup.1, hheld, if_pos rfl]
      · exact hset b hb
    · intro d hd
      rw [map_cons, mem_cons, not_or] at hd
      rw [hkeep d hd.2, hheld, if_neg (Ne.symm hd.1)]

theorem foldlM_filter_ne_nil : ∀ (runs : Logs) (accumulated : DeviceLogs),
    (runs.filter (· ≠ [])).foldlM (accumulateLog P) accumulated = runs.foldlM
    (accumulateLog P) accumulated
  | [], _ => rfl
  | [] :: runs, accumulated => by
    rw [filter_cons_of_neg (by simp), foldlM_filter_ne_nil runs, foldlM_cons]
    rfl
  | (e :: run) :: runs, accumulated => by
    rw [filter_cons_of_pos (by simp), foldlM_cons, foldlM_cons]
    congr 1
    funext acc
    exact foldlM_filter_ne_nil runs acc

/-! ### What is held does not get shorter -/

theorem length_le_keepNewer {known : Option (List DeviceWriterLogEntry)} :
    (known.getD []).length ≤ ((keepNewer (logOrder P) known log).getD []).length := by
  cases known with
  | none => exact zero_le _
  | some known =>
    unfold keepNewer
    by_cases hgt : logOrder P log known = .gt
    · have hlen : compare log.length known.length ≠ .lt := by
        intro hlt
        simp [logOrder, compareLex, compareOn, hlt] at hgt
      simp only [hgt, if_true, Option.getD_some]
      rwa [Ne, Nat.compare_eq_lt, Nat.not_lt] at hlen
    · simp only [hgt, if_false, Option.getD_some, Nat.le_refl]

theorem length_held_le_of_accumulateLog (hk : WellKeyed accumulated)
    (h : accumulateLog P accumulated log = .ok accumulated') (d : String) :
    (held accumulated d).length ≤ (held accumulated' d).length := by
  rcases accumulateLog_cases hk h with ⟨-, rfl⟩ | ⟨first, full, -, -, hlookup⟩
  · exact Nat.le_refl _
  · unfold held
    rw [hlookup d]
    split_ifs
    · exact length_le_keepNewer
    · exact Nat.le_refl _

theorem length_held_le_of_foldlM : ∀ {logs : Logs} {accumulated accumulated' : DeviceLogs},
    WellKeyed accumulated → logs.foldlM (accumulateLog P) accumulated = .ok accumulated' →
    ∀ d, (held accumulated d).length ≤ (held accumulated' d).length
  | [], _, _, _, h, d => by
    simp only [foldlM_nil, pure_eq_ok] at h
    exact h ▸ Nat.le_refl _
  | log :: logs, _, _, hk, h, d => by
    rw [foldlM_cons, bind_eq_ok] at h
    obtain ⟨acc, h₁, h₂⟩ := h
    exact (length_held_le_of_accumulateLog hk h₁ d).trans
      (length_held_le_of_foldlM (hk.accumulateLog h₁) h₂ d)

/-! ### One log and the others -/

/-- The rows of the devices other than `d`. -/
def besides (accumulated : DeviceLogs) (d : String) : List (String × List DeviceWriterLogEntry) :=
  accumulated.toList.filter (·.1 ≠ d)

theorem nodup_toList (accumulated : DeviceLogs) : accumulated.toList.Nodup :=
  distinct_keys_toList.imp fun hne heq => hne (by rw [heq]; exact ReflCmp.compare_self)

theorem mem_besides {d : String} {r : String × List DeviceWriterLogEntry} :
    r ∈ besides accumulated d ↔ accumulated[r.1]? = some r.2 ∧ r.1 ≠ d := by
  rw [besides, mem_filter, ← mem_toList_iff_getElem?_eq_some, decide_eq_true_eq]

theorem toList_perm_besides (accumulated : DeviceLogs) (d : String) : accumulated.toList.Perm
      (accumulated[d]?.toList.map (d, ·) ++ besides accumulated d) := by
  refine (perm_ext_iff_of_nodup (nodup_toList accumulated) ?_).mpr fun r => ?_
  · refine nodup_append.mpr ⟨?_, (nodup_toList accumulated).filter _, ?_⟩
    · cases accumulated[d]? <;> simp
    · intro a ha b hb hab
      obtain ⟨log, -, rfl⟩ := mem_map.mp ha
      exact (mem_besides.mp hb).2 (by rw [← hab])
  · obtain ⟨k, log⟩ := r
    rw [mem_toList_iff_getElem?_eq_some, mem_append, mem_besides]
    by_cases hkd : k = d
    · subst hkd
      simp
    · simp [hkd, Ne.symm hkd]

theorem flatten_values_perm (iteration : Iteration) (accumulated : DeviceLogs) (d : String) :
    (iteration.values accumulated).flatten.Perm
      (held accumulated d ++ ((besides accumulated d).map (·.2)).flatten) := by
  have hrows : (iteration.rows accumulated).Perm accumulated.toList := iteration.perm _
  have hperm := ((hrows.trans (toList_perm_besides accumulated d)).map (·.2)).flatten
  rw [List.map_append, List.flatten_append, List.map_map] at hperm
  have hheld : ((accumulated[d]?.toList.map ((·.2) ∘ (d, ·))) : Logs).flatten =
    held accumulated d := by
    unfold held
    cases accumulated[d]? <;> simp
  rwa [hheld] at hperm

/-! ### A log with one more entry -/

/-- The log of `d` has the entry `e` more; the others are the same. -/
structure Extends (accumulated accumulated' : DeviceLogs) (d : String) (e : DeviceWriterLogEntry) :
    Prop where
  wellKeyed : WellKeyed accumulated
  wellKeyed' : WellKeyed accumulated'
  held : ∀ d', HeldLogs.held accumulated' d' =
    if d = d' then HeldLogs.held accumulated d ++ [e] else HeldLogs.held accumulated d'

namespace Extends

variable {accumulated' : DeviceLogs} {d : String} {e : DeviceWriterLogEntry}
  {iteration iteration' : Iteration}

section

variable (h : Extends accumulated accumulated' d e)
include h

theorem getElem?_of_ne {d' : String} (hne : d ≠ d') : accumulated'[d']? = accumulated[d']? := by
  refine Option.ext fun log => ?_
  rw [getElem?_eq_some_iff_held h.wellKeyed', getElem?_eq_some_iff_held h.wellKeyed,
    h.held, if_neg hne]

theorem getElem?_self : accumulated'[d]? = some (HeldLogs.held accumulated d ++ [e]) := by
  rw [getElem?_eq_some_iff_held h.wellKeyed', h.held, if_pos rfl]
  exact ⟨rfl, by simp⟩

theorem flatten_perm : (iteration'.values accumulated').flatten.Perm
      ((iteration.values accumulated).flatten ++ [e]) := by
  have hothers : (besides accumulated' d).Perm (besides accumulated d) := by
    refine (perm_ext_iff_of_nodup ((nodup_toList _).filter _) ((nodup_toList _).filter _)).mpr
      fun r => ?_
    rw [← besides, ← besides, mem_besides, mem_besides]
    refine and_congr_left fun hr => ?_
    rw [h.getElem?_of_ne (Ne.symm hr)]
  have hleft := flatten_values_perm iteration' accumulated' d
  rw [h.held, if_pos rfl] at hleft
  refine hleft.trans ?_
  have hright := (flatten_values_perm iteration accumulated d).append_right [e]
  refine List.Perm.trans ?_ hright.symm
  rw [append_assoc, append_assoc]
  refine List.Perm.append_left _ ?_
  exact perm_append_comm.trans ((hothers.map (·.2)).flatten.append_right [e])

theorem continued : Continued (iteration.values accumulated) (iteration'.values accumulated') := by
  intro log hlog
  obtain ⟨d', hd'⟩ := mem_values.mp hlog
  by_cases hd : d = d'
  · subst hd
    refine ⟨_, mem_values.mpr ⟨d, h.getElem?_self⟩, ?_⟩
    rw [((getElem?_eq_some_iff_held h.wellKeyed).mp hd').1]
    exact sublist_append_left _ _
  · exact ⟨log, mem_values.mpr ⟨d', (h.getElem?_of_ne hd).trans hd'⟩, List.Sublist.refl _⟩

theorem exists_of_mem_values {log' : List DeviceWriterLogEntry}
    (hlog' : log' ∈ iteration'.values accumulated') :
    log' ∈ iteration.values accumulated ∨ ∃ l, log' = l ++ [e] ∧
      (l ∈ iteration.values accumulated ∨ l = []) := by
  obtain ⟨d', hd'⟩ := mem_values.mp hlog'
  by_cases hd : d = d'
  · subst hd
    rw [h.getElem?_self] at hd'
    cases hd'
    refine .inr ⟨_, rfl, ?_⟩
    by_cases hnil : HeldLogs.held accumulated d = []
    · exact .inr hnil
    · exact .inl (mem_values.mpr ⟨d, (getElem?_eq_some_iff_held h.wellKeyed).mpr ⟨rfl, hnil⟩⟩)
  · exact .inl (mem_values.mpr ⟨d', (h.getElem?_of_ne hd).symm.trans hd'⟩)

end

end Extends

end Jolt.Network.HeldLogs
