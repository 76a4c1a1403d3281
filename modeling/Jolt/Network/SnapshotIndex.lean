import Jolt.Lib.Sorting
import Mathlib

/-! # The index of remote identity snapshots

The snapshots of remote identities are files, one for each identity, and an index in memory has
their sizes and the order in which they were written (`RemoteIdentityStateStore` in `store.rs`). A
save writes a temporary file, takes the identity's entry out of the index, removes the oldest files
until there is room, and renames its file. It returns at the first operation that fails, and does
not put back what it has taken out.

As long as files can be removed, and the rename of an identity's second file does not fail, the
index tells what is on disk (`truthful_of_reachable`). A rename that fails leaves a file that is no
longer in the index (`unindexed_after_failed_rename`).

The temporary files are no snapshots and are left out. An order of writing is `u128` in the
source. -/

namespace Jolt.Network.SnapshotIndex

open Std (ExtTreeMap)
open Lib.Sorting Nat

/-! ### The index -/

def maxRemoteIdentityStates : ℕ := 4096

def u64Max : ℕ := 2 ^ 64 - 1

def saturatingAdd (a b : ℕ) : ℕ := min (a + b) u64Max

structure RemoteIdentityStateIndexEntry where
  identity : String
  size : ℕ
  writeOrder : ℕ
deriving DecidableEq

def pathOf (identity : String) : String := identity ++ ".json"

structure RemoteIdentityStateIndex where
  entries : List RemoteIdentityStateIndexEntry
  nodup : (entries.map (·.identity)).Nodup
  totalSize : ℕ
  nextWriteOrder : ℕ

inductive StoreError where
  | io (message : String)
  | serialization (message : String)
  | remoteIdentityStateTooLarge
deriving DecidableEq

namespace RemoteIdentityStateIndex

variable {index : RemoteIdentityStateIndex} {entry : RemoteIdentityStateIndexEntry}
  {identity : String} {size : ℕ}

def empty : RemoteIdentityStateIndex := ⟨[], List.nodup_nil, 0, 0⟩

def remove (index : RemoteIdentityStateIndex) (identity : String) : RemoteIdentityStateIndex :=
  { index with
    entries := index.entries.filter (·.identity ≠ identity)
    nodup := index.nodup.sublist (List.filter_sublist.map _) }

def insert (index : RemoteIdentityStateIndex) (identity : String) (size : ℕ) :
    RemoteIdentityStateIndex where
  entries := ⟨identity, size, index.nextWriteOrder⟩ :: (index.remove identity).entries
  nodup := List.nodup_cons.mpr ⟨by simp [remove], (index.remove identity).nodup⟩
  totalSize := saturatingAdd index.totalSize size
  nextWriteOrder := index.nextWriteOrder + 1

def oldest (index : RemoteIdentityStateIndex) : Option RemoteIdentityStateIndexEntry :=
  index.entries.argmin fun entry => toLex (entry.writeOrder, pathOf entry.identity)

/-- The index of the files in a directory, which may fail to be listed. -/
def scan (listed : Except String Unit) (files : ExtTreeMap String ℕ) (modified : String → ℕ) :
    Except StoreError RemoteIdentityStateIndex :=
  match listed with
  | .error error => .error (.io error)
  | .ok () =>
    let order := compareLex (compareOn fun row => modified row.1)
      (compareOn fun row => pathOf row.1)
    .ok ((sortBy order files.toList).foldl (fun index row => index.insert row.1 row.2) empty)

theorem mem_remove : entry ∈ (index.remove identity).entries ↔ entry ∈ index.entries ∧
    entry.identity ≠ identity := by
  simp [remove]

theorem eq_of_identity {e e' : RemoteIdentityStateIndexEntry} (he : e ∈ index.entries)
    (he' : e' ∈ index.entries) (h : e.identity = e'.identity) : e = e' :=
  List.inj_on_of_nodup_map index.nodup he he' h

theorem sum_remove (h : entry ∈ index.entries) :
    ((index.remove entry.identity).entries.map (·.size)).sum + entry.size =
    (index.entries.map (·.size)).sum := by
  have hnodup : index.entries.Nodup := index.nodup.of_map
  have herase : (index.remove entry.identity).entries = index.entries.erase entry := by
    rw [hnodup.erase_eq_filter]
    refine List.filter_congr fun e he => ?_
    have hiff : e.identity = entry.identity ↔ e = entry :=
      ⟨eq_of_identity he h, fun heq => heq ▸ rfl⟩
    rw [decide_not, decide_eq_decide.mpr hiff, bne, beq_eq_decide]
  rw [herase, add_comm, List.sum_map_erase _ h]

theorem length_remove_lt (h : entry ∈ index.entries) :
    (index.remove entry.identity).entries.length < index.entries.length := by
  refine List.length_filter_lt_length_iff_exists.mpr ⟨entry, h, by simp⟩

theorem remove_of_not_mem (h : ∀ e ∈ index.entries, e.identity ≠ identity) :
    index.remove identity = index := by
  unfold remove
  congr
  exact List.filter_eq_self.mpr fun e he => by simpa using h e he

end RemoteIdentityStateIndex

/-! ### The store -/

structure RemoteIdentityStateStore where
  files : ExtTreeMap String ℕ
  index : RemoteIdentityStateIndex
  maxSizeBytes : ℕ

structure FileOutcomes where
  write : Except String Unit
  metadata : Except String Unit
  remove : String → Except String Unit
  rename : Except String Unit

namespace RemoteIdentityStateStore

variable (store : RemoteIdentityStateStore)

/-- There are too many entries, or too little space for a file of the size. -/
def full (newSize : ℕ) : Bool :=
  maxRemoteIdentityStates ≤ store.index.entries.length ||
    store.maxSizeBytes < saturatingAdd store.index.totalSize newSize

def dropped (entry : RemoteIdentityStateIndexEntry) : RemoteIdentityStateStore :=
  { store with
    files := store.files.erase entry.identity
    index := { store.index.remove entry.identity with totalSize := store.index.totalSize -
      entry.size } }

/-- The loop that removes the oldest files. Each turn takes an entry out of the index. -/
def evict (outcomes : FileOutcomes) (newSize : ℕ) (store : RemoteIdentityStateStore) :
    Except StoreError Unit × RemoteIdentityStateStore :=
  if store.full newSize then
    match _h : store.index.oldest with
    | none => (.error .remoteIdentityStateTooLarge, store)
    | some entry =>
      match outcomes.remove entry.identity with
      | .error error =>
          (.error (.io error), { store with index := store.index.remove entry.identity })
      | .ok () => evict outcomes newSize (store.dropped entry)
  else (.ok (), store)
termination_by store.index.entries.length
decreasing_by exact RemoteIdentityStateIndex.length_remove_lt (List.argmin_mem _h)

/-- The entries that the loop takes out if no removal fails. -/
def evicted (newSize : ℕ) (store : RemoteIdentityStateStore) : List RemoteIdentityStateIndexEntry :=
  if store.full newSize then
    match _h : store.index.oldest with
    | none => []
    | some entry => entry :: evicted newSize (store.dropped entry)
  else []
termination_by store.index.entries.length
decreasing_by exact RemoteIdentityStateIndex.length_remove_lt (List.argmin_mem _h)

/-- The store without the entry of the identity; its file is still there. -/
def withoutEntry (identity : String) : RemoteIdentityStateStore :=
  match store.index.entries.find? (·.identity = identity) with
  | none => store
  | some previous =>
    { store with
      index := { store.index.remove identity with totalSize := store.index.totalSize -
        previous.size } }

/-- `save`. The record is given by its identity and the length of its JSON text. -/
def save (outcomes : FileOutcomes) (identity : String) (json : Except String ℕ) :
    Except StoreError Unit × RemoteIdentityStateStore :=
  match json with
  | .error error => (.error (.serialization error), store)
  | .ok size =>
    if store.maxSizeBytes < size then (.error .remoteIdentityStateTooLarge, store)
    else
      match outcomes.write, outcomes.metadata with
      | .error error, _ => (.error (.io error), store)
      | .ok (), .error error => (.error (.io error), store)
      | .ok (), .ok () =>
        match (store.withoutEntry identity).evict outcomes size with
        | (.error error, store) => (.error error, store)
        | (.ok (), store) =>
          match outcomes.rename with
          | .error error => (.error (.io error), store)
          | .ok () => (.ok (),
              { store with
                files := store.files.insert identity size
                index := store.index.insert identity size })

end RemoteIdentityStateStore

open RemoteIdentityStateIndex (scan mem_remove eq_of_identity sum_remove remove_of_not_mem)
open RemoteIdentityStateStore (full evict evicted save withoutEntry)

/-! ### The index tells what is on disk -/

/-- The index has the files of the disk with their sizes, apart from files that are still to get
their entry. -/
structure Truthful (saving : List String) (store : RemoteIdentityStateStore) : Prop where
  total : store.index.totalSize = (store.index.entries.map (·.size)).sum
  entry : ∀ e ∈ store.index.entries, store.files[e.identity]? = some e.size
  file : ∀ identity ∈ store.files, identity ∉ saving → ∃ e ∈ store.index.entries,
    e.identity = identity
  /-- What is written next is written last. -/
  recent : ∀ e ∈ store.index.entries, e.writeOrder < store.index.nextWriteOrder
  distinct : ∀ e ∈ store.index.entries, ∀ e' ∈ store.index.entries, e.writeOrder =
    e'.writeOrder → e = e'

/-- From the first store to the second, the entries written first were removed. -/
structure Evicts (store store' : RemoteIdentityStateStore) : Prop where
  subset : store'.index.entries ⊆ store.index.entries
  oldest : ∀ e ∈ store.index.entries, e ∉ store'.index.entries →
    ∀ e' ∈ store'.index.entries, e.writeOrder < e'.writeOrder
  nextWriteOrder : store'.index.nextWriteOrder = store.index.nextWriteOrder
  maxSizeBytes : store'.maxSizeBytes = store.maxSizeBytes

variable {store : RemoteIdentityStateStore} {outcomes : FileOutcomes} {saving : List String}
  {newSize : ℕ} {e entry : RemoteIdentityStateIndexEntry} {identity : String}
  {json : Except String ℕ} {files : ExtTreeMap String ℕ}

theorem writeOrder_le_of_oldest (h : store.index.oldest = some entry)
    (he : e ∈ store.index.entries) :
    entry.writeOrder ≤ e.writeOrder := by
  have hle := List.le_of_mem_argmin he h
  rcases Prod.Lex.le_iff.mp hle with hlt | ⟨heq, -⟩
  · exact hlt.le
  · exact heq.le

theorem Truthful.dropped (h : Truthful saving store) (he : entry ∈ store.index.entries) :
    Truthful saving (store.dropped entry) where
  total := by
    have hsum := sum_remove he
    have htotal := h.total
    change store.index.totalSize - entry.size =
      ((store.index.remove entry.identity).entries.map (·.size)).sum
    omega
  entry e hmem := by
    obtain ⟨hmem, hne⟩ := mem_remove.mp hmem
    simpa [RemoteIdentityStateStore.dropped, ExtTreeMap.getElem?_erase,
      Ne.symm hne] using h.entry e hmem
  file identity hmem hsaving := by
    obtain ⟨hne, hmem⟩ := ExtTreeMap.mem_erase.mp hmem
    obtain ⟨e, he, rfl⟩ := h.file identity hmem hsaving
    exact ⟨e, mem_remove.mpr ⟨he, fun heq => hne (by simp [heq])⟩, rfl⟩
  recent e hmem := h.recent e (mem_remove.mp hmem).1
  distinct e hmem e' hmem' := h.distinct e (mem_remove.mp hmem).1 e' (mem_remove.mp hmem').1

/-- **The loop makes room.** It removes the oldest entries, and the index stays true. -/
theorem evict_spec (h : Truthful saving store) (hok : (store.evict outcomes newSize).1 = .ok ()) :
    Truthful saving (store.evict outcomes newSize).2 ∧
      (store.evict outcomes newSize).2.full newSize = false ∧
      Evicts store (store.evict outcomes newSize).2 := by
  fun_induction evict outcomes newSize store with
  | case1 => contradiction
  | case2 => contradiction
  | case3 store _ entry hentry _ ih =>
    have hmem : entry ∈ store.index.entries := List.argmin_mem hentry
    obtain ⟨htrue, hroom, hsub, hold, hnext, hmax⟩ := ih (h.dropped hmem) hok
    refine ⟨htrue, hroom, fun e he => (mem_remove.mp (hsub he)).1, ?_, hnext, hmax⟩
    intro e he hgone e' he'
    by_cases heq : e.identity = entry.identity
    · obtain rfl := eq_of_identity he hmem heq
      obtain ⟨hmem', hne⟩ := mem_remove.mp (hsub he')
      refine (writeOrder_le_of_oldest hentry hmem').lt_of_ne fun horder => hne ?_
      rw [h.distinct _ he e' hmem' horder]
    · exact hold e (mem_remove.mpr ⟨he, heq⟩) hgone e' he'
  | case4 store hroom =>
    exact ⟨h, by simpa using hroom, fun _ he => he, fun e he hgone => absurd he hgone, rfl, rfl⟩

theorem evicted_of_full {entry : RemoteIdentityStateIndexEntry} (hfull : store.full newSize = true)
    (hentry : store.index.oldest = some entry) :
    store.evicted newSize = entry :: (store.dropped entry).evicted newSize := by
  rw [evicted, if_pos hfull]
  split <;> simp_all

theorem evict_ok (hremove : ∀ e ∈ store.evicted newSize, outcomes.remove e.identity = .ok ())
    (hsize : newSize ≤ store.maxSizeBytes) (h : Truthful saving store) :
    (store.evict outcomes newSize).1 = .ok () := by
  fun_induction evict outcomes newSize store with
  | case1 store hfull hnone =>
    -- without entries there is room
    have hnil : store.index.entries = [] := List.argmin_eq_none.mp hnone
    have htotal := h.total
    simp only [hnil, List.map_nil, List.sum_nil] at htotal
    simp only [full, hnil, htotal, saturatingAdd, maxRemoteIdentityStates, List.length_nil,
      Bool.or_eq_true, decide_eq_true_eq] at hfull
    omega
  | case2 store hfull entry hentry _ herror =>
    rw [evicted_of_full hfull hentry] at hremove
    simp [hremove entry List.mem_cons_self] at herror
  | case3 store hfull entry hentry _ ih =>
    rw [evicted_of_full hfull hentry] at hremove
    exact ih (fun e he => hremove e (List.mem_cons_of_mem _ he)) hsize
      (h.dropped (List.argmin_mem hentry))
  | case4 => rfl

theorem removed_of_evict (hok : (store.evict outcomes newSize).1 = .ok ()) :
    ∀ e ∈ store.evicted newSize, outcomes.remove e.identity = .ok () := by
  fun_induction evict outcomes newSize store with
  | case1 => cases hok
  | case2 => cases hok
  | case3 store hfull entry hentry hremove ih =>
    rw [evicted_of_full hfull hentry]
    exact List.forall_mem_cons.mpr ⟨hremove, ih hok⟩
  | case4 store hroom =>
    rw [evicted, if_neg hroom]
    exact List.forall_mem_nil _

theorem truthful_withoutEntry (h : Truthful [] store) (identity : String) :
    Truthful [identity] (store.withoutEntry identity) ∧
    (store.withoutEntry identity).index.entries = (store.index.remove identity).entries ∧
    (store.withoutEntry identity).index.nextWriteOrder = store.index.nextWriteOrder ∧
    (store.withoutEntry identity).maxSizeBytes = store.maxSizeBytes := by
  unfold withoutEntry
  split
  next hnone =>
    have hne : ∀ e ∈ store.index.entries, e.identity ≠ identity := by simpa using hnone
    refine ⟨⟨h.total, h.entry, fun identity hmem _ => ?_, h.recent, h.distinct⟩, ?_, rfl, rfl⟩
    · exact h.file identity hmem List.not_mem_nil
    · rw [remove_of_not_mem hne]
  next previous hfind =>
    have hmem := List.mem_of_find?_eq_some hfind
    obtain rfl : previous.identity = identity := by simpa using List.find?_some hfind
    have hdropped := h.dropped hmem
    refine ⟨⟨hdropped.total, fun e he => ?_, fun identity hfile hne => ?_, hdropped.recent,
      hdropped.distinct⟩,
      rfl, rfl, rfl⟩
    · exact h.entry e (mem_remove.mp he).1
    · obtain ⟨e, he, rfl⟩ := h.file identity hfile List.not_mem_nil
      exact ⟨e, mem_remove.mpr ⟨he, fun heq => hne (by simp [heq])⟩, rfl⟩

theorem Truthful.insert {size : ℕ} (h : Truthful (identity :: saving) store)
    (hsum : store.index.totalSize + size ≤ u64Max)
    (hnone : ∀ e ∈ store.index.entries, e.identity ≠ identity) :
    Truthful saving { store with
      files := store.files.insert identity size
      index := store.index.insert identity size } where
  total := by
    change min (store.index.totalSize + size) u64Max = size +
      ((store.index.remove identity).entries.map (·.size)).sum
    rw [min_eq_left hsum, remove_of_not_mem hnone, h.total, add_comm]
  entry e he := by
    rcases List.mem_cons.mp he with rfl | he
    · simp
    · obtain ⟨he, hne⟩ := mem_remove.mp he
      simpa [ExtTreeMap.getElem?_insert, Ne.symm hne] using h.entry e he
  file other hmem hsaving := by
    by_cases heq : identity = other
    · exact ⟨_, List.mem_cons_self, heq⟩
    · have hfile : other ∈ store.files := ExtTreeMap.mem_of_mem_insert hmem (by simpa using heq)
      obtain ⟨e, he, rfl⟩ := h.file other hfile (by simp [Ne.symm heq, hsaving])
      exact ⟨e, List.mem_cons_of_mem _ (mem_remove.mpr ⟨he, Ne.symm heq⟩), rfl⟩
  recent e he := by
    rcases List.mem_cons.mp he with rfl | he
    · exact lt_succ_self _
    · exact lt_succ_of_lt (h.recent e (mem_remove.mp he).1)
  distinct e he e' he' horder := by
    rcases List.mem_cons.mp he with rfl | he <;> rcases List.mem_cons.mp he' with rfl | he'
    · rfl
    · exact absurd horder (h.recent e' (mem_remove.mp he').1).ne'
    · exact absurd horder (h.recent e (mem_remove.mp he).1).ne
    · exact h.distinct e (mem_remove.mp he).1 e' (mem_remove.mp he').1 horder

theorem truthful_foldl {maxSizeBytes : ℕ} (rows : List (String × ℕ))
    (hnodup : (rows.map (·.1)).Nodup) (hfiles : ∀ row ∈ rows, files[row.1]? = some row.2)
    (index : RemoteIdentityStateIndex) (h : Truthful (rows.map (·.1)) ⟨files, index, maxSizeBytes⟩)
    (hnew : ∀ row ∈ rows, ∀ e ∈ index.entries, e.identity ≠ row.1)
    (hsum : index.totalSize + (rows.map (·.2)).sum ≤ u64Max) :
    Truthful [] ⟨files, rows.foldl (fun index row => index.insert row.1 row.2) index,
      maxSizeBytes⟩ := by
  induction rows generalizing index with
  | nil => exact h
  | cons row rows ih =>
    simp only [List.map_cons, List.nodup_cons, List.sum_cons] at hnodup hsum
    have hinsert : files.insert row.1 row.2 = files := by
      refine ExtTreeMap.ext_getElem? fun identity => ?_
      rw [ExtTreeMap.getElem?_insert]
      split
      next heq => rw [← compare_eq_iff_eq.mp heq, hfiles row List.mem_cons_self]
      next => rfl
    have htotal : index.totalSize + row.2 ≤ u64Max := by omega
    have htrue := h.insert htotal (hnew row List.mem_cons_self)
    rw [hinsert] at htrue
    refine ih hnodup.2 (fun other hother => hfiles other (List.mem_cons_of_mem row hother)) _
      htrue ?_ ?_
    · intro other hother e he heq
      rcases List.mem_cons.mp he with rfl | he
      · exact hnodup.1 (List.mem_map.mpr ⟨other, hother, heq.symm⟩)
      · exact hnew other (List.mem_cons_of_mem row hother) e (mem_remove.mp he).1 heq
    · change min (index.totalSize + row.2) u64Max + (rows.map (·.2)).sum ≤ u64Max
      omega

/-- **A scan finds every file.** -/
theorem truthful_scan {listed : Except String Unit} {modified : String → ℕ}
    {index : RemoteIdentityStateIndex} (maxSizeBytes : ℕ)
    (hscan : scan listed files modified = .ok index)
    (hsum : (files.toList.map (·.2)).sum ≤ u64Max) : Truthful [] ⟨files, index, maxSizeBytes⟩ := by
  unfold scan at hscan
  split at hscan
  next => contradiction
  next =>
    obtain rfl := Except.ok.inj hscan
    have hperm := perm_sortBy (compareLex (compareOn fun row => modified row.1)
      (compareOn fun row => pathOf row.1))
      files.toList
    refine truthful_foldl _ ?_ ?_ _ ⟨rfl, nofun, ?_, nofun, nofun⟩ nofun ?_
    · rw [(hperm.map _).nodup_iff, List.Nodup, List.pairwise_map]
      exact ExtTreeMap.distinct_keys_toList.imp fun hne heq => hne (by simp [heq])
    · exact fun row hrow => ExtTreeMap.mem_toList_iff_getElem?_eq_some.mp (hperm.mem_iff.mp hrow)
    · intro identity hmem hsaving
      obtain ⟨size, hsize⟩ := ExtTreeMap.mem_iff_isSome_getElem?.mp hmem |>
        Option.isSome_iff_exists.mp
      refine absurd (List.mem_map.mpr ⟨(identity, size), hperm.mem_iff.mpr ?_, rfl⟩) hsaving
      exact ExtTreeMap.mem_toList_iff_getElem?_eq_some.mpr hsize
    · simpa [(hperm.map _).sum_eq, RemoteIdentityStateIndex.empty] using hsum

/-! ### Saves -/

/-- The files that the save has to remove can be removed, and so can the new one be renamed if the
identity had a file. -/
def Undisturbed (store : RemoteIdentityStateStore) (outcomes : FileOutcomes) (identity : String)
    (json : Except String ℕ) : Prop :=
  (∀ size, json = .ok size → ∀ e ∈ (store.withoutEntry identity).evicted size,
    outcomes.remove e.identity = .ok ()) ∧
  (outcomes.rename = .ok () ∨ ∀ e ∈ store.index.entries, e.identity ≠ identity)

theorem undisturbed_of_ok (h : (store.save outcomes identity json).1 = .ok ()) :
    Undisturbed store outcomes identity json := by
  unfold save at h
  match json with
  | .error error => cases h
  | .ok size =>
    dsimp only at h
    split_ifs at h
    split at h
    · cases h
    · cases h
    split at h
    · cases h
    rename_i hevict
    split at h
    · cases h
    rename_i hrename
    refine ⟨?_, .inl hrename⟩
    rintro _ ⟨⟩
    exact removed_of_evict (congrArg Prod.fst hevict)

/-- After a save there are not too many entries and bytes, and of the other entries, those written
first are gone. -/
structure Bounded (store : RemoteIdentityStateStore) (identity : String)
    (store' : RemoteIdentityStateStore) :
    Prop where
  entries : store'.index.entries.length ≤ maxRemoteIdentityStates
  bytes : store'.index.totalSize ≤ store.maxSizeBytes
  oldest : ∀ e ∈ store.index.entries, e.identity ≠ identity → e ∉ store'.index.entries →
    ∀ e' ∈ store'.index.entries, e.writeOrder < e'.writeOrder

theorem withoutEntry_of_not_mem (h : ∀ e ∈ store.index.entries, e.identity ≠ identity) :
    store.withoutEntry identity = store := by
  have hnone : store.index.entries.find? (·.identity = identity) = none := by simpa using h
  rw [withoutEntry, hnone]

/-- **A save that gets to its end** keeps the index true and keeps the bounds. -/
theorem truthful_written {size : ℕ} (hmax : store.maxSizeBytes < u64Max) (h : Truthful [] store)
    (hok : ((store.withoutEntry identity).evict outcomes size).1 = .ok ())
    {store' : RemoteIdentityStateStore}
    (hstore' : ((store.withoutEntry identity).evict outcomes size).2 = store') :
    let written : RemoteIdentityStateStore :=
      { store' with
        files := store'.files.insert identity size
        index := store'.index.insert identity size }
    Truthful [] written ∧ written.maxSizeBytes = store.maxSizeBytes ∧
      Bounded store identity written := by
  obtain ⟨hwithout, hentries, hnext, hmaxSize⟩ := truthful_withoutEntry h identity
  obtain ⟨htrue, hroom, hevicts⟩ := evict_spec hwithout hok
  rw [hstore'] at htrue hroom hevicts
  have hsub : store'.index.entries ⊆ (store.index.remove identity).entries :=
    hentries ▸ hevicts.subset
  have hnone : ∀ e ∈ store'.index.entries, e.identity ≠ identity := fun e he =>
    (mem_remove.mp (hsub he)).2
  have hmax' : store'.maxSizeBytes = store.maxSizeBytes := hevicts.maxSizeBytes.trans hmaxSize
  simp only [full, saturatingAdd, hmax', Bool.or_eq_false_iff, decide_eq_false_iff_not] at hroom
  refine ⟨htrue.insert (by omega) hnone, hmax', ?_, not_lt.mp hroom.2, ?_⟩
  · change (store'.index.remove identity).entries.length + 1 ≤ _
    rw [remove_of_not_mem hnone]
    omega
  · intro e he hne hgone e' he'
    have hmem : e ∈ (store.withoutEntry identity).index.entries :=
      hentries ▸ mem_remove.mpr ⟨he, hne⟩
    have hgone : e ∉ store'.index.entries := fun hkept =>
      hgone (List.mem_cons_of_mem _ (mem_remove.mpr ⟨hkept, hne⟩))
    rcases List.mem_cons.mp he' with rfl | he'
    · exact (h.recent e he).trans_eq (hnext.symm.trans hevicts.nextWriteOrder.symm)
    · exact hevicts.oldest e hmem hgone e' (mem_remove.mp he').1

/-- **A save keeps the index true**, and if it succeeds, it keeps the bounds. -/
theorem truthful_save (hmax : store.maxSizeBytes < u64Max) (h : Truthful [] store)
    (hsave : Undisturbed store outcomes identity json) :
    Truthful [] (store.save outcomes identity json).2 ∧
      (store.save outcomes identity json).2.maxSizeBytes = store.maxSizeBytes ∧
      ((store.save outcomes identity json).1 = .ok () →
        Bounded store identity (store.save outcomes identity json).2) := by
  obtain ⟨hremove, hnew⟩ := hsave
  unfold save
  match json with
  | .error error => exact ⟨h, rfl, nofun⟩
  | .ok size =>
    dsimp only
    split_ifs with hsize
    · exact ⟨h, rfl, nofun⟩
    cases hwrite : outcomes.write with
    | error error => exact ⟨h, rfl, nofun⟩
    | ok =>
    cases hmetadata : outcomes.metadata with
    | error error => exact ⟨h, rfl, nofun⟩
    | ok =>
      rcases hevict : (store.withoutEntry identity).evict outcomes size with ⟨_ | _, store'⟩
      · -- the loop fails at a removal only
        obtain ⟨hwithout, -, -, hmaxSize⟩ := truthful_withoutEntry h identity
        have hok : ((store.withoutEntry identity).evict outcomes size).1 = .ok () :=
          evict_ok (hremove size rfl) (hmaxSize ▸ not_lt.mp hsize) hwithout
        simp [hevict] at hok
      cases hrename : outcomes.rename with
      | error error =>
        -- the identity had no file, so nothing was taken out for it
        rw [withoutEntry_of_not_mem (hnew.resolve_left (by simp [hrename]))] at hevict
        have hok : (store.evict outcomes size).1 = .ok () := by rw [hevict]
        obtain ⟨htrue, -, hevicts⟩ := evict_spec h hok
        rw [hevict] at htrue hevicts
        exact ⟨htrue, hevicts.maxSizeBytes, nofun⟩
      | ok =>
        have hok : ((store.withoutEntry identity).evict outcomes size).1 = .ok () := by rw [hevict]
        obtain ⟨htrue, hsame, hbounded⟩ := truthful_written hmax h hok (congrArg Prod.snd hevict)
        exact ⟨htrue, hsame, fun _ => hbounded⟩

/-- A store that is opened on a directory, and what undisturbed saves make of it. -/
inductive Reachable (maxSizeBytes : ℕ) : RemoteIdentityStateStore → Prop
  | opened {listed : Except String Unit} {files : ExtTreeMap String ℕ} {modified : String → ℕ}
      {index : RemoteIdentityStateIndex} (hscan : scan listed files modified = .ok index)
      (hsum : (files.toList.map (·.2)).sum ≤ u64Max) :
      Reachable maxSizeBytes ⟨files, index, maxSizeBytes⟩
  | saved {store : RemoteIdentityStateStore} {outcomes : FileOutcomes} {identity : String}
      {json : Except String ℕ} (h : Reachable maxSizeBytes store)
      (hsave : Undisturbed store outcomes identity json) :
      Reachable maxSizeBytes (store.save outcomes identity json).2

/-- **The index tells the truth** after saves that are not disturbed, and a save that succeeds keeps
the bounds. -/
theorem truthful_of_reachable {maxSizeBytes : ℕ} (hmax : maxSizeBytes < u64Max)
    (h : Reachable maxSizeBytes store) :
    Truthful [] store ∧ store.maxSizeBytes = maxSizeBytes ∧ ∀ outcomes identity json,
      (store.save outcomes identity json).1 = .ok () →
        Bounded store identity (store.save outcomes identity json).2 := by
  have hinv : Truthful [] store ∧ store.maxSizeBytes = maxSizeBytes := by
    induction h with
    | opened hscan hsum => exact ⟨truthful_scan maxSizeBytes hscan hsum, rfl⟩
    | saved _ hsave ih =>
      obtain ⟨htrue, hsame⟩ := ih
      obtain ⟨htrue', hsame', -⟩ := truthful_save (hsame ▸ hmax) htrue hsave
      exact ⟨htrue', hsame'.trans hsame⟩
  obtain ⟨htrue, hsame⟩ := hinv
  refine ⟨htrue, hsame, fun outcomes identity json hok => ?_⟩
  obtain ⟨-, -, hbounded⟩ := truthful_save (hsame ▸ hmax) htrue (undisturbed_of_ok hok)
  exact hbounded hok

def oneSnapshot : RemoteIdentityStateStore := ⟨.ofList [("alice", 3)], .insert .empty "alice" 3, 10⟩

theorem oneSnapshot_reachable : Reachable 10 oneSnapshot := by
  have hscan : scan (.ok ()) (.ofList [("alice", 3)]) (fun _ => 0) =
    .ok (.insert .empty "alice" 3) := by rfl
  exact .opened hscan (by decide +kernel)

def succeeding : FileOutcomes := ⟨.ok (), .ok (), fun _ => .ok (), .ok ()⟩

def twoSnapshots : RemoteIdentityStateStore :=
  ⟨.ofList [("alice", 3), ("bob", 4)], .insert (.insert .empty "alice" 3) "bob" 4, 10⟩

theorem twoSnapshots_reachable : Reachable 10 twoSnapshots := by
  have hscan : scan (.ok ()) (.ofList [("alice", 3), ("bob", 4)]) (fun _ => 0) =
      .ok (.insert (.insert .empty "alice" 3) "bob" 4) := by rfl
  exact .opened hscan (by decide +kernel)

/-- Two more snapshots are saved, for the first of which the oldest file is removed. -/
theorem evicting_saves_truthful :
    ((twoSnapshots.withoutEntry "carol").evicted 6).head?.map (·.identity) = some "alice" ∧
    ∃ store, store = ((twoSnapshots.save succeeding "carol" (.ok 6)).2.save succeeding "dave"
      (.ok 1)).2 ∧ 10 < u64Max ∧ Reachable 10 store ∧ Truthful [] store := by
  have hfull : (twoSnapshots.withoutEntry "carol").full 6 = true := by decide +kernel
  have holdest : (twoSnapshots.withoutEntry "carol").index.oldest.map (·.identity) =
      some "alice" := by decide +kernel
  obtain ⟨entry, hentry, halice⟩ := Option.map_eq_some_iff.mp holdest
  have hreachable : Reachable 10 ((twoSnapshots.save succeeding "carol" (.ok 6)).2.save succeeding
      "dave" (.ok 1)).2 :=
    (twoSnapshots_reachable.saved ⟨fun _ _ _ _ => rfl, .inl rfl⟩).saved
      ⟨fun _ _ _ _ => rfl, .inl rfl⟩
  refine ⟨?_, _, rfl, by decide, hreachable, (truthful_of_reachable (by decide) hreachable).1⟩
  rw [evicted_of_full hfull hentry]
  exact congrArg some halice

def renameFails : FileOutcomes := ⟨.ok (), .ok (), fun _ => .ok (), .error "disk full"⟩

/-- **A rename that fails leaves a file that is not in the index.** -/
theorem unindexed_after_failed_rename :
    Reachable 10 oneSnapshot ∧ (oneSnapshot.save renameFails "alice" (.ok 4)).1 = .error
      (.io "disk full") ∧
      ¬ Truthful [] (oneSnapshot.save renameFails "alice" (.ok 4)).2 := by
  have hroom : (oneSnapshot.withoutEntry "alice").full 4 = false := by decide +kernel
  have hevict : (oneSnapshot.withoutEntry "alice").evict renameFails 4 =
      (.ok (), oneSnapshot.withoutEntry "alice") := by
    rw [evict, hroom]
    rfl
  have hsave : oneSnapshot.save renameFails "alice" (.ok 4) =
      (.error (.io "disk full"), oneSnapshot.withoutEntry "alice") := by
    have hsize : ¬ oneSnapshot.maxSizeBytes < 4 := by decide
    rw [save, if_neg hsize, hevict]
    rfl
  have hfile : "alice" ∈ (oneSnapshot.withoutEntry "alice").files := by decide +kernel
  have hentries : (oneSnapshot.withoutEntry "alice").index.entries = [] := by decide +kernel
  rw [hsave]
  refine ⟨oneSnapshot_reachable, rfl, fun h => ?_⟩
  obtain ⟨e, he, -⟩ := h.file "alice" hfile List.not_mem_nil
  simp [hentries] at he

end Jolt.Network.SnapshotIndex
