import Jolt.Network.CacheSteps

/-! # Hostile deliveries

What an adversary without keys can do to a cache. It can replay what is genuine and make up entries
whose signatures do not verify (`Unforged`). The entries of a device that the chain in force does
not know are cached without a check of their signatures, and they are checked at every later merge,
once a longer chain knows the device. So a made-up log that is cached makes the merge of a complete
and honest response fail (`honest_response_refused`), unless the response has a newer log of that
device.

The response is accepted, and the new state has all its entries, exactly if what is cached is
`Clean`: each cached log of a device of the chain verifies, or is older than a log of the response
(`honest_response_iff`). A cache gets and stays clean if every entry that comes in before its device
is known is genuine (`Guarded`). -/

namespace Jolt.Network.Poisoning

open Std Relation Lib.Checks Lib.Newest Jolt.Core Jolt.Core.Types IdentityAuthority DeviceWriterLog
  Authority.Chain Merge Spec Shape Refine Causality DeviceWriterCache CacheSpec CacheSteps List
  Option
open Sample (entry key primitives twoDevices)

variable (P : Primitives) (authority : VerifiedIdentityAuthority)

/-- **What is genuine**: a chain that verifies, and one log for each device, whose entries verify
under the key the chain has for the device. -/
structure Genuine (P : Primitives) (identity : IdentityId) (chain : List DeviceAuthorizationRecord)
    (authority : VerifiedIdentityAuthority) (genuine : String → List DeviceWriterLogEntry) :
    Prop where
  chain : verifyIdentityAuthorityChain P identity chain = .ok authority
  shape : ∀ deviceId, DeviceLog P identity deviceId (genuine deviceId)
  signed : ∀ deviceId, ∀ e ∈ genuine deviceId, EntryVerified P authority e

/-- **A message made without keys.** If its records verify, they are a prefix of the chain; if an
entry of a device of the chain verifies, it is genuine. -/
structure Unforged (P : Primitives) (identity : IdentityId) (chain : List DeviceAuthorizationRecord)
    (authority : VerifiedIdentityAuthority) (genuine : String → List DeviceWriterLogEntry)
    (m : Message) : Prop where
  records : ∀ candidate, verifyIdentityAuthorityChain P identity m.authorityRecords =
    .ok candidate →
    m.authorityRecords <+: chain
  entries : ∀ log ∈ m.deviceLogs, ∀ e ∈ log, e.body.deviceId ∈ authority.devices →
    EntryVerified P authority e → e ∈ genuine e.body.deviceId

/-- The logs of an honest provider: genuine logs, or prefixes of them, of devices of the chain. -/
def HonestLogs (genuine : String → List DeviceWriterLogEntry) (logs : Logs) : Prop :=
  ∀ log ∈ logs, ∃ deviceId ∈ authority.devices, log <+: genuine deviceId

/-- The complete response, the whole chain with full logs, is merged, and the new state has all its
entries. -/
def Accepts (identity : IdentityId) (chain : List DeviceAuthorizationRecord) (iteration : Iteration)
    (existing : Option CachedDeviceWriterState) (logs : Logs) : Prop :=
  ∃ st, (Message.full chain logs).merge P iteration identity existing = .ok st ∧
    ∀ log ∈ logs, ∀ e ∈ log, ∃ held, st.deviceLogs[e.body.deviceId]? = some held ∧ e ∈ held

/-- **What is cached is clean** for a response with these logs: each cached log verifies under the
chain of the response, or is older than a log the response has for the device. -/
def Clean (existing : Option CachedDeviceWriterState) (logs : Logs) : Prop :=
  ∀ st ∈ existing, ∀ (deviceId : String) (cached), st.deviceLogs[deviceId]? = some cached →
    (∃ log ∈ logsOf logs deviceId, deviceLogIsNewer P log cached = .ok true) ∨ ∀ e ∈ cached,
      EntryVerified P authority e

/-- The chain in force has the same key for the device as the whole chain. -/
def SameKey (inForce authority : VerifiedIdentityAuthority) (deviceId : String) : Prop :=
  inForce.devices[deviceId]?.map (·.signingPublicKey) = authority.devices[deviceId]?.map
    (·.signingPublicKey)

/-- **A message is guarded** when it comes to this cache: each of its entries verifies under the
whole chain, or is checked now, since the chain that will be in force has the key of its device
already. -/
def Guarded (identity : IdentityId) (authority : VerifiedIdentityAuthority)
    (existing : Option CachedDeviceWriterState) (m : Message) : Prop :=
  ∀ candidate inForce, verifyIdentityAuthorityChain P identity m.authorityRecords = .ok candidate →
    verifyIdentityAuthorityChain P identity (chooseRecords existing candidate m.authorityRecords) =
      .ok inForce →
    ∀ log ∈ m.deviceLogs, ∀ e ∈ log, SameKey inForce authority e.body.deviceId ∨
      EntryVerified P authority e

variable {P : Primitives} {identity : IdentityId} {chain : List DeviceAuthorizationRecord}
  {authority : VerifiedIdentityAuthority} {genuine : String → List DeviceWriterLogEntry}
  {existing : Option CachedDeviceWriterState} {logs : Logs} {iteration : Iteration}
  {deviceId d : String} {log : List DeviceWriterLogEntry} {st : CachedDeviceWriterState}
  {e : DeviceWriterLogEntry}

/-! ### Genuine logs -/

/-- A device log of genuine entries is a prefix of the genuine log: the entry with sequence `i` of
either is the one at index `i`. -/
theorem isPrefix_genuine {whole : List DeviceWriterLogEntry}
    (hlog : DeviceLog P identity deviceId log) (hwhole : DeviceLog P identity deviceId whole)
    (hmem : ∀ e ∈ log, e ∈ whole) :
    log <+: whole := by
  have hget : ∀ (i : ℕ) (hi : i < log.length), ∃ hi' : i < whole.length, log[i] = whole[i] := by
    intro i hi
    obtain ⟨j, hj, heq⟩ := getElem_of_mem (hmem log[i] (getElem_mem hi))
    have hseq := hlog.toNat_deviceSequence i hi
    have hseq' := hwhole.toNat_deviceSequence j hj
    rw [heq, hseq] at hseq'
    subst hseq'
    exact ⟨hj, heq.symm⟩
  have hlen : log.length ≤ whole.length := by
    by_contra hlt
    obtain ⟨hi', -⟩ := hget whole.length (by omega)
    omega
  rw [prefix_iff_eq_take]
  refine ext_getElem (by simp [hlen]) fun i hi hi' => ?_
  obtain ⟨h, heq⟩ := hget i hi
  rw [heq, getElem_take]

theorem subset_of_not_newer {a b whole : List DeviceWriterLogEntry} (ha : a <+: whole)
    (hb : b <+: whole) (h : logOrder P a b ≠ .gt) : a ⊆ b := by
  have hlen : a.length ≤ b.length := by
    by_contra hlt
    have hgt : compare a.length b.length = .gt := Nat.compare_eq_gt.mpr (by omega)
    exact h (by simp [logOrder, compareLex, compareOn, hgt])
  exact (prefix_of_prefix_length_le ha hb hlen).subset

/-! ### The merge of a response -/

/-- The log of a device after the response: the cached one, or a newer one of the response. -/
def afterResponse (P : Primitives) (existing : Option CachedDeviceWriterState) (logs : Logs)
    (deviceId : String) : Option (List DeviceWriterLogEntry) :=
  (ofDevice deviceId logs).foldl (keepNewer (logOrder P)) (cachedLogs existing)[deviceId]?

theorem wellKeyed_cachedLogs (hf : Follows P identity chain existing) :
    WellKeyed (cachedLogs existing) :=
  wellKeyed_existing fun st hst => (hf st hst).1

theorem deviceLog_of_follows (hf : Follows P identity chain existing)
    (h : (cachedLogs existing)[deviceId]? = some log) : DeviceLog P identity deviceId log := by
  cases existing with
  | none => simp [cachedLogs] at h
  | some st =>
    obtain ⟨hok, -⟩ := hf st rfl
    obtain ⟨held, iteration, hv, -, hm⟩ := hok.backed
    obtain ⟨hverified, -, -⟩ := merge_eq_ok_iff.mp hm
    obtain ⟨hshape, -⟩ := hverified log (mem_values.mpr ⟨deviceId, h⟩)
    rw [identity_of_verify hv] at hshape
    obtain ⟨first, hfirst, hid⟩ := hok.wellKeyed deviceId log h
    obtain ⟨owner, hlog⟩ := verifyDeviceLogShape_iff_exists.mp hshape
    have howner := (hlog.valid first (mem_of_head? hfirst)).deviceId
    rw [← hid, howner]
    exact hlog

theorem afterResponse_cases (d : String) (h : afterResponse P existing logs d = some log) :
    ((cachedLogs existing)[d]? = some log ∨ log ∈ logsOf logs d) ∧
      (∀ cached, (cachedLogs existing)[d]? = some cached → logOrder P cached log ≠ .gt) ∧
      ∀ other ∈ logsOf logs d, logOrder P other log ≠ .gt := by
  have hself : IsNewest (logOrder P) {a | (cachedLogs existing)[d]? = some a}
      (cachedLogs existing)[d]? := isNewest_self _
  have hnewest : IsNewest (logOrder P) ({a | (cachedLogs existing)[d]? = some a} ∪ logsOf logs d)
      (afterResponse P existing logs d) := isNewest_of_foldl hself d
  refine ⟨hnewest.mem log h, fun cached hc => ?_, fun other ho => ?_⟩
  · exact hnewest.newest log h cached (.inl hc)
  · exact hnewest.newest log h other (.inr ho)

theorem ne_nil_of_mem_logsOf (h : log ∈ logsOf logs d) : log ≠ [] := by
  rintro rfl
  obtain ⟨-, first, hf, -⟩ := h
  simp at hf

/-- What is known of an entry made without keys. -/
def VerifiedIsGenuine (P : Primitives) (authority : VerifiedIdentityAuthority)
    (genuine : String → List DeviceWriterLogEntry) (e : DeviceWriterLogEntry) : Prop :=
  e.body.deviceId ∈ authority.devices → EntryVerified P authority e → e ∈ genuine e.body.deviceId

section

variable (hg : Genuine P identity chain authority genuine)
include hg

theorem HonestLogs.fullLog (h : HonestLogs authority genuine logs) : ∀ log ∈ logs, FullLog log := by
  intro log hl first hf
  obtain ⟨deviceId, -, hp⟩ := h log hl
  exact (((hg.shape deviceId).of_isPrefix hp).genesis first hf).1

theorem HonestLogs.logVerified (h : HonestLogs authority genuine logs) :
    ∀ log ∈ logs, LogVerified P authority log := by
  intro log hl
  obtain ⟨deviceId, -, hp⟩ := h log hl
  refine ⟨?_, fun e he => hg.signed deviceId e (hp.subset he)⟩
  rw [identity_of_verify hg.chain]
  exact verifyDeviceLogShape_iff_exists.mpr ⟨deviceId, (hg.shape deviceId).of_isPrefix hp⟩

theorem HonestLogs.of_mem_logsOf (hl : HonestLogs authority genuine logs)
    (h : log ∈ logsOf logs d) :
    d ∈ authority.devices ∧ log <+: genuine d := by
  obtain ⟨hmem, first, hfirst, hid⟩ := h
  obtain ⟨owner, howner, hp⟩ := hl log hmem
  have hfirst_mem := hp.subset (mem_of_head? hfirst)
  have heq : owner = d := by rw [← hid, ((hg.shape owner).valid first hfirst_mem).deviceId]
  subst heq
  exact ⟨howner, hp⟩

theorem chooseRecords_chain (hf : Follows P identity chain existing) :
    chooseRecords existing authority chain = chain := by
  cases existing with
  | none => rfl
  | some st =>
    obtain ⟨hok, hheld⟩ := hf st rfl
    rcases chooseRecords_cases hok hheld (prefix_refl chain) hg.chain with ⟨heq, -⟩ | ⟨heq, hp⟩
    · exact heq
    · rw [heq]
      exact (hp.eq_of_length_le hheld.length_le).symm

variable (hf : Follows P identity chain existing) (hl : HonestLogs authority genuine logs)
include hf hl

/-- A response that is merged: its logs compete with the cached ones, and all that is kept
verifies. -/
theorem logVerified_of_merge
    (h : (Message.full chain logs).merge P iteration identity existing = .ok st) :
    (∀ d : String, st.deviceLogs[d]? = afterResponse P existing logs d) ∧
      ∀ (d : String) (log), st.deviceLogs[d]? = some log → LogVerified P authority log := by
  obtain ⟨candidate, adopted, hc, hrecords, ha, -, hlogs, -, hm, -⟩ := mergeVerified_eq_ok_iff.mp h
  have hcand : authority = candidate := Except.ok.inj (hg.chain.symm.trans hc)
  subst hcand
  rw [hrecords] at ha
  have hadopted : adopted = authority := by
    have hchain : chooseRecords existing authority (Message.full chain logs).authorityRecords =
      chain := chooseRecords_chain hg hf
    rw [hchain, hg.chain] at ha
    exact (Except.ok.inj ha).symm
  subst hadopted
  obtain ⟨acc, hacc, hfold⟩ := foldlM_accumulateLog_full (P := P) (hl.fullLog hg)
    (wellKeyed_cachedLogs hf)
  have heq : acc = st.deviceLogs := Except.ok.inj (hacc.symm.trans hlogs)
  subst heq
  obtain ⟨hv, -, -⟩ := merge_eq_ok_iff.mp hm
  exact ⟨hfold, fun d log hd => hv log (mem_values.mpr ⟨d, hd⟩)⟩

variable {all : Logs} (hacyc : Acyclic P all)
  (hlogs : ∀ log ∈ logs, ∀ e ∈ log, ∃ log' ∈ all, e ∈ log')
  (hall : AllEntries (fun e => ∃ log ∈ all, e ∈ log) existing)

include hacyc hlogs hall in
theorem exists_merge_of_logVerified
    (hv : ∀ d log, afterResponse P existing logs d = some log → LogVerified P authority log)
    (iteration : Iteration) : ∃ st, (Message.full chain logs).merge P iteration identity existing =
      .ok st := by
  obtain ⟨acc, hacc, hfold⟩ := foldlM_accumulateLog_full (P := P) (hl.fullLog hg)
    (wellKeyed_cachedLogs hf)
  have hverified : ∀ log ∈ iteration.values acc, LogVerified P authority log := by
    intro log hlog
    obtain ⟨d, hd⟩ := mem_values.mp hlog
    exact hv d log ((hfold d).symm.trans hd)
  have hentries : ∀ log ∈ iteration.values acc, ∀ e ∈ log, ∃ log' ∈ all, e ∈ log' := by
    intro log hlog
    obtain ⟨d, hd⟩ := mem_values.mp hlog
    exact forall_mem_of_foldlM_accumulateLog (wellKeyed_cachedLogs hf) hall.getD hlogs hacc d log hd
  obtain ⟨merged, hmerged⟩ := exists_merge_eq_ok_iff.mpr ⟨hverified, fun path =>
    heads_ne_nil (hacyc.of_entries hentries) fun log hlog => (hverified log hlog).1⟩
  have hchain : chooseRecords existing authority (Message.full chain logs).authorityRecords =
    chain := chooseRecords_chain hg hf
  exact ⟨⟨authority.latestSequence, merged, _, _, chain, acc⟩, mergeVerified_eq_ok_iff.mpr
    ⟨authority, authority, hg.chain, hchain.symm, hg.chain, rfl, hacc,
      by simp [checkHeads, Message.full, legacyDeviceWriterSyncVersion,
        deltaDeviceWriterSyncVersion],
      hmerged, rfl, rfl⟩⟩

/-! ### Clean caches -/

theorem afterResponse_isPrefix
    (hgen : AllEntries (VerifiedIsGenuine P authority genuine) existing)
    (hd : d ∈ authority.devices) {held : List DeviceWriterLogEntry}
    (h : afterResponse P existing logs d = some held) (hv : LogVerified P authority held) :
    held <+: genuine d := by
  rcases (afterResponse_cases d h).1 with hcached | hlog
  · have hshape := deviceLog_of_follows hf hcached
    refine isPrefix_genuine hshape (hg.shape d) fun e he => ?_
    have hid := (hshape.valid e he).deviceId
    have hmem := hgen.getD d held hcached e he (by rwa [hid]) (hv.2 e he)
    rwa [hid] at hmem
  · exact (hl.of_mem_logsOf hg hlog).2

theorem clean_of_merge
    (h : (Message.full chain logs).merge P iteration identity existing = .ok st) :
    Clean P authority existing logs := by
  obtain ⟨hafter, hv⟩ := logVerified_of_merge hg hf hl h
  intro s hs d cached hcached
  have hc : (cachedLogs existing)[d]? = some cached := by
    rw [mem_def] at hs
    rw [hs]
    exact hcached
  by_cases hnew : ∃ log ∈ logsOf logs d, logOrder P log cached = .gt
  · obtain ⟨log, hlog, hgt⟩ := hnew
    refine .inl ⟨log, hlog, ?_⟩
    rw [deviceLogIsNewer_eq (ne_nil_of_mem_logsOf hlog) ((wellKeyed_cachedLogs hf).ne_nil hc), hgt]
    rfl
  · have hkept : afterResponse P existing logs d = some cached := by
      rw [afterResponse, hc]
      exact foldl_keepNewer_of_le fun log hlog hgt => hnew ⟨log, mem_ofDevice.mp hlog, hgt⟩
    exact .inr (hv d cached ((hafter d).trans hkept)).2

theorem Clean.logVerified (hclean : Clean P authority existing logs) (d : String)
    (h : afterResponse P existing logs d = some log) :
    LogVerified P authority log := by
  obtain ⟨hlog | hlog, -, hnewest⟩ := afterResponse_cases d h
  · have hshape := deviceLog_of_follows hf hlog
    cases existing with
    | none => simp [cachedLogs] at hlog
    | some st =>
      rcases hclean st rfl d log hlog with ⟨other, hother, hnewer⟩ | hentries
      · rw [deviceLogIsNewer_eq (ne_nil_of_mem_logsOf hother) ((wellKeyed_cachedLogs hf).ne_nil
          hlog)] at hnewer
        exact absurd (of_decide_eq_true (Except.ok.inj hnewer)) (hnewest other hother)
      · refine ⟨?_, hentries⟩
        rw [identity_of_verify hg.chain]
        exact verifyDeviceLogShape_iff_exists.mpr ⟨d, hshape⟩
  · exact hl.logVerified hg log hlog.1

/-- What is kept has the entries of the response: it is a prefix of the genuine log and not older
than any of the response. -/
theorem mem_afterResponse (hgen : AllEntries (VerifiedIsGenuine P authority genuine) existing)
    (hv : ∀ d log, afterResponse P existing logs d = some log → LogVerified P authority log)
    (hlog : log ∈ logs) (he : e ∈ log) :
    ∃ held, afterResponse P existing logs e.body.deviceId = some held ∧
      e ∈ held := by
  obtain ⟨owner, howner, hp⟩ := hl log hlog
  have hid : ∀ f ∈ log, f.body.deviceId = owner := fun f hfm =>
    ((hg.shape owner).valid f (hp.subset hfm)).deviceId
  have hof : log ∈ logsOf logs owner := by
    cases log with
    | nil => cases he
    | cons first rest => exact ⟨hlog, first, rfl, hid first mem_cons_self⟩
  rw [hid e he]
  cases hheld : afterResponse P existing logs owner with
  | none =>
    have hself : IsNewest (logOrder P) {a | (cachedLogs existing)[owner]? = some a}
        (cachedLogs existing)[owner]? := isNewest_self _
    have hempty := (isNewest_of_foldl hself owner).empty hheld
    exact absurd (.inr hof) (Set.eq_empty_iff_forall_notMem.mp hempty log)
  | some held =>
    have hheld_pre := afterResponse_isPrefix hg hf hl hgen howner hheld (hv owner held hheld)
    have hle := (afterResponse_cases owner hheld).2.2 log hof
    exact ⟨held, rfl, subset_of_not_newer hp hheld_pre hle he⟩

include hacyc hlogs hall in
/-- **A response and a cache.** The complete response is accepted exactly if what is cached is
clean. -/
theorem accepts_iff_clean (hgen : AllEntries (VerifiedIsGenuine P authority genuine) existing) :
    Accepts P identity chain iteration existing logs ↔ Clean P authority existing logs := by
  constructor
  · rintro ⟨st, hst, -⟩
    exact clean_of_merge hg hf hl hst
  · intro hclean
    have hv : ∀ d log, afterResponse P existing logs d = some log → LogVerified P authority log :=
      fun d log => hclean.logVerified hg hf hl d
    obtain ⟨st, hst⟩ := exists_merge_of_logVerified hg hf hl hacyc hlogs hall hv iteration
    obtain ⟨hafter, -⟩ := logVerified_of_merge hg hf hl hst
    refine ⟨st, hst, fun log hlog e he => ?_⟩
    rw [hafter]
    exact mem_afterResponse hg hf hl hgen hv hlog he

end

/-! ### Sequences of deliveries -/

theorem follows_received {rs : List Received}
    (hrs : ∀ r ∈ rs, Unforged P identity chain authority genuine r.message) :
    Follows P identity chain (received P identity rs) ∧
      AllEntries (VerifiedIsGenuine P authority genuine) (received P identity rs) ∧
      AllEntries (fun e => ∃ log ∈ rs.flatMap (·.message.deviceLogs), e ∈ log)
        (received P identity rs) := by
  have hprefixes : ∀ r ∈ rs, CarriesPrefix P identity chain r.message := fun r hr =>
    (hrs r hr).records
  obtain ⟨hf, -⟩ := extends_of_reflTransGen (cacheSteps_received hprefixes)
    (by simp [CacheSteps.Follows])
  have hsteps : ReflTransGen (CacheStep P identity fun m => ∃ r ∈ rs, r.message = m) none
      (received P identity rs) := cacheSteps_received fun r hr => ⟨r, hr, rfl⟩
  refine ⟨hf, allEntries_of_reflTransGen hsteps ?_, allEntries_of_reflTransGen hsteps ?_⟩
  · rintro _ ⟨r, hr, rfl⟩ log hlog e he
    exact (hrs r hr).entries log hlog e he
  · rintro _ ⟨r, hr, rfl⟩ log hlog e he
    exact ⟨log, mem_flatMap.mpr ⟨r, hr, hlog⟩, he⟩

theorem allEntries_receive (hf : Follows P identity chain existing)
    (hQ : AllEntries (EntryVerified P authority) existing) {r : Received}
    (hguard : Guarded P identity authority existing r.message) :
    AllEntries (EntryVerified P authority) (receive P identity existing r) := by
  unfold receive
  split
  · next st hst =>
    obtain ⟨candidate, inForce, hc, hrecords, ha, -, hlogs, -, hm, -⟩ :=
      mergeVerified_eq_ok_iff.mp hst
    rw [hrecords] at ha
    rintro _ ⟨⟩ d log hd e he
    have hcases := forall_mem_of_foldlM_accumulateLog (wellKeyed_existing fun s hs => (hf s hs).1)
      (fun d' log' hd' e' he' => .inr (hQ.getD d' log' hd' e' he'))
      (hguard candidate inForce hc ha) hlogs d log hd e he
    rcases hcases with hsame | hverified
    · -- Its device is known, so the merge has checked it.
      obtain ⟨hv, -, -⟩ := merge_eq_ok_iff.mp hm
      intro device hdevice
      rw [SameKey, hdevice, map_some, map_eq_some_iff] at hsame
      obtain ⟨device', hdevice', hkey⟩ := hsame
      rw [← hkey]
      exact (hv log (mem_values.mpr ⟨d, hd⟩)).2 e he device' hdevice'
    · exact hverified
  · exact hQ

theorem allEntries_received {rs : List Received}
    (hrs : ∀ r ∈ rs, Unforged P identity chain authority genuine r.message)
    (hguard : ∀ before r after, rs = before ++ r :: after →
      Guarded P identity authority (received P identity before) r.message) :
    AllEntries (EntryVerified P authority) (received P identity rs) := by
  induction rs using List.reverseRecOn with
  | nil => simp [received, AllEntries]
  | append_singleton rs r ih =>
    have hrs' : ∀ r' ∈ rs, Unforged P identity chain authority genuine r'.message :=
      fun r' hr' => hrs r' (mem_append_left _ hr')
    have hall := ih hrs' fun before r' after heq =>
      hguard before r' (after ++ [r]) (by simp [heq])
    rw [received_concat]
    exact allEntries_receive (follows_received hrs').1 hall (hguard rs r [] rfl)

/-- **When hostile deliveries do no harm.** After any messages made without keys, the complete
response of an honest provider is accepted, with all its entries in the new state, exactly if what
is cached is clean; and it is clean if every message was guarded when it came. -/
theorem honest_response_iff (hg : Genuine P identity chain authority genuine) {rs : List Received}
    (hrs : ∀ r ∈ rs, Unforged P identity chain authority genuine r.message)
    (hl : HonestLogs authority genuine logs)
    (hacyc : Acyclic P (logs ++ rs.flatMap (·.message.deviceLogs))) (iteration : Iteration) :
    (Accepts P identity chain iteration (received P identity rs) logs ↔
      Clean P authority (received P identity rs) logs) ∧
    ((∀ before r after, rs = before ++ r :: after →
        Guarded P identity authority (received P identity before) r.message) →
      Accepts P identity chain iteration (received P identity rs) logs) := by
  obtain ⟨hf, hgen, hsent⟩ := follows_received hrs
  have hall : AllEntries (fun e => ∃ log ∈ logs ++ rs.flatMap (·.message.deviceLogs), e ∈ log)
      (received P identity rs) := by
    intro st hst d log hd e he
    obtain ⟨log', hlog', he'⟩ := hsent st hst d log hd e he
    exact ⟨log', mem_append_right _ hlog', he'⟩
  have hlogs : ∀ log ∈ logs, ∀ e ∈ log, ∃ log' ∈ logs ++ rs.flatMap (·.message.deviceLogs),
    e ∈ log' :=
    fun log hlog e he => ⟨log, mem_append_left _ hlog, he⟩
  have hiff : Accepts P identity chain iteration (received P identity rs) logs ↔
      Clean P authority (received P identity rs) logs :=
    accepts_iff_clean hg hf hl hacyc hlogs hall hgen
  refine ⟨hiff, fun hguard => hiff.mpr fun st hst d cached hcached => .inr ?_⟩
  exact allEntries_received hrs hguard st hst d cached hcached

/-! ### A phone -/

def phoneFirst : DeviceWriterLogEntry := entry (key 2) "phone" 0 none
    (Sample.setSingleton "/note" 2) []

/-- The phone's entry with a signature that does not verify. -/
def phoneForged : DeviceWriterLogEntry := ⟨phoneFirst.body, List.replicate 64 0⟩

def laptopAndPhone : List DeviceAuthorizationRecord :=
    [Sample.authorizeLaptop, Sample.authorizePhone]

def phoneOnly (deviceId : String) : List DeviceWriterLogEntry :=
  if deviceId = "phone" then [phoneFirst] else []

/-- The chain before the phone is authorized, with a log of the phone. -/
def early (log : List DeviceWriterLogEntry) :
    Received := ⟨.full [Sample.authorizeLaptop] [log], default, 0, none⟩

theorem verify_laptopAndPhone :
    verifyIdentityAuthorityChain primitives Sample.owner laptopAndPhone = .ok twoDevices := by
  obtain ⟨authority, h⟩ := exists_eq_ok_of_isOk (x := verifyIdentityAuthorityChain primitives
    Sample.owner laptopAndPhone) (by decide +kernel)
  have htwo : twoDevices = authority := Sample.authorityOf_eq h
  rw [h, htwo]

theorem phoneKey : twoDevices.devices["phone"]?.map (·.signingPublicKey) = some (key 2).bytes := by
    decide +kernel

theorem mem_phoneOnly (h : e ∈ phoneOnly deviceId) : e = phoneFirst ∧ deviceId = "phone" := by
  unfold phoneOnly at h
  split_ifs at h with hd
  · exact ⟨mem_singleton.mp h, hd⟩
  · cases h

theorem genuine_phoneOnly :
    Genuine primitives Sample.owner laptopAndPhone twoDevices phoneOnly where
  chain := verify_laptopAndPhone
  shape deviceId := by
    unfold phoneOnly
    split_ifs with hd
    · obtain ⟨_, hshape⟩ := exists_eq_ok_of_isOk (x := verifyDeviceLogShape primitives
        Sample.owner [phoneFirst]) (by decide +kernel)
      exact hd ▸ verifyDeviceLogShape_eq_ok_iff.mp hshape
    · exact ⟨by simp, by simp, by simp⟩
  signed deviceId e he device hdevice := by
    obtain ⟨rfl, -⟩ := mem_phoneOnly he
    have hkey := phoneKey
    rw [show twoDevices.devices["phone"]? = some device from hdevice, map_some, some_inj] at hkey
    rw [hkey]
    exact verifySignature_sign (P := primitives) (key 2) _

theorem honestLogs_phone : HonestLogs twoDevices phoneOnly [[phoneFirst]] := by
  intro log hl
  rw [mem_singleton.mp hl]
  refine ⟨"phone", ?_, prefix_refl _⟩
  have hsome : twoDevices.devices["phone"]?.isSome := by
    rw [← isSome_map, phoneKey]
    rfl
  exact ExtTreeMap.isSome_getElem?_iff_mem.mp hsome

theorem unforged_early (hid : e.body.deviceId = "phone")
    (he : e = phoneFirst ∨ ¬ EntryVerified primitives twoDevices e) :
    Unforged primitives Sample.owner laptopAndPhone twoDevices phoneOnly (early [e]).message where
  records _ _ := ⟨[Sample.authorizePhone], rfl⟩
  entries log hl f hf _ hverified := by
    rw [mem_singleton.mp hl, mem_singleton] at hf
    subst hf
    rcases he with rfl | he
    · rw [hid]
      exact mem_singleton.mpr rfl
    · exact absurd hverified he

theorem acyclic_phone (hbody : e.body = phoneFirst.body) :
    Acyclic primitives ([[phoneFirst]] ++ [early [e]].flatMap (·.message.deviceLogs)) := by
  refine acyclic_of_rank (fun _ => 0) fun log hl f hf x hx => ?_
  have hf_body : f.body = phoneFirst.body := by
    simp only [early, Message.full, flatMap_cons, flatMap_nil, append_nil, mem_append,
      mem_singleton] at hl
    rcases hl with rfl | rfl
    · rw [mem_singleton.mp hf]
    · rw [mem_singleton.mp hf, hbody]
  rw [hf_body] at hx
  cases hx

/-- The phone's entry, replayed with the chain before the phone is authorized, does no harm. -/
theorem honest_response_iff_phone : Accepts primitives Sample.owner laptopAndPhone default
      (received primitives Sample.owner [early [phoneFirst]]) [[phoneFirst]] := by
  have hrs : ∀ r ∈ [early [phoneFirst]], Unforged primitives Sample.owner laptopAndPhone
      twoDevices phoneOnly r.message := by
    simpa using unforged_early rfl (.inl rfl)
  refine (honest_response_iff genuine_phoneOnly hrs honestLogs_phone (acyclic_phone rfl) default).2
    ?_
  rintro before r after heq candidate inForce - - log hl e he
  have hr : r = early [phoneFirst] := by
    have hmem : r ∈ [early [phoneFirst]] := heq ▸ by simp
    exact mem_singleton.mp hmem
  rw [hr] at hl
  rw [mem_singleton.mp hl, mem_singleton] at he
  rw [he]
  exact .inr (genuine_phoneOnly.signed "phone" phoneFirst (mem_singleton.mpr rfl))

/-- **A hostile delivery poisons the cache.** A stranger sends the chain before the phone is
authorized, with a copy of the phone's entry that has another signature. It is cached unchecked, and
the complete response of an honest provider is refused. -/
theorem honest_response_refused :
    Genuine primitives Sample.owner laptopAndPhone twoDevices phoneOnly ∧
    Unforged primitives Sample.owner laptopAndPhone twoDevices phoneOnly
      (early [phoneForged]).message ∧
    HonestLogs twoDevices phoneOnly [[phoneFirst]] ∧
    ¬ Accepts primitives Sample.owner laptopAndPhone default
      (received primitives Sample.owner [early [phoneForged]]) [[phoneFirst]] := by
  have hforged : ¬ EntryVerified primitives twoDevices phoneForged := by
    intro hverified
    obtain ⟨device, hdevice, hkey⟩ := map_eq_some_iff.mp phoneKey
    have hok := hverified device hdevice
    rw [hkey] at hok
    have hrefused : (DeviceWriterLog.verifySignature primitives (key 2).bytes
        (phoneForged.body.canonicalBytes primitives) phoneForged.signature).isOk = false := by
      decide +kernel
    rw [hok] at hrefused
    cases hrefused
  refine ⟨genuine_phoneOnly, unforged_early rfl (.inr hforged), honestLogs_phone, ?_⟩
  rintro ⟨st, hst, -⟩
  have hrefused : ((Message.full laptopAndPhone [[phoneFirst]]).merge primitives default
      Sample.owner (received primitives Sample.owner [early [phoneForged]])).isOk = false := by
    decide +kernel
  rw [hst] at hrefused
  cases hrefused

end Jolt.Network.Poisoning
