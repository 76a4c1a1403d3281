import Jolt.Server.SubscriptionCatchUp

/-! # Streams after their end

The end of a subscription is recorded in the session store and then in the change streams, where a
tombstone takes the place of the stream. From then on nothing is to be delivered. A poll that was
let in before, or a background refresh that was recorded before, may still be about to bring its
records; it finds the tombstone, if there was a stream to leave one and it has not expired, and else
opens the stream again (`stream_reopened`). So delivery has ended exactly in those runs in which
every such delivery finds a tombstone (`delivery_ended_iff`). -/

namespace Jolt.Server.EndedStreams

open Lib.Runs Jolt.Core Jolt.Core.Types Sessions ChangeStreams SubscriptionTasks
open Recipients (Readers)
open StreamReaders (note shortStreams)
open SubscriptionCatchUp (notesSubscription notesStore quiet)

def bringsRecords : DataChangeEvent → Bool
  | .snapshot .. | .changed .. => true
  | _ => false

section

variable (P : Primitives) (readers : Readers) (limits : StoreLimits) (streams : DataChangeStreams)
  (sub : Subscription)

/-- The step brings no records to the app and leaves no stream. -/
structure NothingDelivered (s : Service) (next : Step) : Prop where
  answered : ∀ event, answered streams sub s next = some event → bringsRecords event = false
  inactive : (step P readers limits streams sub s next).registry.active sub.id = none

/-- A delivery that could open the stream finds a tombstone. -/
def FindsTombstone (s : Service) (next : Step) : Prop :=
  ∀ c job records, next = .proceed c (.deliver job records) → .deliver job records ∈ s.tasks →
    job.registers streams = true → (s.registry.terminal sub.id).isSome = true

end

variable {P : Primitives} {readers : Readers} {limits : StoreLimits} {streams : DataChangeStreams}
  {sub : Subscription} {s : Service} {registry : StreamRegistry} {event : DataChangeEvent}

/-! ### One step -/

theorem installs_of_registers {job : Job} (hactive : registry.active sub.id = none)
    (hterminal : registry.terminal sub.id = none) (hregisters : job.registers streams = true) :
    job.installs streams sub registry = true := by
  cases job <;> simp [Job.installs, hactive, hterminal, hregisters]

theorem registers_of_installs {job : Job} (hactive : registry.active sub.id = none)
    (hinstalls : job.installs streams sub registry = true) :
    job.registers streams = true ∧ registry.terminal sub.id = none := by
  cases job <;> simp_all [Job.installs]

section

variable (h : Kept sub s.registry) (hactive : s.registry.active sub.id = none)
include h hactive

theorem bringsRecords_pollTurn (c : Circumstances) (poll : Poll)
    (records : List MaterializedRecordInfo)
    (htombstone : (Job.poll poll).registers streams = true →
      (s.registry.terminal sub.id).isSome = true)
    (hevent : (pollTurn streams sub c poll records s.registry).1 = some event) :
    bringsRecords event = false := by
  obtain ⟨-, hresult⟩ | ⟨terminal, hterminal, hresult⟩ | ⟨hregisters, hterminal, -⟩ |
    ⟨stream, -, hsome, -⟩ := pollTurn_cases streams h c poll records
  · rw [hresult] at hevent
    cases hevent
    rfl
  · rw [hresult] at hevent
    cases hevent
    split_ifs
    · obtain hcancelled | hrevoked := (h.tombstoned _ _ hterminal).2
      · rw [hcancelled]
        rfl
      · rw [hrevoked]
        rfl
    · rfl
  · rw [hterminal] at htombstone
    exact absurd (htombstone hregisters) (by simp)
  · exact absurd (hactive.symm.trans hsome) (by simp)

theorem bringsRecords_answered {next : Step}
    (htombstone : FindsTombstone streams sub s next)
    (hevent : answered streams sub s next = some event) :
    bringsRecords event = false := by
  unfold answered at hevent
  split at hevent
  · rename_i c poll records
    split_ifs at hevent with hmem
    exact bringsRecords_pollTurn h hactive c poll records (htombstone c _ records rfl hmem) hevent
  · split_ifs at hevent
    cases hevent
    rfl
  · split_ifs at hevent
    cases hevent
    rfl
  · split_ifs at hevent
    obtain ⟨cursor, -, rfl⟩ := Option.map_eq_some_iff.mp hevent
    rfl
  · cases hevent

/-- **Where there is no stream, a step delivers nothing exactly if what could open the stream finds
a tombstone.** -/
theorem nothingDelivered_iff (next : Step) :
    NothingDelivered P readers limits streams sub s next ↔ FindsTombstone streams sub s next := by
  constructor
  · rintro ⟨-, hinactive⟩ c job records rfl hmem hregisters
    by_contra hterminal
    rw [Option.not_isSome_iff_eq_none] at hterminal
    obtain ⟨stream, hstream, -⟩ := active_step_of_installs P readers limits h
      ⟨c, rfl, hmem, installs_of_registers hactive hterminal hregisters⟩
    exact absurd (hinactive.symm.trans hstream) (by simp)
  · intro htombstone
    refine ⟨fun event hevent => bringsRecords_answered h hactive htombstone hevent, ?_⟩
    refine (harmless_step P readers limits h ?_).1.eq_none hactive
    rintro job records ⟨c, rfl, hmem, hinstalls⟩
    obtain ⟨hregisters, hterminal⟩ := registers_of_installs hactive hinstalls
    have hsome := htombstone c job records rfl hmem hregisters
    rw [hterminal] at hsome
    exact absurd hsome (by simp)

end

/-! ### The end of the stream -/

/-- The tasks that end the stream once the store has ended the subscription. -/
def isEnd : Task → Bool
  | .cancelStream | .revokeStreams => true
  | _ => false

variable (P readers limits streams) in
theorem active_step_of_isEnd (h : Kept sub s.registry) (c : Circumstances) {task : Task}
    (htask : isEnd task = true) (hmem : task ∈ s.tasks) :
    (step P readers limits streams sub s (.proceed c task)).registry.active sub.id = none := by
  have hfilter : ∀ p : StreamState → Bool, (∀ stream, sub.Owns stream → p stream = false) →
      (s.registry.active sub.id).filter p = none := by
    intro p hp
    rw [Option.filter_eq_none_iff]
    intro stream hstream
    simp [hp stream (h.owned stream hstream)]
  dsimp only [step, Service.take]
  rw [if_pos hmem]
  cases task with
  | cancelStream => exact hfilter _ fun stream howns => by simp [howns.1]
  | revokeStreams => exact hfilter _ fun stream howns => by simp [howns.1]
  | _ => cases htask

/-- **After its end in the store and in the streams, nothing is delivered for the subscription
exactly if every delivery that could open the stream finds a tombstone.** -/
theorem delivery_ended_iff (P : Primitives) (readers : Readers) (limits : StoreLimits)
    (streams : DataChangeStreams) (sub : Subscription) (store : AppSessionStore)
    (records : List MaterializedRecordInfo) (before after : List Step) (c : Circumstances)
    (task : Task) (htask : isEnd task = true)
    (hmem : task ∈ (run P readers limits streams sub (.init store records) before).tasks) :
    Along (step P readers limits streams sub) (NothingDelivered P readers limits streams sub)
        (run P readers limits streams sub (.init store records) (before ++ [.proceed c task]))
          after ↔
      Along (step P readers limits streams sub) (FindsTombstone streams sub)
        (run P readers limits streams sub (.init store records) (before ++ [.proceed c task]))
          after := by
  have hkept : Kept sub (run P readers limits streams sub (.init store records) before).registry :=
    (along_true before).invariant (I := fun s : Service => Kept sub s.registry)
      (fun s next h _ => h.step P readers limits next) (kept_init sub store records)
  have hrun : run P readers limits streams sub (.init store records) (before ++ [.proceed c task]) =
      step P readers limits streams sub
        (run P readers limits streams sub (.init store records) before) (.proceed c task) := by
    rw [run, List.foldl_append]
    rfl
  rw [hrun]
  refine along_iff (I := fun s => Kept sub s.registry ∧ s.registry.active sub.id = none)
    (fun s next h hnothing => ⟨h.1.step P readers limits next, hnothing.inactive⟩)
    (fun s next h => nothingDelivered_iff h.1 h.2 next) ?_
  exact ⟨hkept.step P readers limits _, active_step_of_isEnd P readers limits streams
    hkept c htask hmem⟩

/-- The daemon refreshes its view at an instant, and the refresh is recorded in the store. -/
def refreshSteps (instant : ℕ) (seen : UInt64) (records : List MaterializedRecordInfo) :
    List Step :=
  [.beginRefresh { quiet with instant }, .refreshed records (.ready seen),
    .proceed quiet (.complete (.ready seen)), .proceed quiet (.read (.refreshed (.ready seen)))]

def delivery (seen : UInt64) (records : List MaterializedRecordInfo) : Step :=
  .proceed quiet (.deliver (.refreshed (.ready seen)) records)

/-- A refresh opens the stream, or no refresh does. Another one is recorded, and then the
subscription is removed. -/
def removedSteps (opened : Bool) : List Step :=
  (if opened then refreshSteps 0 1 [note "one"] ++ [delivery 1 [note "one"]] else []) ++
  refreshSteps 60 2 [note "two"] ++ [.finish quiet .removal]

/-- The refresh that was recorded before the removal does not open the stream again after it. -/
theorem removed_stream_stays_closed :
    .deliver (.refreshed (.ready 2)) [note "two"] ∈
      (run Sample.primitives ⟨id, fun _ => .error ""⟩ ⟨8, 30⟩ shortStreams notesSubscription
        (.init notesStore []) (removedSteps true ++ [.proceed quiet .cancelStream])).tasks ∧
    Along (step Sample.primitives ⟨id, fun _ => .error ""⟩ ⟨8, 30⟩ shortStreams notesSubscription)
      (NothingDelivered Sample.primitives ⟨id, fun _ => .error ""⟩ ⟨8, 30⟩ shortStreams
        notesSubscription)
      (run Sample.primitives ⟨id, fun _ => .error ""⟩ ⟨8, 30⟩ shortStreams notesSubscription
        (.init notesStore []) (removedSteps true ++ [.proceed quiet .cancelStream]))
      [delivery 2 [note "two"]] :=
  ⟨by decide +kernel, (delivery_ended_iff Sample.primitives ⟨id, fun _ => .error ""⟩ ⟨8, 30⟩
    shortStreams notesSubscription
    notesStore [] (removedSteps true) [delivery 2 [note "two"]] quiet .cancelStream rfl
    (by decide +kernel)).mpr ⟨fun _ _ _ _ _ _ => by decide +kernel, trivial⟩⟩

/-- If no delivery has opened the stream before the removal, one does after it. -/
theorem stream_reopened :
    ¬ Along (step Sample.primitives ⟨id, fun _ => .error ""⟩ ⟨8, 30⟩ shortStreams notesSubscription)
      (NothingDelivered Sample.primitives ⟨id, fun _ => .error ""⟩ ⟨8, 30⟩ shortStreams
        notesSubscription)
      (run Sample.primitives ⟨id, fun _ => .error ""⟩ ⟨8, 30⟩ shortStreams notesSubscription
        (.init notesStore []) (removedSteps false ++ [.proceed quiet .cancelStream]))
      [delivery 2 [note "two"]] := by
  rintro ⟨hnothing, -⟩
  have hnone := congrArg Option.isNone hnothing.inactive
  exact absurd hnone (by decide +kernel)

end Jolt.Server.EndedStreams
