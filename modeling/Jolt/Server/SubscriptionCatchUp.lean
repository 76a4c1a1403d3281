import Jolt.Core.Sample
import Jolt.Server.SubscriptionTasks

/-! # Whether a stream catches up

Announcements and background refreshes first read the node's records and then publish what they have
read. When all of them are done, the stream has the node's records (`catches_up`), provided that

* what is put into the stream is what the node has, or another publisher is still to follow,
* a publisher that gives up leaves a stream that is up to date, or another publisher, and
* no records change unannounced while there is a stream that no publisher will update.

Nothing in the service sees to the first of these: two announcements may publish in another order
than they have read (`announcements_overtake`). -/

namespace Jolt.Server.SubscriptionCatchUp

open Lib.Calls Lib.Runs Jolt.Core Jolt.Core.Types Sessions ChangeStreams SubscriptionTasks List
open Recipients (Readers)
open StreamReaders (note shortStreams)

variable {records : List MaterializedRecordInfo}

/-! ### Publishers -/

def isUnread : Task → Bool
  | .announce .. | .check _ | .refresh | .complete _ | .read (.announcement _) | .read
      (.refreshed _) => true
  | _ => false

def publication : Task → Option (List MaterializedRecordInfo)
  | .deliver (.announcement _) records | .deliver (.refreshed _) records => some records
  | _ => none

def publishes (task : Task) : Bool := isUnread task || (publication task).isSome

/-- A publisher that will publish the records, or what comes after them. -/
def IsAhead (records : List MaterializedRecordInfo) (task : Task) : Prop :=
  isUnread task = true ∨ ∃ published, publication task = some published ∧
    byPath published = byPath records

def Ahead (records : List MaterializedRecordInfo) (tasks : List Task) : Prop :=
  ∃ task ∈ tasks, IsAhead records task

theorem Ahead.mono {tasks tasks' : List Task} (h : Ahead records tasks) (hsub : tasks ⊆ tasks') :
    Ahead records tasks' := by
  obtain ⟨task, hmem, hahead⟩ := h
  exact ⟨task, hsub hmem, hahead⟩

theorem Ahead.cases_erase {tasks : List Task} (task : Task) (h : Ahead records tasks) :
    IsAhead records task ∨ Ahead records (tasks.erase task) := by
  obtain ⟨other, hmem, hahead⟩ := h
  by_cases heq : other = task
  · exact .inl (heq ▸ hahead)
  · exact .inr ⟨other, (mem_erase_of_ne heq).mpr hmem, hahead⟩

theorem IsAhead.publishes {records : List MaterializedRecordInfo} {task : Task}
    (h : IsAhead records task) : publishes task = true := by
  obtain hunread | ⟨published, hpublished, -⟩ := h
  · simp [SubscriptionCatchUp.publishes, hunread]
  · simp [SubscriptionCatchUp.publishes, hpublished]

/-! ### Orderly steps -/

section

variable (sub : Subscription)

def UpToDate (s : Service) : Prop :=
  ∀ stream, s.registry.active sub.id = some stream → stream.records = byPath s.records

/-- The publisher that ends with a step without having published: its subscription is not in the
store any more, its refresh could not be recorded, or it came to an early end. -/
def givesUp (s : Service) : Step → Option Task
  | .proceed _ (.announce identity path) =>
    if (matching sub s identity path).isNone then some (.announce identity path) else none
  | .proceed c (.complete refresh) =>
    match (completeDataSubscriptionRefresh c sub.sessionId sub.id refresh s.store).1 with
    | .ok _ => none
    | .error _ => some (.complete refresh)
  | .abandon task => if task.mayEnd ∧ publishes task then some task else none
  | _ => none

variable (streams : DataChangeStreams)

structure Orderly (s : Service) (next : Step) : Prop where
  installs : ∀ job records, Installs streams sub s next job records →
    byPath records = byPath s.records ∨ Ahead s.records (s.tasks.erase (.deliver job records))
  givesUp : ∀ task, givesUp sub s next = some task → task ∈ s.tasks →
    UpToDate sub s ∨ Ahead s.records (s.tasks.erase task)
  announced : ∀ records, next = .write records none →
    byPath records = byPath s.records ∨ s.registry.active sub.id = none ∨ ∃ task ∈ s.tasks,
      isUnread task = true

end

/-! ### The tasks after a step -/

variable {P : Primitives} {readers : Readers} {limits : StoreLimits} {streams : DataChangeStreams}
  {sub : Subscription} {s : Service} {go : Service → Service} {task : Task}
  {records : List MaterializedRecordInfo} (c : Circumstances)

def others (s : Service) : Step → List Task
  | .refreshed .. => s.tasks.erase .refresh
  | .proceed _ task => s.tasks.erase task
  | .interval _ poll records => s.tasks.erase (.deliver (.poll poll) records)
  | .expire _ poll records => s.tasks.erase (.deliver (.poll poll) records)
  | .timeout poll records => s.tasks.erase (.deliver (.poll poll) records)
  | .abandon task => s.tasks.erase task
  | _ => s.tasks

theorem subset_call {ε α : Type} (request : Call AppSessionStore ε α) {go : α → Service → Service}
    (hgo : ∀ a s, s.tasks ⊆ (go a s).tasks) : s.tasks ⊆ (s.call request go).tasks := by
  unfold Service.call
  obtain ⟨result, store⟩ := request s.store
  cases result with
  | ok a => exact hgo a { s with store }
  | error e => exact Subset.refl _

theorem subset_add (s : Service) (task : Task) : s.tasks ⊆ (s.add task).tasks :=
    subset_cons_self _ _

theorem subset_beginBackgroundRefresh (hgo : ∀ s, s.tasks ⊆ (go s).tasks) :
    s.tasks ⊆ (beginBackgroundRefresh limits sub c s go).tasks := by
  refine subset_call _ fun started s => Subset.trans ?_ (hgo _)
  split_ifs
  · exact subset_add _ _
  · exact Subset.refl _

theorem subset_deliver (records : List MaterializedRecordInfo) (job : Job) :
    s.tasks ⊆ (deliver streams sub c records s job).tasks := by
  cases job with
  | poll request =>
    dsimp only [deliver]
    split_ifs
    · exact subset_add _ _
    · exact Subset.refl _
  | _ => exact Subset.refl _

/-- A task that proceeds leaves the others. -/
theorem subset_proceed (task : Task) :
    s.tasks ⊆ (proceed P readers limits streams sub c s task).tasks := by
  cases task with
  | announce identity path =>
    dsimp only [proceed]
    split
    · exact subset_add _ _
    · exact Subset.refl _
  | check refresh =>
    dsimp only [proceed]
    split_ifs
    · exact subset_add _ _
    · exact Subset.refl _
  | refresh => exact subset_add _ _
  | complete refresh => exact subset_call _ fun _ s => subset_add _ _
  | find session cursor =>
    dsimp only [proceed]
    split
    · split_ifs
      · exact subset_add _ _
      · exact Subset.refl _
    · exact Subset.refl _
  | read job => cases job <;> exact subset_add _ _
  | begin poll records => exact subset_beginBackgroundRefresh c fun s => subset_add _ _
  | deliver job records => exact subset_deliver c records job
  | findAgain poll records =>
    dsimp only [proceed]
    split
    · split
      · exact subset_add _ _
      · exact Subset.refl _
    · exact subset_add _ _
  | discard poll records => exact subset_add _ _
  | _ => exact Subset.refl _

theorem subset_take (hgo : ∀ s, s.tasks ⊆ (go s).tasks) :
    s.tasks.erase task ⊆ (s.take task go).tasks := by
  unfold Service.take
  split_ifs
  · exact hgo (s.without task)
  · exact erase_subset

/-- **A step leaves all tasks but the one that it takes.** -/
theorem others_subset_step (s : Service) (next : Step) :
    others s next ⊆ (step P readers limits streams sub s next).tasks := by
  cases next with
  | write records announced =>
    dsimp only [step]
    split
    · exact subset_add _ _
    · exact Subset.refl _
  | beginRefresh c => exact subset_beginBackgroundRefresh c fun _ => Subset.refl _
  | authenticate c authorization cursor =>
    refine subset_call _ fun session s => ?_
    split_ifs
    · exact subset_add _ _
    · exact Subset.refl _
  | finish c ending =>
    cases ending with
    | deviceRevocation deviceId =>
      refine subset_call _ fun revoked s => ?_
      split_ifs
      · exact subset_add _ _
      · exact Subset.refl _
    | _ => exact subset_call _ fun _ s => subset_add _ _
  | refreshed records refresh => exact subset_take fun s => subset_cons_self _ _
  | proceed c task => exact subset_take fun s => subset_proceed c task
  | interval c poll records => exact subset_take fun s => subset_add _ _
  | expire c poll records =>
    dsimp only [step]
    split_ifs
    · exact subset_take fun s => Subset.refl _
    · exact erase_subset
  | timeout poll records => exact subset_take fun s => Subset.refl _
  | abandon task =>
    dsimp only [step]
    split_ifs
    · exact subset_take fun s => Subset.refl _
    · exact erase_subset
  | _ => exact Subset.refl _

/-! ### Covered states -/

def Covered (sub : Subscription) (s : Service) : Prop := UpToDate sub s ∨ Ahead s.records s.tasks

theorem upToDate_of_none (h : s.registry.active sub.id = none) : UpToDate sub s :=
  fun stream hstream => absurd (h.symm.trans hstream) (by simp)

theorem UpToDate.retains (h : UpToDate sub s) {s' : Service}
    (hretains : Retains (s.registry.active sub.id) (s'.registry.active sub.id))
    (hrecords : byPath s'.records = byPath s.records) : UpToDate sub s' := by
  intro stream' hstream'
  obtain ⟨stream, hstream, hsame, -⟩ := hretains stream' hstream'
  rw [hsame, h stream hstream, hrecords]

theorem isAhead_of_isUnread (h : isUnread task = true) : IsAhead records task := .inl h

theorem ahead_add (h : IsAhead records task) : Ahead records (s.add task).tasks :=
    ⟨task, mem_cons_self, h⟩

theorem active_eq_none_of_not_installs (h : Kept sub s.registry) {job : Job}
    (hjob : ∀ poll, job ≠ .poll poll) (hinstalls : job.installs streams sub s.registry = false) :
    s.registry.active sub.id = none := by
  rcases Bool.and_eq_false_iff.mp hinstalls with hterminal | hactive
  · obtain ⟨terminal, hterminal⟩ : ∃ terminal, s.registry.terminal sub.id = some terminal := by
      simpa [Option.isSome_iff_exists] using hterminal
    exact (h.tombstoned _ _ hterminal).1
  · cases job with
    | announcement refresh => simpa [Job.registers] using hactive
    | refreshed refresh => simp [Job.registers] at hactive
    | poll request => exact absurd rfl (hjob request)

/-! ### The records after a step -/

theorem records_call {ε α : Type} (request : Call AppSessionStore ε α) {go : α → Service → Service}
    (hgo : ∀ a s, (go a s).records = s.records) : (s.call request go).records = s.records := by
  unfold Service.call
  split
  · exact hgo _ _
  · rfl

theorem records_proceed (task : Task) : (proceed P readers limits streams sub c s task).records =
    s.records := by
  have hbegin : ∀ go : Service → Service, (∀ s, (go s).records = s.records) →
      (beginBackgroundRefresh limits sub c s go).records = s.records := fun go hgo =>
    records_call _ fun started s => by
      rw [hgo]
      split_ifs <;> rfl
  cases task with
  | complete refresh => exact records_call _ fun _ _ => rfl
  | begin poll records => exact hbegin _ fun _ => rfl
  | read job => cases job <;> rfl
  | deliver job records =>
    cases job with
    | announcement refresh => rfl
    | refreshed refresh => rfl
    | poll request =>
      dsimp only [proceed, deliver]
      split_ifs <;> rfl
  | announce identity path =>
    dsimp only [proceed]
    split <;> rfl
  | check refresh =>
    dsimp only [proceed]
    split_ifs <;> rfl
  | find session cursor =>
    dsimp only [proceed]
    split
    · split_ifs <;> rfl
    · rfl
  | findAgain poll records =>
    dsimp only [proceed]
    split
    · split <;> rfl
    · rfl
  | _ => rfl

theorem records_take (hgo : ∀ s, (go s).records = s.records) :
    (s.take task go).records = s.records := by
  unfold Service.take
  split_ifs
  · exact hgo _
  · rfl

variable {next : Step}

/-- Only writes and refreshes change the records. -/
theorem records_step (hwrite : ∀ records announced, next ≠ .write records announced)
    (hrefreshed : ∀ records refresh, next ≠ .refreshed records refresh) :
    (step P readers limits streams sub s next).records = s.records := by
  cases next with
  | write records announced => exact absurd rfl (hwrite records announced)
  | call next hreopen => rfl
  | beginRefresh c =>
    refine records_call _ fun started s => ?_
    split_ifs <;> rfl
  | authenticate c authorization cursor =>
    refine records_call _ fun session s => ?_
    split_ifs <;> rfl
  | finish c ending =>
    cases ending with
    | deviceRevocation deviceId =>
      refine records_call _ fun revoked s => ?_
      split_ifs <;> rfl
    | _ => exact records_call _ fun _ _ => rfl
  | evict now held => rfl
  | refreshed records refresh => exact absurd rfl (hrefreshed records refresh)
  | proceed c task => exact records_take fun s => records_proceed c task
  | expire c poll records =>
    dsimp only [step]
    split_ifs
    · exact records_take fun _ => rfl
    · rfl
  | abandon task =>
    dsimp only [step]
    split_ifs
    · exact records_take fun _ => rfl
    · rfl
  | _ => exact records_take fun _ => rfl

/-! ### A publisher that goes on -/

/-- **A publisher that neither gives up nor installs its records is followed by its next task, or
has no stream to update.** -/
theorem ahead_proceed (h : Kept sub s.registry) (c : Circumstances)
    (hahead : IsAhead s.records task) (hgives : givesUp sub s (.proceed c task) = none)
    (hinstalls : ∀ job records, task = .deliver job records →
      job.installs streams sub s.registry = false) :
    Ahead s.records (proceed P readers limits streams sub c s task).tasks ∨
      (proceed P readers limits streams sub c s task).registry.active sub.id = none := by
  cases task with
  | announce identity path =>
    dsimp only [proceed]
    cases hmatching : matching sub s identity path with
    | some record => exact .inl (ahead_add (isAhead_of_isUnread rfl))
    | none => simp [givesUp, hmatching] at hgives
  | check refresh =>
    dsimp only [proceed]
    split_ifs with hactive
    · exact .inl (ahead_add (isAhead_of_isUnread rfl))
    · refine .inr ?_
      by_contra hsome
      obtain ⟨stream, hstream⟩ := Option.ne_none_iff_exists'.mp hsome
      exact hactive (by simp [StreamRegistry.isActive, hstream, (h.owned stream hstream).1])
  | refresh => exact .inl (ahead_add (isAhead_of_isUnread rfl))
  | complete refresh =>
    dsimp only [proceed, givesUp, Service.call] at hgives ⊢
    generalize completeDataSubscriptionRefresh c sub.sessionId sub.id refresh s.store =
      result at hgives ⊢
    obtain ⟨result, store⟩ := result
    cases result with
    | ok record => exact .inl ⟨_, mem_cons_self, isAhead_of_isUnread rfl⟩
    | error e => cases hgives
  | read job =>
    cases job with
    | poll request => simp [IsAhead, isUnread, publication] at hahead
    | _ => exact .inl (ahead_add (.inr ⟨_, rfl, rfl⟩))
  | deliver job records =>
    have hjob : ∀ poll, job ≠ .poll poll := by
      rintro poll rfl
      simp [IsAhead, isUnread, publication] at hahead
    have hnone := active_eq_none_of_not_installs h hjob (hinstalls job records rfl)
    exact .inr ((retains_deliver h c records (hinstalls job records rfl)).eq_none hnone)
  | _ => simp [IsAhead, isUnread, publication] at hahead

/-! ### Every step -/

theorem givesUp_proceed {c : Circumstances} {task' : Task}
    (h : givesUp sub s (.proceed c task) = some task') :
    task' = task := by
  cases task with
  | announce identity path =>
    dsimp only [givesUp] at h
    split_ifs at h
    exact (Option.some.inj h).symm
  | complete refresh =>
    dsimp only [givesUp] at h
    split at h
    · cases h
    · exact (Option.some.inj h).symm
  | _ => cases h

/-- A step that does not change the records and installs none keeps the cover, if the publishers
that were to follow still are or there is no stream. -/
theorem Covered.of_harmless (hcovered : Covered sub s) {s' : Service}
    (hharmless : Harmless sub s.registry s'.registry) (hrecords : s'.records = s.records)
    (hahead : Ahead s.records s.tasks →
      UpToDate sub s ∨ Ahead s.records s'.tasks ∨ s'.registry.active sub.id = none) :
        Covered sub s' := by
  have hcurrent : UpToDate sub s → Covered sub s' := fun hupToDate =>
    .inl (hupToDate.retains hharmless.1 (by rw [hrecords]))
  obtain hupToDate | hfollows := hcovered
  · exact hcurrent hupToDate
  · obtain hupToDate | hfollows | hnone := hahead hfollows
    · exact hcurrent hupToDate
    · exact .inr (by rwa [hrecords])
    · exact .inl (upToDate_of_none hnone)

variable (P readers limits) in
theorem covered_proceed (h : Kept sub s.registry) (hcovered : Covered sub s) {c : Circumstances}
    {task : Task} (hmem : task ∈ s.tasks) (horderly : Orderly sub streams s (.proceed c task)) :
    Covered sub (step P readers limits streams sub s (.proceed c task)) := by
  have hstep : step P readers limits streams sub s (.proceed c task) =
      proceed P readers limits streams sub c (s.without task) task := if_pos hmem
  have hrecords : (step P readers limits streams sub s (.proceed c task)).records = s.records := by
    rw [hstep]
    exact records_proceed c task
  have hothers : s.tasks.erase task ⊆
    (step P readers limits streams sub s (.proceed c task)).tasks :=
    others_subset_step s (.proceed c task)
  by_cases hinstalls : ∃ job records, Installs streams sub s (.proceed c task) job records
  · obtain ⟨job, records, hinstalls⟩ := hinstalls
    obtain ⟨stream, hactive, hstream, -⟩ := active_step_of_installs P readers limits h hinstalls
    obtain hcurrent | hahead := horderly.installs job records hinstalls
    · refine .inl fun stream' hstream' => ?_
      cases hactive.symm.trans hstream'
      rw [hstream, hcurrent, hrecords]
    · obtain ⟨c', heq, -⟩ := hinstalls
      cases heq
      exact .inr (by rw [hrecords]; exact hahead.mono hothers)
  · have hharmless := harmless_step P readers limits h fun job records hjob =>
      hinstalls ⟨job, records, hjob⟩
    refine hcovered.of_harmless hharmless hrecords fun hfollows => ?_
    obtain htask | hahead := hfollows.cases_erase task
    · cases hgives : givesUp sub s (.proceed c task) with
      | some task' =>
        obtain rfl := givesUp_proceed hgives
        exact (horderly.givesUp task' hgives hmem).imp_right fun hahead =>
          .inl (hahead.mono hothers)
      | none =>
        refine .inr ?_
        rw [hstep]
        refine ahead_proceed (s := s.without task) h c htask hgives fun job records hdeliver => ?_
        rw [Bool.eq_false_iff]
        exact fun hjob => hinstalls ⟨job, records, c, by rw [hdeliver], hdeliver ▸ hmem, hjob⟩
    · exact .inr (.inl (hahead.mono hothers))

theorem covered_write (hcovered : Covered sub s) {records : List MaterializedRecordInfo}
    {announced : Option (String × String)}
    (horderly : Orderly sub streams s (.write records announced)) :
    Covered sub (step P readers limits streams sub s (.write records announced)) := by
  cases announced with
  | some announcement => exact .inr (ahead_add (isAhead_of_isUnread rfl))
  | none =>
    obtain hsame | hnone | ⟨task, hmem, hunread⟩ := horderly.announced records rfl
    · refine hcovered.imp (fun h stream hstream => (h stream hstream).trans hsame.symm) ?_
      rintro ⟨task, hmem, hahead⟩
      refine ⟨task, hmem, hahead.imp_right ?_⟩
      rintro ⟨published, hpublished, heq⟩
      exact ⟨published, hpublished, heq.trans hsame.symm⟩
    · exact .inl (upToDate_of_none hnone)
    · exact .inr ⟨task, hmem, isAhead_of_isUnread hunread⟩

theorem Covered.of_others (hcovered : Covered sub s)
    (hharmless : Harmless sub s.registry (step P readers limits streams sub s next).registry)
    (hrecords : (step P readers limits streams sub s next).records = s.records)
    (hahead : Ahead s.records s.tasks → Ahead s.records (others s next)) :
    Covered sub (step P readers limits streams sub s next) :=
  hcovered.of_harmless hharmless hrecords fun hfollows =>
    .inr (.inl ((hahead hfollows).mono (others_subset_step s next)))

theorem Ahead.erase_poll {records records' : List MaterializedRecordInfo} {tasks : List Task}
    {poll : Poll} (h : Ahead records tasks) :
    Ahead records (tasks.erase (.deliver (.poll poll) records')) := by
  obtain hpoll | hothers := h.cases_erase (.deliver (.poll poll) records')
  · simp [IsAhead, isUnread, publication] at hpoll
  · exact hothers

variable (P readers limits) in
theorem covered_abandon (h : Kept sub s.registry) (hcovered : Covered sub s) {task : Task}
    (horderly : Orderly sub streams s (.abandon task)) :
    Covered sub (step P readers limits streams sub s (.abandon task)) := by
  have hharmless :
    Harmless sub s.registry (step P readers limits streams sub s (.abandon task)).registry := by
    refine harmless_step P readers limits h ?_
    rintro job records ⟨c, hnext, -⟩
    cases hnext
  have hrecords : (step P readers limits streams sub s (.abandon task)).records = s.records :=
    records_step (by simp) (by simp)
  by_cases hends : task.mayEnd = true ∧ task ∈ s.tasks
  · refine hcovered.of_harmless hharmless hrecords fun hfollows => ?_
    have hothers : s.tasks.erase task ⊆
      (step P readers limits streams sub s (.abandon task)).tasks :=
      others_subset_step s (.abandon task)
    obtain htask | hahead := hfollows.cases_erase task
    · have hgives : givesUp sub s (.abandon task) = some task :=
        if_pos ⟨hends.1, htask.publishes⟩
      exact (horderly.givesUp task hgives hends.2).imp_right fun hahead =>
        .inl (hahead.mono hothers)
    · exact .inr (.inl (hahead.mono hothers))
  · have hsame : step P readers limits streams sub s (.abandon task) = s := by
      dsimp only [step, Service.take]
      split_ifs with hmay hmem
      · exact absurd ⟨hmay, hmem⟩ hends
      · rfl
      · rfl
    rw [hsame]
    exact hcovered

variable (P readers limits) in
/-- **An orderly step keeps the cover.** -/
theorem covered_step (h : Kept sub s.registry) (hcovered : Covered sub s)
    (horderly : Orderly sub streams s next) :
    Covered sub (step P readers limits streams sub s next) := by
  by_cases hproceed : ∃ c task, next = .proceed c task
  · obtain ⟨c, task, rfl⟩ := hproceed
    by_cases hmem : task ∈ s.tasks
    · exact covered_proceed P readers limits h hcovered hmem horderly
    · rw [show step P readers limits streams sub s (.proceed c task) = s from if_neg hmem]
      exact hcovered
  -- the other steps install nothing
  have hharmless : Harmless sub s.registry (step P readers limits streams sub s next).registry := by
    refine harmless_step P readers limits h ?_
    rintro job records ⟨c, hnext, -⟩
    exact hproceed ⟨c, _, hnext⟩
  cases next with
  | write records announced => exact covered_write hcovered horderly
  | refreshed records refresh =>
    dsimp only [step, Service.take]
    split_ifs
    · exact .inr ⟨_, mem_cons_self, isAhead_of_isUnread rfl⟩
    · exact hcovered
  | proceed c task => exact absurd ⟨c, task, rfl⟩ hproceed
  | interval c poll records =>
    exact hcovered.of_others hharmless (records_step (by simp) (by simp)) Ahead.erase_poll
  | expire c poll records =>
    exact hcovered.of_others hharmless (records_step (by simp) (by simp)) Ahead.erase_poll
  | timeout poll records =>
    exact hcovered.of_others hharmless (records_step (by simp) (by simp)) Ahead.erase_poll
  | abandon task => exact covered_abandon P readers limits h hcovered horderly
  | _ => exact hcovered.of_others hharmless (records_step (by simp) (by simp)) id

/-! ### Whole runs -/

/-- When all publishers are done, the stream has the node's records. -/
def CatchesUp (sub : Subscription) (s : Service) : Prop :=
  (∀ task ∈ s.tasks, publishes task = false) → UpToDate sub s

theorem Covered.catchesUp (h : Covered sub s) : CatchesUp sub s := by
  intro hdone
  refine h.resolve_right ?_
  rintro ⟨task, hmem, hahead⟩
  exact absurd (hahead.publishes.symm.trans (hdone task hmem)) (by simp)

/-- **After every run of orderly steps the stream catches up.** -/
theorem catches_up (P : Primitives) (readers : Readers) (limits : StoreLimits)
    (streams : DataChangeStreams) (sub : Subscription) (store : AppSessionStore)
    (records : List MaterializedRecordInfo) (steps : List Step)
    (horderly : Along (step P readers limits streams sub) (Orderly sub streams)
      (.init store records) steps) :
    CatchesUp sub (run P readers limits streams sub (.init store records) steps) := by
  have hinvariant := horderly.invariant (I := fun s => Kept sub s.registry ∧ Covered sub s)
    (fun s next h horderly =>
      ⟨h.1.step P readers limits next, covered_step P readers limits h.1 h.2 horderly⟩)
    ⟨kept_init sub store records, .inl (upToDate_of_none rfl)⟩
  exact hinvariant.2.catchesUp

/-! ### Two announcements -/

def notesSubscription : Subscription := ⟨"session", "sub", "alice.jolt"⟩

/-- A store with the subscription to the notes. -/
def notesStore : AppSessionStore :=
    .open ⟨[], [⟨"sub", "session", "alice.jolt", "/notes", .dormant, .loading, 0⟩]⟩

def quiet : Circumstances := ⟨0, 0, "id", "token", .ok ()⟩

/-- A background refresh finds the first note and opens the stream. Then the note is changed twice,
and both changes are announced; the second is read and published before the first is. -/
def overtakenSteps (inOrder : Bool) : List Step :=
  let announced (revision : String) : List Step :=
    [.write [note revision] (some ("alice.jolt", "/notes/a")),
      .proceed quiet (.announce "alice.jolt" "/notes/a"),
      .proceed quiet (.check (.ready 1)), .proceed quiet (.read (.announcement (.ready 1)))]
  let published (revision : String) :
    Step := .proceed quiet (.deliver (.announcement (.ready 1)) [note revision])
  [.beginRefresh quiet, .refreshed [note "one"] (.ready 1), .proceed quiet (.complete (.ready 1)),
    .proceed quiet (.read (.refreshed (.ready 1))),
    .proceed quiet (.deliver (.refreshed (.ready 1)) [note "one"])] ++
  announced "two" ++ announced "three" ++
    if inOrder then [published "two", published "three"] else [published "three", published "two"]

theorem orderly_of_plain (hdeliver : ∀ c job records, next ≠ .proceed c (.deliver job records))
    (hgives : givesUp sub s next = none) (hwrite : ∀ records, next ≠ .write records none) :
    Orderly sub streams s next where
  installs := by
    rintro job records ⟨c, hnext, -⟩
    exact absurd hnext (hdeliver c job records)
  givesUp := fun task htask => absurd (hgives.symm.trans htask) (by simp)
  announced := fun records hnext => absurd hnext (hwrite records)

theorem orderly_deliver {c : Circumstances} {job : Job} {records : List MaterializedRecordInfo}
    (h : byPath records = byPath s.records ∨
      Ahead s.records (s.tasks.erase (.deliver job records))) :
    Orderly sub streams s (.proceed c (.deliver job records)) where
  installs := by
    rintro job' records' ⟨c', hnext, -⟩
    cases hnext
    exact h
  givesUp := fun task htask => by cases htask
  announced := fun records hnext => by cases hnext

theorem announcements_in_order :
    UpToDate notesSubscription (run Sample.primitives ⟨id, fun _ => .error ""⟩ ⟨8, 30⟩ shortStreams
      notesSubscription (.init notesStore []) (overtakenSteps true)) := by
  refine catches_up Sample.primitives ⟨id, fun _ => .error ""⟩ ⟨8, 30⟩ shortStreams
    notesSubscription
    notesStore [] (overtakenSteps true) ?_ (by decide)
  refine ⟨orderly_of_plain (by simp) rfl (by simp), orderly_of_plain (by simp) rfl (by simp),
    orderly_of_plain (by simp) rfl (by simp), orderly_of_plain (by simp) rfl (by simp),
    orderly_deliver (.inl rfl), orderly_of_plain (by simp) rfl (by simp),
    orderly_of_plain (by simp) rfl (by simp), orderly_of_plain (by simp) rfl (by simp),
    orderly_of_plain (by simp) rfl (by simp), orderly_of_plain (by simp) rfl (by simp),
    orderly_of_plain (by simp) rfl (by simp), orderly_of_plain (by simp) rfl (by simp),
    orderly_of_plain (by simp) rfl (by simp), orderly_deliver (.inr ?_), orderly_deliver (.inl rfl),
    trivial⟩
  -- the second announcement has read what the node has
  exact ⟨.deliver (.announcement (.ready 1)) [note "three"], by decide, .inr ⟨_, rfl, rfl⟩⟩

theorem announcements_overtake :
    ¬ CatchesUp notesSubscription
      (run Sample.primitives ⟨id, fun _ => .error ""⟩ ⟨8, 30⟩ shortStreams
      notesSubscription (.init notesStore []) (overtakenSteps false)) := by
  intro h
  have hsame := h (by decide) _ rfl
  have hnote := congrArg (·["/notes/a"]?) hsame
  exact absurd hnote (by decide)

end Jolt.Server.SubscriptionCatchUp
