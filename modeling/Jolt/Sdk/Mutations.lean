import Jolt.Publishing.FailedWrites
import Jolt.Publishing.Replays
import Jolt.Sdk.ConflictPolicy

/-! # Changes of items

What the SDK sends to the node when an app changes an item (`update`, `replace`, `delete`,
`restore`, `choose` and `resolve` in `data.ts`): a mutation of the record under a new id, sent again
under that id if no answer came.

Whichever way an item was read, what is sent names exactly the heads that were read
(`send_names_heads`). On the node it takes effect only if these are the heads of the record, and
once (`changes_guarded`). -/

namespace Jolt.Sdk.Mutations

open Std Lib.Checks Values Schemas Sdk.Merge ConcurrentUpdates Items ConflictPolicy Core.Types
  Core.IdentityAuthority
open Network.Node (PeerId)
open Publishing Writing LocalNode Requests RecordHeads CompareAndSwap FailedWrites Lives Replays

/-! ### What is written -/

section

variable (isoTime : String → Option ℤ) (classes : SchemaClasses) (resource : ResourceDefinition)

def currentStoredValue (input : Value) : Except DataError StoredSchemaValue := do
  let options ← okOr (classes.options resource.schema) (.type "Class is not decorated with @Schema")
  let value ← parse isoTime classes resource.schema ⟨options.version, input, ordinary⟩
  return ⟨options.version, value, ordinary⟩

def patched (current patch : Value) : Value :=
  .object (current.keys ++ patch.keys) fun key =>
    ((patch.own? key).or (current.own? key)).getD .undefined

/-- A field of the class after a patch: what was stored stays, if it is of the present version and
not patched. -/
def patchField (keepsRaw : Bool) (raw parsed patch : Value) (next : Draft) (key : String) : Draft :=
  if keepsRaw && (raw.own? key).isSome && (patch.own? key).isNone then next
  else
    match parsed.own? key with
    | some v => next.set key v
    | none => next.delete key

/-- The stored value with a patch: fields that the class does not have stay. -/
def patchedStoredValue (previous : StoredSchemaValue) (currentValue patch : Value) :
    Except DataError StoredSchemaValue := do
  ensure ((migrationValue patch).isSome = true) (.validation "$" "patch must be an object")
  let current ← currentStoredValue isoTime classes resource (patched currentValue patch)
  let next := ((classes.fields resource.schema).map (·.1)).foldl
    (patchField (previous.version = current.version) previous.value current.value patch)
    (Draft.spread previous.value)
  return ⟨current.version, next.value, next.inherits⟩

end

/-! ### What is sent -/

inductive Action where
  | update (patch : Value)
  | replace (input : Value)
  | delete
  | restore (input : Value)
  /-- An alternative by its place in the list. -/
  | choose (index : ℕ)
  | resolve (input : Value)

/-- How the first request of a change ends, as far as the SDK sees. -/
inductive Response where
  | answered
  | unavailable
  | failed
deriving DecidableEq

/-- The change is sent once more if no answer came. -/
def retryAfterUnavailableResponse (response : Response) (mutation : Mutation) : List Mutation :=
  if response = .unavailable then [mutation, mutation] else [mutation]

section

variable (encode : StoredSchemaValue → Bytes) (path mutationId : String)

/-- The mutation of `update`, `delete` and `restore` of the backend. -/
def mutationAt (kind : MutationKind) (revision : String) :
    Mutation := ⟨kind, path, revision, [], mutationId⟩

/-- The mutation of `resolveConflict`: what is next, or a deletion, over the revisions. -/
def resolveConflict (next : Option StoredSchemaValue) (revisions : List String) :
    Except DataError Mutation :=
  match revisions.getLast? with
  | none => .error .conflict
  | some revision =>
    .ok ⟨(next.map fun stored => .update (encode stored)).getD .delete, path, revision,
      revisions, mutationId⟩

/-- The mutation over the one revision of an item, or over all that it was read from; none if it has
none. -/
def commit (kind : MutationKind) (next : Option StoredSchemaValue) (revision : Option String) :
    Option (List String) → Except DataError (Option Mutation)
  | none => return revision.map (mutationAt path mutationId kind)
  | some revisions => do return some (← resolveConflict encode path mutationId next revisions)

variable (isoTime : String → Option ℤ) (classes : SchemaClasses) (resource : ResourceDefinition)

def changePresent (migrated : StoredSchemaValue) (value : Value) (revision : Option String)
    (observedRevisions : Option (List String)) : Action → Except DataError (Option Mutation)
  | .update patch =>
    if resource.access.update then do
      let stored ← patchedStoredValue isoTime classes resource migrated value patch
      commit encode path mutationId (.update (encode stored))
        (some stored) revision observedRevisions
    else return none
  | .replace input =>
    if resource.access.update then do
      let stored ← currentStoredValue isoTime classes resource input
      commit encode path mutationId (.update (encode stored))
        (some stored) revision observedRevisions
    else return none
  | .delete =>
    if resource.access.delete then commit encode path mutationId .delete none revision
      observedRevisions
    else return none
  | _ => return none

def changeDeleted (context : Option MutationContext) : Action → Except DataError (Option Mutation)
  | .restore input =>
    match context with
    | some context =>
      if resource.access.restore then do
        let stored ← currentStoredValue isoTime classes resource input
        commit encode path mutationId (.restore (encode stored)) (some stored)
          (some context.revision)
          context.observedRevisions
      else return none
    | none => return none
  | _ => return none

def chooseAlternative (record : BackendConflictRecord) (index : ℕ) :
    Except DataError (Option Mutation) := do
  let selected ← okOr record.alternatives[index]?
    (.type "Conflict alternative does not belong to this Item")
  match selected with
  | .deleted _ =>
    ensure (resource.access.delete = true)
      (.type "Resource does not allow choosing a deleted alternative")
    return some (← resolveConflict encode path mutationId none record.revisions)
  | .present head =>
    ensure (resource.access.update = true)
      (.type "Resource does not allow choosing a present alternative")
    return some (← resolveConflict encode path mutationId (some head.stored) record.revisions)

def changeConflicted (record : BackendConflictRecord) (isMutable : Bool) : Action → Except DataError
    (Option Mutation)
  | .choose index =>
    if isMutable && (resource.access.update || resource.access.delete) then
      chooseAlternative encode path mutationId resource record index
    else return none
  | .resolve input =>
    if isMutable && resource.access.update then do
      let stored ← currentStoredValue isoTime classes resource input
      return some (← resolveConflict encode path mutationId (some stored) record.revisions)
    else return none
  | _ => return none

/-- The mutation of an action under an id; none if the item does not offer it, and an error if the
action is refused before anything is sent. -/
def change : Item → Action → Except DataError (Option Mutation)
  | .missing => fun _ => return none
  | .unavailable => fun _ => return none
  | .present migrated value revision observedRevisions =>
    changePresent encode path mutationId isoTime classes resource migrated value revision
      observedRevisions
  | .deleted context => changeDeleted encode path mutationId isoTime classes resource context
  | .conflicted _ record isMutable =>
    changeConflicted encode path mutationId isoTime classes resource record isMutable

/-- Whether the item has a method for the action. -/
def offers : Item → Action → Bool
  | .present _ _ revision observedRevisions, .update _
  | .present _ _ revision observedRevisions, .replace _ =>
    resource.access.update && (revision.isSome || observedRevisions.isSome)
  | .present _ _ revision observedRevisions, .delete =>
    resource.access.delete && (revision.isSome || observedRevisions.isSome)
  | .deleted context, .restore _ => resource.access.restore && context.isSome
  | .conflicted _ _ isMutable, .choose _ =>
    isMutable && (resource.access.update || resource.access.delete)
  | .conflicted _ _ isMutable, .resolve _ => isMutable && resource.access.update
  | _, _ => false

/-- The requests of an action. The actions on a conflict are not sent again. -/
def send (response : Response) (item : Item) (action : Action) :
    Except DataError (List Mutation) := do
  match ← change encode path mutationId isoTime classes resource item action with
  | none => return []
  | some mutation =>
    match item with
    | .conflicted _ _ _ => return [mutation]
    | _ => return retryAfterUnavailableResponse response mutation

end

/-! ### What is named -/

inductive HeadsAre : BackendRecord → List String → Prop
  | present (stored : StoredSchemaValue) (revision : String) :
      HeadsAre (.present ⟨stored, some revision, none⟩) [revision]
  | deleted (revision : String) : HeadsAre (.deleted (some revision)) [revision]
  | conflicted (record : BackendConflictRecord) : HeadsAre (.conflicted record) record.revisions

variable {encode : StoredSchemaValue → Bytes} {path mutationId : String}
  {isoTime : String → Option ℤ} {classes : SchemaClasses} {resource : ResourceDefinition}
  {isMutable : Bool} {record : BackendRecord} {heads : List String} {item : Item} {action : Action}
  {m : Mutation}

/-- The mutation has the path and the id, and names the heads. -/
structure NamesHeads (path mutationId : String) (heads : List String) (m : Mutation) : Prop where
  path : m.path = path
  mutationId : m.mutationId = mutationId
  heads : requestedRecordRevisions m.observedRevision m.observedRevisions = .ok heads

/-- What an item keeps to change the record names the heads. -/
def Keeps (heads : List String) (revision : Option String)
    (observedRevisions : Option (List String)) : Prop :=
  (observedRevisions = some heads) ∨
  (observedRevisions = none ∧ (revision = none ∨ heads = revision.toList))

def ReadFrom (heads : List String) : Item → Prop
  | .missing => True
  | .unavailable => True
  | .present _ _ revision observedRevisions => Keeps heads revision observedRevisions
  | .deleted context => ∀ c, context = some c → Keeps heads (some c.revision) c.observedRevisions
  | .conflicted _ record _ => record.revisions = heads

variable {next : Option StoredSchemaValue}

theorem namesHeads_resolveConflict
    (h : resolveConflict encode path mutationId next heads = .ok m) :
    NamesHeads path mutationId heads m := by
  unfold resolveConflict at h
  cases hlast : heads.getLast? with
  | none => simp [hlast] at h
  | some revision =>
    simp only [hlast, Except.ok.injEq] at h
    subst h
    have hne : heads ≠ [] := fun hnil => by simp [hnil] at hlast
    exact ⟨rfl, rfl, by simp [requestedRecordRevisions, hne, hlast]⟩

/-- What is sent for an action names the heads, and nothing is sent only if it is not offered. -/
structure Sends (path mutationId : String) (heads : List String) (offered : Bool)
    (sent : Option Mutation) : Prop where
  names : ∀ m ∈ sent, NamesHeads path mutationId heads m
  offered : sent = none → offered = false

variable {offered : Bool} {sent : Option Mutation}

theorem sends_nothing (h : (pure none : Except DataError (Option Mutation)) = .ok sent)
    (hoffered : offered = false) : Sends path mutationId heads offered sent := by
  obtain rfl := pure_eq_ok.mp h
  exact ⟨fun m hm => absurd hm (Option.not_mem_none m), fun _ => hoffered⟩

theorem sends_some (h : NamesHeads path mutationId heads m) :
    Sends path mutationId heads offered (some m) := by
  refine ⟨?_, fun hnone => absurd hnone (Option.some_ne_none m)⟩
  rintro _ ⟨⟩
  exact h

theorem sends_resolveConflict (h : resolveConflict encode path mutationId next heads = .ok m) :
    Sends path mutationId heads offered (some m) :=
  sends_some (namesHeads_resolveConflict h)

theorem sends_commit {kind : MutationKind} {revision : Option String}
    {observedRevisions : Option (List String)} (hkeeps : Keeps heads revision observedRevisions)
    (h : commit encode path mutationId kind next revision observedRevisions = .ok sent) :
    Sends path mutationId heads
      (offered && (revision.isSome || observedRevisions.isSome)) sent := by
  obtain rfl | ⟨rfl, hrevision⟩ := hkeeps
  · simp only [commit, bind_eq_ok, pure_eq_ok] at h
    obtain ⟨_, h, rfl⟩ := h
    exact sends_resolveConflict h
  · simp only [commit, pure_eq_ok] at h
    subst h
    cases revision with
    | none => exact sends_nothing rfl (by simp)
    | some revision =>
      obtain hnone | rfl := hrevision
      · cases hnone
      exact sends_some ⟨rfl, rfl, rfl⟩

theorem sends_chooseAlternative {record : BackendConflictRecord} {index : ℕ}
    (h : chooseAlternative encode path mutationId resource record index = .ok sent) :
    Sends path mutationId record.revisions offered sent := by
  unfold chooseAlternative at h
  simp only [bind_eq_ok] at h
  obtain ⟨selected, -, h⟩ := h
  split at h <;>
  · simp only [bind_eq_ok, pure_eq_ok] at h
    obtain ⟨-, -, _, h, rfl⟩ := h
    exact sends_resolveConflict h

/-- **What an item sends names the heads it was read from**, and an action that it offers leads to a
mutation, unless it is refused. -/
theorem sends_change (hread : ReadFrom heads item)
    (h : change encode path mutationId isoTime classes resource item action = .ok sent) :
    Sends path mutationId heads (offers resource item action) sent := by
  cases item with
  | missing => exact sends_nothing h rfl
  | unavailable => exact sends_nothing h rfl
  | present migrated value revision observedRevisions =>
    simp only [change] at h
    unfold changePresent at h
    split at h
    · split_ifs at h with hallowed
      · simp only [bind_eq_ok] at h
        obtain ⟨stored, -, h⟩ := h
        exact sends_commit hread h
      · exact sends_nothing h (by simp [offers, hallowed])
    · split_ifs at h with hallowed
      · simp only [bind_eq_ok] at h
        obtain ⟨stored, -, h⟩ := h
        exact sends_commit hread h
      · exact sends_nothing h (by simp [offers, hallowed])
    · split_ifs at h with hallowed
      · exact sends_commit hread h
      · exact sends_nothing h (by simp [offers, hallowed])
    · exact sends_nothing h (by cases action <;> first | rfl | simp_all)
  | deleted context =>
    simp only [change] at h
    unfold changeDeleted at h
    split at h
    · cases context with
      | none => exact sends_nothing h (by simp [offers])
      | some context =>
        simp only at h
        split_ifs at h with hallowed
        · simp only [bind_eq_ok] at h
          obtain ⟨stored, -, h⟩ := h
          exact sends_commit (hread context rfl) h
        · exact sends_nothing h (by simp [offers, hallowed])
    · exact sends_nothing h (by cases action <;> first | rfl | simp_all)
  | conflicted alternatives record isMutable =>
    obtain rfl : record.revisions = heads := hread
    simp only [change] at h
    unfold changeConflicted at h
    split at h
    · split_ifs at h with hallowed
      · exact sends_chooseAlternative h
      · exact sends_nothing h (by simpa [offers] using hallowed)
    · split_ifs at h with hallowed
      · simp only [bind_eq_ok, pure_eq_ok] at h
        obtain ⟨stored, -, _, h, rfl⟩ := h
        exact sends_resolveConflict h
      · exact sends_nothing h (by simpa [offers] using hallowed)
    · exact sends_nothing h (by cases action <;> first | rfl | simp_all)

/-! ### What is read -/

theorem readFrom_presentItem {stored : BackendPresentRecord}
    (h : presentItem isoTime classes resource stored isMutable = .ok item)
    (hkeeps : Keeps heads stored.revision stored.observedRevisions) : ReadFrom heads item := by
  simp only [presentItem, bind_eq_ok, pure_eq_ok] at h
  obtain ⟨migrated, -, rfl⟩ := h
  cases isMutable with
  | true => exact hkeeps
  | false => exact .inr ⟨rfl, .inl rfl⟩

theorem readFrom_conflictItem {kept : BackendConflictRecord} (hkept : kept.revisions = heads)
    (h : conflictItem isoTime classes resource kept isMutable = .ok item) :
    ReadFrom heads item := by
  obtain ⟨alternatives, rfl⟩ := conflictItem_eq_ok h
  exact hkept

theorem revisions_presentOnlyConflict (record : BackendConflictRecord)
    (alternatives : List PresentHead) :
    (presentOnlyConflict record alternatives).revisions = record.revisions := by
  unfold presentOnlyConflict
  split_ifs <;> rfl

theorem readFrom_readUpdates {record : BackendConflictRecord}
    (h : readUpdates isoTime classes resource record isMutable = .ok item) :
    ReadFrom record.revisions item := by
  simp only [readUpdates, bind_eq_ok] at h
  obtain ⟨_ | merged, hmerge, h⟩ := h
  · simp only at h
    split_ifs at h
    · exact readFrom_conflictItem (revisions_presentOnlyConflict _ _) h
    · split at h
      · cases h
      · exact readFrom_presentItem h (.inl rfl)
  · simp only at h
    split_ifs at h
    · exact readFrom_conflictItem (revisions_presentOnlyConflict _ _) h
    · exact readFrom_presentItem h (.inl (observedRevisions_merge hmerge))

/-- **An item keeps the heads of the record it was read from**, whatever the policy. -/
theorem readFrom_readItem (hheads : HeadsAre record heads)
    (h : readItem isoTime classes resource isMutable record = .ok item) : ReadFrom heads item := by
  cases hheads with
  | present stored revision => exact readFrom_presentItem h (.inr ⟨rfl, .inr rfl⟩)
  | deleted revision =>
    simp only [readItem, pure_eq_ok] at h
    subst h
    intro context hcontext
    cases isMutable with
    | true =>
      cases hcontext
      exact .inr ⟨rfl, .inr rfl⟩
    | false => cases hcontext
  | conflicted record =>
    rw [readItem] at h
    obtain ⟨-, -, heq⟩ | ⟨-, context, heq, hcontext⟩ | ⟨-, heq⟩ :=
      readConflict_cases isoTime classes resource record isMutable <;> rw [heq] at h
    · exact readFrom_conflictItem rfl h
    · cases h
      exact fun c hc => .inl (hcontext c hc)
    · exact readFrom_readUpdates h

theorem namesHeads_send {response : Response} {sent : List Mutation}
    (hheads : HeadsAre record heads)
    (hread : readItem isoTime classes resource isMutable record = .ok item)
    (hsend : send encode path mutationId isoTime classes resource response item action = .ok sent) :
    sent = [] ∧ offers resource item action = false ∨
      ∃ m, (sent = [m] ∨ sent = [m, m]) ∧ NamesHeads path mutationId heads m := by
  simp only [send, bind_eq_ok] at hsend
  obtain ⟨_ | m, hchange, hsend⟩ := hsend
  · simp only [pure_eq_ok] at hsend
    exact .inl ⟨hsend.symm, (sends_change (readFrom_readItem hheads hread) hchange).offered rfl⟩
  · refine .inr ⟨m, ?_, (sends_change (readFrom_readItem hheads hread) hchange).names m rfl⟩
    simp only at hsend
    split at hsend
    · simp only [pure_eq_ok] at hsend
      exact .inl hsend.symm
    · simp only [retryAfterUnavailableResponse, pure_eq_ok] at hsend
      split_ifs at hsend
      · exact .inr hsend.symm
      · exact .inl hsend.symm

/-! ### On the node -/

section

variable {P : Primitives} {toJson : List DeviceAuthorizationRecord → Bytes}
  {peerIdOf : Bytes → Option PeerId} {keys : Keys} {node node' start : LocalNode}
  {outside : Outside}

/-- The mutation changes the log of the device or the merged state. -/
def TakesEffect (P : Primitives) (outside : Outside) (m : Mutation) (node : LocalNode) : Prop :=
  (call P outside (.mutate m) node).2.localLog ≠ node.localLog ∨
  (call P outside (.mutate m) node).2.state ≠ node.state

/-- **A mutation takes effect only if it is carried out.** -/
theorem carriedOut_of_takesEffect (h : TakesEffect P outside m node) :
    ¬ Replayed node (.mutate m) ∧ ∃ reply node', call P outside
      (.mutate m) node = (.ok reply, node') := by
  unfold TakesEffect at h
  rw [call_apply] at h ⊢
  rcases hplan : plan P node (.mutate m) with e | reply | w
  · simp [hplan] at h
  · simp [hplan] at h
  simp only [hplan] at h ⊢
  rcases hcarry : carryOut P outside w node with ⟨e | a, node'⟩
  · obtain ⟨hlog, hstate⟩ := unchanged_of_carryOut_error hcarry
    simp [hcarry, replied, hlog, hstate] at h
  · refine ⟨?_, _, node', rfl⟩
    rcases plan_eq_inr hplan with ⟨_, _, _, hm, -⟩ | ⟨_, _, _, hm, -⟩ | ⟨_, r, hm, -, hnew, -⟩
    · cases hm
    · cases hm
    · cases hm
      show m.mutationId ∉ node.localRecordMutations
      rw [ExtTreeMap.mem_iff_isSome_getElem?, hnew]
      simp

theorem heads_of_takesEffect (hnames : NamesHeads path mutationId heads m)
    (h : TakesEffect P outside m node) :
    ∃ r st, m.request node = .ok r ∧ node.state = some st ∧ heads = (recordHeads st r.path).map
      (·.toHex) := by
  obtain ⟨hfresh, reply, node', hcall⟩ := carriedOut_of_takesEffect h
  obtain ⟨r, current, e, hswaps⟩ := mutation_swaps hfresh hcall
  obtain ⟨st, hstate, rfl⟩ := hswaps.current
  refine ⟨r, st, hswaps.request, hstate, ?_⟩
  rw [← hswaps.named]
  have hrequest := hswaps.request
  simp only [Mutation.request, recordRequest, hnames.heads, bind_eq_ok, pure_eq_ok] at hrequest
  obtain ⟨-, -, address, -, revisions, hrevisions, rfl⟩ := hrequest
  exact Except.ok.inj hrevisions

theorem not_takesEffect_again {later : LocalNode} (hdurable : Durable node)
    (h : TakesEffect P outside m node)
    (hlater : Becomes P toJson peerIdOf keys (call P outside (.mutate m) node).2 later true)
    (outside' : Outside) : ¬ TakesEffect P outside' m later := by
  obtain ⟨hfresh, reply, node', hcall⟩ := carriedOut_of_takesEffect h
  obtain ⟨r, _, _, hswaps⟩ := mutation_swaps hfresh hcall
  obtain ⟨v, hv, -⟩ := call_recorded hswaps.request hcall
  have hkept := (@tableKept_call P node outside (.mutate m)).durable hdurable
  rw [hcall] at hkept hlater
  have hheld := held_lives hkept hv hlater
  intro hagain
  obtain ⟨hfresh', -⟩ := carriedOut_of_takesEffect hagain
  refine hfresh' ?_
  show m.mutationId ∈ later.localRecordMutations
  rw [ExtTreeMap.mem_iff_isSome_getElem?, hheld]
  rfl

/-- **Changes are guarded by what was read.** Whatever is sent for an action on an item is one
mutation under one id, once or twice, that names the heads of the record the item was read from, and
nothing is sent only for an action that the item does not offer. On a node it takes effect only if
these are the heads of the record then, and after that never again, through all events and
restarts. -/
theorem changes_guarded {response : Response} {sent : List Mutation}
    (hheads : HeadsAre record heads)
    (hread : readItem isoTime classes resource isMutable record = .ok item)
    (hsend : send encode path mutationId isoTime classes resource response item action = .ok sent) :
    sent = [] ∧ offers resource item action = false ∨
      ∃ m, (sent = [m] ∨ sent = [m, m]) ∧ NamesHeads path mutationId heads m ∧
      ∀ (P : Primitives) toJson peerIdOf keys boot store start node outside,
        construct P keys boot store = (.ok (), start) →
        Becomes P toJson peerIdOf keys start node true → TakesEffect P outside m node →
        (∃ r st, m.request node = .ok r ∧ node.state = some st ∧
          heads = (recordHeads st r.path).map (·.toHex)) ∧
        ∀ later, Becomes P toJson peerIdOf keys (call P outside (.mutate m) node).2 later true →
          ∀ outside', ¬ TakesEffect P outside' m later := by
  obtain hnone | ⟨m, hsent, hnames⟩ := namesHeads_send hheads hread hsend
  · exact .inl hnone
  · refine .inr ⟨m, hsent, hnames, ?_⟩
    intro P toJson peerIdOf keys boot store start node outside hstart hnode heffect
    exact ⟨heads_of_takesEffect hnames heffect, fun later hlater =>
      not_takesEffect_again (durable_lives (durable_construct hstart) hnode) heffect hlater⟩

end

/-! ### A note is deleted -/

/-- The note of the phone, as the SDK reads it. -/
def readNote :
    BackendRecord := .present ⟨⟨1, shortNote.value, ordinary⟩,
    some (deletion "").observedRevision, none⟩

theorem takesEffect_deletion : TakesEffect SampleNode.primitives default
    (deletion "first") noted := by
  refine .inl fun h => ?_
  have hlength :
    (call SampleNode.primitives default (.mutate (deletion "first")) noted).2.localLog.length =
      noted.localLog.length := congrArg List.length h
  revert hlength
  decide +kernel

theorem note_deleted_once :
    ∃ item, readItem (fun _ => none) noteClasses noteResource true readNote = .ok item ∧
      send (fun _ => []) "/note" "first" (fun _ => none) noteClasses noteResource .unavailable
        item .delete =
        .ok [deletion "first", deletion "first"] ∧
      TakesEffect SampleNode.primitives default (deletion "first") noted ∧
      ∀ outside, ¬ TakesEffect SampleNode.primitives outside (deletion "first") deleted.2 := by
  obtain ⟨item, hread, hsend⟩ : ∃ item, readItem (fun _ => none) noteClasses noteResource true
    readNote = .ok item ∧
      send (fun _ => []) "/note" "first" (fun _ => none) noteClasses noteResource .unavailable
        item .delete =
        .ok [deletion "first", deletion "first"] := ⟨_, rfl, rfl⟩
  refine ⟨item, hread, hsend, takesEffect_deletion, ?_⟩
  obtain ⟨hnone, -⟩ | ⟨m, hsent, -, hguarded⟩ := changes_guarded (.present _ _) hread hsend
  · cases hnone
  obtain rfl : deletion "first" = m := by
    obtain hone | htwo := hsent
    · cases hone
    · exact (List.cons.inj htwo).1
  have hnode : Becomes SampleNode.primitives (fun _ => []) SampleNode.peerIdOf SampleNode.keys
      SampleNode.node noted true := becomes_run .start received
  exact (hguarded _ _ _ _ _ _ _ _ _ SampleNode.construct_eq hnode takesEffect_deletion).2 _ .start

end Jolt.Sdk.Mutations
