import Jolt.Lib.Runs
import Jolt.Sdk.Mutations

/-! # Creating a document

`getOrCreate` of `data.ts` reads a document and, if it is not there, publishes the input at its
path. Reading and publishing are two calls of the node, and what is published names no revisions: it
supersedes whatever the record has when it is carried out.

So nothing is overwritten as long as the document that is read is not in a conflict that its policy
leaves to the app, and nothing else creates the record between the two calls
(`creates_only_missing`). An item in such a conflict is handled like a missing one. -/

namespace Jolt.Sdk.GetOrCreate

open Function Lib Checks Lib.Runs Values Schemas Sdk.Merge Items ConflictPolicy Mutations
  ConcurrentUpdates Core.Types Core.IdentityAuthority
open Network.Node (PeerId)
open Publishing Writing LocalNode Requests CompareAndSwap
open SampleNode (offer primitives withPhone)

variable (contents : String → ContentRead)

/-! ### Reading -/

/-- What the content of a head reads as: a value with its version, a content that cannot be fetched,
or a text that is no such value. -/
inductive ContentRead where
  | stored (version : ℕ) (value : Value)
  | unavailable
  | invalid (error : DataError)

/-- Whether the content of a head cannot be fetched. A deleted head has none. -/
def isUnavailable : LocalRecordHead → Bool
  | .deleted _ => false
  | .present info =>
    match contents info.contentId with
    | .unavailable => true
    | _ => false

def connectedBackendHead : LocalRecordHead → Except DataError BackendAlternativeRecord
  | .deleted revision => .ok (.deleted revision)
  | .present info =>
    match contents info.contentId with
    | .stored version value => .ok (.present ⟨version, value, info.revision⟩)
    -- a record with such a head is unavailable, so the head is not looked at
    | .unavailable => .error .conflict
    | .invalid error => .error error

/-- `read` of the connected backend, for the identity of the node. The base of a conflict is
computed by the node with the alternatives. -/
def backendRead (base : Option LocalRecordHead) : LocalRecordState → Except DataError BackendRecord
  | .missing _ => .ok .missing
  | .deleted _ revision => .ok (.deleted (some revision))
  | .present info =>
    match contents info.contentId with
    | .stored version value => .ok (.present ⟨⟨version, value, ordinary⟩, some info.revision, none⟩)
    | .unavailable => .ok .unavailable
    | .invalid error => .error error
  | .conflicted _ alternatives =>
    if (alternatives ++ base.toList).any (isUnavailable contents) then .ok .unavailable
    else do
      let heads ← alternatives.mapM (connectedBackendHead contents)
      let bases ← base.toList.mapM (connectedBackendHead contents)
      return .conflicted ⟨heads, alternatives.map (·.revision), bases.head?⟩

/-! ### Creating -/

inductive CreationError where
  | data (error : DataError)
  | unavailable
  | deleted

section

variable (isoTime : String → Option ℤ) (classes : SchemaClasses)

/-- `getOrCreate` up to its write: what is going to be written, or nothing if the item is there.
Missing and conflicted items are not told apart. -/
def getOrCreate (resource : ResourceDefinition) (input : Value) (record : BackendRecord) :
    Except CreationError (Option StoredSchemaValue) := do
  match ← (readItem isoTime classes resource true record).mapError .data with
  | .present .. => return none
  | .unavailable => .error .unavailable
  | .deleted _ => .error .deleted
  | .missing | .conflicted .. =>
    return some (← (currentStoredValue isoTime classes resource input).mapError .data)

end

/-- A document with its path, as `App.create` binds it. -/
structure Document where
  path : String
  resource : ResourceDefinition

/-- A call that has read the document and goes on to write. -/
structure Creation where
  path : String
  stored : StoredSchemaValue

/-- A node, and the calls that wait between their read and their write. -/
structure State where
  node : LocalNode
  waiting : ℕ → Option Creation

/-- What happens on the node besides, among it the writes of others; a call reads; a call writes. -/
inductive Event where
  | node (event : Runs.Event)
  | read (id : ℕ) (document : Document) (input : Value) (contents : String → ContentRead)
      (base : Option LocalRecordHead)
  | write (id : ℕ) (outside : Outside)

section

variable (P : Primitives) (toJson : List DeviceAuthorizationRecord → Bytes)
  (peerIdOf : Bytes → Option PeerId) (isoTime : String → Option ℤ) (classes : SchemaClasses)
  (encode : StoredSchemaValue → Bytes) (s : State)

def decided (node : LocalNode) (document : Document) (input : Value)
    (contents : String → ContentRead) (base : Option LocalRecordHead) : Option StoredSchemaValue :=
  match backendRead contents base (node.inspectLocalRecord P document.path) with
  | .error _ => none
  | .ok record =>
    match getOrCreate isoTime classes document.resource input record with
    | .ok stored => stored
    | .error _ => none

def step (s : State) : Event → State
  | .node event => { s with node := Runs.step P toJson peerIdOf s.node event }
  | .read id document input contents base =>
    match s.waiting id, decided P isoTime classes s.node document input contents base with
    | none, some stored => { s with waiting := update s.waiting id (some ⟨document.path, stored⟩) }
    | _, _ => s
  | .write id outside =>
    match s.waiting id with
    | none => s
    | some creation =>
      { node := (call P outside (.publish (encode creation.stored) creation.path) s.node).2
        waiting := update s.waiting id none }

def run (events : List Event) :
    State := events.foldl (step P toJson peerIdOf isoTime classes encode) s

def NoRecord (node : LocalNode) (path : String) : Prop :=
  node.inspectLocalRecord P path = .missing path

instance (node : LocalNode) (path : String) : Decidable (NoRecord P node path) := inferInstanceAs
    (Decidable (_ = _))

/-- **Nothing is overwritten**: a call writes only if there is no record at that moment, and a call
that reads a document of which there is a record changes nothing, now or later. -/
def OverwritesNothing : Event → Prop
  | .node _ => True
  | .read id document input contents base => ¬ NoRecord P s.node document.path →
      step P toJson peerIdOf isoTime classes encode s (.read id document input contents base) = s
  | .write id _ => ∀ creation ∈ s.waiting id, NoRecord P s.node creation.path

/-- The document that is read is in no conflict that its policy leaves to the app. -/
def ReadsResolved : Event → Prop
  | .read _ document _ contents base => ∀ record,
      backendRead contents base (s.node.inspectLocalRecord P document.path) = .ok
        (.conflicted record) →
      ¬ ManualConflict isoTime classes document.resource record
  | _ => True

/-- No event gives a record to the path of a call that goes on waiting. -/
def CreatesNoOther (event : Event) : Prop :=
  ∀ id creation, s.waiting id = some creation →
    (step P toJson peerIdOf isoTime classes encode s event).waiting id = some creation →
    NoRecord P s.node creation.path →
    NoRecord P (step P toJson peerIdOf isoTime classes encode s event).node creation.path

end

variable {P : Primitives} {toJson : List DeviceAuthorizationRecord → Bytes}
  {peerIdOf : Bytes → Option PeerId} {isoTime : String → Option ℤ} {classes : SchemaClasses}
  {encode : StoredSchemaValue → Bytes} {resource : ResourceDefinition} {document : Document}
  {input : Value} {contents : String → ContentRead} {base : Option LocalRecordHead}
  {node : LocalNode} {s : State} {stored : StoredSchemaValue}

/-! ### What is read -/

/-- A record with conflicting heads is read as a deleted or a present item, unless its policy leaves
the conflict to the app. -/
theorem item_of_conflict {record : BackendConflictRecord} {item : Item} {isMutable : Bool}
    (h : readItem isoTime classes resource isMutable (.conflicted record) = .ok item) :
    ManualConflict isoTime classes resource record ∨ (∃ context, item = .deleted context) ∨
      ∃ migrated value revision observed, item = .present migrated value revision observed := by
  rw [readItem] at h
  rcases readConflict_cases isoTime classes resource record isMutable with
    ⟨hmixed, hmanual, -⟩ | ⟨-, context, heq, -⟩ | ⟨-, heq⟩
  · exact .inl (.inl ⟨hmixed, hmanual⟩)
  · rw [heq] at h
    cases h
    exact .inr (.inl ⟨context, rfl⟩)
  · rw [heq] at h
    rcases readUpdates_cases h with
      ⟨-, hconflict, hmanual⟩ | ⟨_, _, _, -, -, hshows⟩ | ⟨-, _, -, hshows⟩
    · exact .inl (.inr ⟨hconflict, hmanual⟩)
    · obtain ⟨migrated, value, revision, observed, -, hitem⟩ := hshows
      exact .inr (.inr ⟨migrated, value, revision, observed, hitem⟩)
    · obtain ⟨migrated, value, revision, observed, -, hitem⟩ := hshows
      exact .inr (.inr ⟨migrated, value, revision, observed, hitem⟩)

/-- **What is going to be written**: nothing, unless the record is missing or its conflict is left
to the app. -/
theorem getOrCreate_eq_some {record : BackendRecord}
    (h : getOrCreate isoTime classes resource input record = .ok (some stored)) :
    record = .missing ∨
      ∃ conflict, record = .conflicted conflict ∧
        ManualConflict isoTime classes resource conflict := by
  unfold getOrCreate at h
  rw [bind_eq_ok] at h
  obtain ⟨item, hitem, hwrites⟩ := h
  have hread : readItem isoTime classes resource true record = .ok item := by
    cases hresult : readItem isoTime classes resource true record with
    | error e =>
      rw [hresult] at hitem
      cases hitem
    | ok item' =>
      rw [hresult] at hitem
      cases hitem
      rfl
  cases record with
  | missing => exact .inl rfl
  | unavailable =>
    cases hread
    cases hwrites
  | deleted revision =>
    cases hread
    cases hwrites
  | present record =>
    obtain ⟨_, _, _, _, -, rfl⟩ := presentItem_eq_ok hread
    cases hwrites
  | conflicted conflict =>
    rcases item_of_conflict hread with hmanual | ⟨_, rfl⟩ | ⟨_, _, _, _, rfl⟩
    · exact .inr ⟨conflict, rfl, hmanual⟩
    · cases hwrites
    · cases hwrites

theorem noRecord_of_backendRead {path : String}
    (h : backendRead contents base (node.inspectLocalRecord P path) = .ok .missing) :
    NoRecord P node path := by
  unfold NoRecord
  have hpath : ∀ path', node.inspectLocalRecord P path = .missing path' → path' = path := by
    intro path' hmissing
    unfold LocalNode.inspectLocalRecord at hmissing
    split at hmissing
    · cases hmissing
      rfl
    · split at hmissing
      · cases hmissing
        rfl
      · split at hmissing
        · cases hmissing
        · split at hmissing <;> cases hmissing
  cases hinspect : node.inspectLocalRecord P path with
  | missing path' => rw [hpath path' hinspect]
  | deleted path' revision =>
    rw [hinspect] at h
    cases h
  | present info =>
    rw [hinspect, backendRead] at h
    split at h <;> cases h
  | conflicted path' alternatives =>
    rw [hinspect, backendRead] at h
    split_ifs at h
    · cases h
    · simp only [bind_eq_ok, pure_eq_ok] at h
      obtain ⟨_, -, _, -, h⟩ := h
      cases h

/-- **A call that reads a resolved document** goes on to write only if there is no record. -/
theorem noRecord_of_decided (hresolved : ∀ record,
      backendRead contents base (node.inspectLocalRecord P document.path) = .ok
        (.conflicted record) →
      ¬ ManualConflict isoTime classes document.resource record)
    (h : decided P isoTime classes node document input contents base = some stored) :
    NoRecord P node document.path := by
  unfold decided at h
  cases hread : backendRead contents base (node.inspectLocalRecord P document.path) with
  | error e =>
    rw [hread] at h
    cases h
  | ok record =>
    simp only [hread] at h
    cases hcreate : getOrCreate isoTime classes document.resource input record with
    | error e =>
      rw [hcreate] at h
      cases h
    | ok decision =>
      simp only [hcreate] at h
      subst h
      rcases getOrCreate_eq_some hcreate with rfl | ⟨conflict, rfl, hmanual⟩
      · exact noRecord_of_backendRead hread
      · exact absurd hmanual (hresolved conflict hread)

/-! ### Runs -/

/-- **The invariant**: no call waits to write over a record. -/
def WaitsForNone (P : Primitives) (s : State) : Prop :=
  ∀ id creation, s.waiting id = some creation → NoRecord P s.node creation.path

section

variable (s : State) (event : Event) (h : WaitsForNone P s)
  (hcond : ReadsResolved P isoTime classes s event ∧
    CreatesNoOther P toJson peerIdOf isoTime classes encode s event)
include h hcond

theorem waitsForNone_step :
    WaitsForNone P (step P toJson peerIdOf isoTime classes encode s event) := by
  obtain ⟨hresolved, hother⟩ := hcond
  intro id creation hwaiting
  by_cases hbefore : s.waiting id = some creation
  · exact hother id creation hbefore hwaiting (h id creation hbefore)
  · -- only a read adds a call
    cases event with
    | node event => exact absurd hwaiting hbefore
    | read id' document input contents base =>
      unfold step at hwaiting ⊢
      dsimp only at hwaiting ⊢
      split at hwaiting
      · next stored _ hdecided =>
        dsimp only at hwaiting ⊢
        by_cases hid : id = id'
        · subst hid
          rw [update_self] at hwaiting
          cases hwaiting
          exact noRecord_of_decided hresolved hdecided
        · rw [update_of_ne hid] at hwaiting
          exact absurd hwaiting hbefore
      · exact absurd hwaiting hbefore
    | write id' outside =>
      unfold step at hwaiting
      dsimp only at hwaiting
      split at hwaiting
      · exact absurd hwaiting hbefore
      · dsimp only at hwaiting
        by_cases hid : id = id'
        · subst hid
          rw [update_self] at hwaiting
          cases hwaiting
        · rw [update_of_ne hid] at hwaiting
          exact absurd hwaiting hbefore

theorem overwritesNothing_of_waitsForNone :
    OverwritesNothing P toJson peerIdOf isoTime classes encode s event := by
  cases event with
  | node event => trivial
  | read id document input contents base =>
    intro hrecord
    unfold step
    dsimp only
    split
    · next stored _ hdecided => exact absurd (noRecord_of_decided hcond.1 hdecided) hrecord
    · rfl
  | write id outside => exact fun creation hwaiting => h id creation hwaiting

end

/-- **`getOrCreate` overwrites nothing**, in every run in which the documents that are read are in
no conflict left to the app and nothing else creates a record that a call is about to create. -/
theorem creates_only_missing (node : LocalNode) (events : List Event)
    (h : Along (step P toJson peerIdOf isoTime classes encode)
      (fun s event => ReadsResolved P isoTime classes s event ∧
        CreatesNoOther P toJson peerIdOf isoTime classes encode s event) ⟨node, fun _ =>
          none⟩ events) :
    Along (step P toJson peerIdOf isoTime classes encode)
      (OverwritesNothing P toJson peerIdOf isoTime classes encode) ⟨node, fun _ => none⟩ events :=
  h.of_invariant (I := WaitsForNone P) (fun s event => waitsForNone_step s event)
    (fun s event => overwritesNothing_of_waitsForNone s event) nofun

theorem readsResolved_of_noRecord {id : ℕ} (h : NoRecord P s.node document.path) :
    ReadsResolved P isoTime classes s (.read id document input contents base) := by
  intro record hread
  rw [NoRecord] at h
  rw [h] at hread
  cases hread

/-- The call that has read is the only one that waits. -/
theorem waiting_read {node : LocalNode} {id other : ℕ} {creation : Creation}
    (h : (step P toJson peerIdOf isoTime classes encode ⟨node, fun _ => none⟩
      (.read id document input contents base)).waiting other = some creation) :
    other = id ∧ creation.path = document.path := by
  unfold step at h
  dsimp only at h
  split at h
  · dsimp only at h
    by_cases hother : other = id
    · rw [hother, update_self] at h
      cases h
      exact ⟨hother, rfl⟩
    · rw [update_of_ne hother] at h
      cases h
  · cases h

/-- A call between whose read and write something happens on the node that does not create its
record. -/
theorem along_read_write (node : LocalNode) (id : ℕ) (outside : Outside) (event : Runs.Event)
    (hresolved : ReadsResolved P isoTime classes ⟨node, fun _ => none⟩
      (.read id document input contents base))
    (hnone : NoRecord P (Runs.step P toJson peerIdOf node event) document.path) :
    Along (step P toJson peerIdOf isoTime classes encode) (fun s event =>
        ReadsResolved P isoTime classes s event ∧
        CreatesNoOther P toJson peerIdOf isoTime classes encode s event) ⟨node, fun _ => none⟩
      [.read id document input contents base, .node event, .write id outside] := by
  refine ⟨⟨hresolved, nofun⟩, ⟨trivial, fun other creation hwaiting _ _ => ?_⟩,
    ⟨trivial, fun other creation hwaiting hstill => ?_⟩, trivial⟩
  · rw [(waiting_read hwaiting).2]
    have hnode : (step P toJson peerIdOf isoTime classes encode ⟨node, fun _ => none⟩
        (.read id document input contents base)).node = node := by
      unfold step
      dsimp only
      split <;> rfl
    show NoRecord P (Runs.step P toJson peerIdOf (State.node _) event) document.path
    rw [hnode]
    exact hnone
  obtain ⟨rfl, -⟩ := waiting_read hwaiting
  generalize step P toJson peerIdOf isoTime classes encode (step P toJson peerIdOf isoTime classes
    encode ⟨node, fun _ => none⟩ (.read other document input contents base)) (.node event) = s
    at hwaiting hstill
  unfold step at hstill
  dsimp only at hstill
  rw [hwaiting] at hstill
  dsimp only at hstill
  rw [update_self] at hstill
  cases hstill

/-! ### Notes that are created and overwritten -/

/-- The path of the note, with conflicts that are left to the app. -/
def noteDocument : Document := ⟨"/note", ⟨"Note", ⟨true, true, true⟩, ⟨.manual, .manual⟩⟩⟩

def readsNote (id : ℕ) : Event := .read id noteDocument shortNote.value
    (fun _ => .stored 1 shortNote.value) none

def phoneBrings : Event := .node (.offer default "phone" (offer withPhone [[phoneNote]]))

def laptopWrites : Event := .node (.write default (.publish [2] "/note"))

def start : State := ⟨SampleNode.node, fun _ => none⟩

def after (events : List Event) : State :=
  run primitives (fun _ => []) SampleNode.peerIdOf (fun _ => none) noteClasses
    (fun _ => [1]) start events

def noteContents (s : State) : List String :=
  match s.node.inspectLocalRecord primitives "/note" with
  | .missing _ => []
  | .deleted _ _ => []
  | .present info => [info.contentId]
  | .conflicted _ alternatives => alternatives.map fun
    | .deleted _ => ""
    | .present info => info.contentId

/-- Another app writes another note. -/
def otherWrites : Event := .node (.write default (.publish [2] "/other"))

theorem missing_start : NoRecord primitives start.node noteDocument.path ∧
    NoRecord primitives (Runs.step primitives (fun _ => []) SampleNode.peerIdOf SampleNode.node
      (.write default (.publish [2] "/other"))) noteDocument.path ∧
    noteContents (after [readsNote 0, otherWrites, .write 0 default]) = ["one"] := by decide +kernel

/-- A missing note is created. -/
theorem creates_missing_note : noteContents (after [readsNote 0, otherWrites, .write 0 default]) =
    ["one"] ∧
      Along (step primitives (fun _ => []) SampleNode.peerIdOf (fun _ => none) noteClasses fun _ =>
        [1])
        (OverwritesNothing primitives (fun _ => []) SampleNode.peerIdOf (fun _ => none) noteClasses
          fun _ => [1]) start [readsNote 0, otherWrites, .write 0 default] := by
  obtain ⟨hmissing, hother, hcreated⟩ := missing_start
  refine ⟨hcreated, creates_only_missing SampleNode.node _ ?_⟩
  exact along_read_write SampleNode.node 0 default (.write default (.publish [2] "/other"))
    (readsResolved_of_noRecord hmissing) hother

theorem noRecord_of_along {events : List Event}
    (h : Along (step primitives (fun _ => []) SampleNode.peerIdOf (fun _ =>
      none) noteClasses fun _ => [1])
      (OverwritesNothing primitives (fun _ => []) SampleNode.peerIdOf (fun _ => none) noteClasses
        fun _ => [1]) start (events ++ [.write 0 default])) :
    ∀ creation ∈ (after events).waiting 0, NoRecord primitives (after events).node creation.path :=
  (along_append.mp h).2.1

/-- **Notes are overwritten**: one that the phone brings between the read and the write, and one in
a conflict of two devices. Both heads of the latter are gone. -/
theorem notes_are_overwritten : (noteContents (after [readsNote 0, phoneBrings]) = ["two"] ∧
      noteContents (after [readsNote 0, phoneBrings, .write 0 default]) = ["one"]) ∧
    (noteContents (after [laptopWrites, phoneBrings, readsNote 0]) = ["two", "two"] ∧
      noteContents (after [laptopWrites, phoneBrings, readsNote 0, .write 0 default]) = ["one"]) ∧
    ∀ events ∈ [[readsNote 0, phoneBrings], [laptopWrites, phoneBrings, readsNote 0]],
      ¬ Along (step primitives (fun _ => []) SampleNode.peerIdOf (fun _ =>
        none) noteClasses fun _ => [1])
        (OverwritesNothing primitives (fun _ => []) SampleNode.peerIdOf (fun _ => none) noteClasses
          fun _ => [1]) start (events ++ [.write 0 default]) := by
  have hruns : (noteContents (after [readsNote 0, phoneBrings]) = ["two"] ∧
        noteContents (after [readsNote 0, phoneBrings, .write 0 default]) = ["one"]) ∧
      (noteContents (after [laptopWrites, phoneBrings, readsNote 0]) = ["two", "two"] ∧
        noteContents (after [laptopWrites, phoneBrings, readsNote 0, .write 0 default]) = ["one"]) ∧
      ∀ events ∈ [[readsNote 0, phoneBrings], [laptopWrites, phoneBrings, readsNote 0]],
        ((after events).waiting 0).map (·.path) = some "/note" ∧
          ¬ NoRecord primitives (after events).node "/note" := by
    decide +kernel
  obtain ⟨hrace, hconflict, hover⟩ := hruns
  refine ⟨hrace, hconflict, fun events hevents halong => ?_⟩
  obtain ⟨hwaiting, hrecord⟩ := hover events hevents
  obtain ⟨creation, hcreation, hpath⟩ := Option.map_eq_some_iff.mp hwaiting
  exact hrecord (hpath ▸ noRecord_of_along halong creation hcreation)

end Jolt.Sdk.GetOrCreate
