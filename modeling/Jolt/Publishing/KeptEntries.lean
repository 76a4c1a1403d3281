import Jolt.Publishing.FailedWrites
import Jolt.Publishing.TwoLogs
import Jolt.Lib.Runs

/-! # Entries of the update log that stay

The update log of the node's own identity grows by the entries that the node writes. It is also
replaced: a log that comes from the network is taken over if it verifies and its last sequence is
greater, whether or not it goes on from the node's own log. Where every log that is taken over for
the node's identity goes on from its own, an entry that was written stays, and the path stays bound
until a later entry for it (`published_entry_stays`). A longer log of another holder of the key
drops it (`fork_drops_publish`). -/

namespace Jolt.Publishing.KeptEntries

open Std Lib.Runs Jolt.Core Jolt.Core.Types IdentityAuthority UpdateLog List
open Network.Node hiding Event step run construct
open Writing LocalNode Outcomes Requests Publishing.Alignment Publishing.Runs
open FailedWrites (updateLog_logged)
open TwoLogs hiding bind
open SampleNode (primitives)

variable {P : Primitives} {toJson : List DeviceAuthorizationRecord → Bytes}
  {peerIdOf : Bytes → Option PeerId} {node node' : LocalNode} {outside : Outside}

/-! ### The log grows -/

structure LogExtends (a b : LocalNode) : Prop where
  identity : b.identity = a.identity
  log : a.updateLog.getD [] <+: b.updateLog.getD []

theorem LogExtends.trans {a b c : LocalNode} (h : LogExtends a b) (h' : LogExtends b c) :
    LogExtends a c :=
  ⟨h'.identity.trans h.identity, h.log.trans h'.log⟩

theorem logExtends_of_eq {a b : LocalNode} (hid : b.identity = a.identity)
    (hlogs : b.updateLogs = a.updateLogs) : LogExtends a b := by
  refine ⟨hid, ?_⟩
  unfold updateLog
  rw [hid, hlogs]

theorem localwise_logExtends : Localwise P LogExtends where
  refl _ := logExtends_of_eq rfl rfl
  trans := .trans
  content _ _ _ := logExtends_of_eq rfl rfl
  entry node _ entry _ := ⟨rfl, by rw [updateLog_withEntry]; exact prefix_append _ _⟩
  logged node _ entry _ := ⟨rfl, by rw [updateLog_logged]; exact prefix_append _ _⟩
  publish outside path operation mutation node :=
    logExtends_of_eq (sameSelf_publish outside path operation mutation node).identity
      (updateLogs_publish outside path operation mutation node)
  takeOver ambient identity records := by
    intro node
    rcases takeOver_cases (P := P) node ambient identity records with
      h | ⟨network, hid, -, -, h | h⟩ <;> rw [h]
    · exact logExtends_of_eq rfl rfl
    · exact logExtends_of_eq hid rfl
    · exact logExtends_of_eq hid rfl
  sync node ambient records logs := by
    obtain ⟨network', hid, -, -, h | ⟨merged, -, h⟩⟩ :=
      storeAndPersist_cases (P := P) node ambient records logs <;> rw [h]
    · exact logExtends_of_eq hid rfl
    · exact logExtends_of_eq hid rfl
  network _ _ hid _ _ := logExtends_of_eq hid rfl

/-- A log that comes in for the node's own identity and would be taken over goes on from the node's
log. -/
def ReceivedExtends (P : Primitives) (node : LocalNode) : Event → Prop
  | .updateLog identity entries => identity = node.identity → Takes P node identity entries →
      node.updateLog.getD [] <+: entries
  | _ => True

theorem logExtends_insert {identity : IdentityId} {entries : List UpdateLogEntry}
    (h : identity = node.identity → node.updateLog.getD [] <+: entries) :
    LogExtends node (node.insertUpdateLog identity entries) := by
  refine ⟨rfl, ?_⟩
  show node.updateLog.getD [] <+: (Function.update node.updateLogs identity (some entries)
    node.identity).getD []
  by_cases hid : identity = node.identity
  · rw [hid, Function.update_self]
    exact h hid
  · rw [Function.update_of_ne (Ne.symm hid)]
    exact prefix_refl _

/-- **In a run in which every log taken over goes on from the node's own, its log only grows.** -/
theorem logExtends_run {events : List Event}
    (h : Along (step P toJson peerIdOf) (ReceivedExtends P) node events) :
    LogExtends node (run P toJson peerIdOf node events) := by
  refine h.invariant (I := LogExtends node) (fun mid event hmid hevent => hmid.trans ?_)
    (logExtends_of_eq rfl rfl)
  refine localwise_logExtends.step mid event fun identity entries heq htakes => ?_
  subst heq
  exact logExtends_insert fun hid => hevent hid htakes

/-! ### What stays bound -/

def Touches (path : String) (entry : UpdateLogEntry) : Prop :=
  match entry.body.action with
  | .setPath p _ => p = path
  | .removePath p => p = path
  | _ => False

variable {path : String}

theorem bind_of_not_touches {entry : UpdateLogEntry} (h : ¬ Touches path entry)
    (before : Option ContentId) : TwoLogs.bind entry.body.action path before = before := by
  unfold Touches at h
  unfold TwoLogs.bind
  split at h <;> simp_all

theorem boundAt_of_later {later : List UpdateLogEntry}
    (hlog : node'.updateLog.getD [] = node.updateLog.getD [] ++ later) :
    boundAt node' path = boundAt node path ∨ ∃ entry ∈ later, Touches path entry := by
  by_cases htouched : ∃ entry ∈ later, Touches path entry
  · exact .inr htouched
  push Not at htouched
  refine .inl ?_
  rw [boundAt_eq_foldl, boundAt_eq_foldl, hlog, foldl_append]
  generalize (node.updateLog.getD []).foldl _ (none : Option ContentId) = bound
  clear hlog
  induction later generalizing bound with
  | nil => rfl
  | cons entry later ih =>
    rw [foldl_cons, bind_of_not_touches (htouched entry mem_cons_self)]
    exact ih (fun e he => htouched e (mem_cons_of_mem entry he)) bound

theorem entry_of_publish {data : Bytes} {reply : Reply}
    (h : call P outside (.publish data path) node = (.ok reply, node')) :
    ∃ address entry, node.addressOf path = .ok address ∧ entry.body.action = .setPath address.path
      (.fromBytes P data) ∧
      node'.updateLog.getD [] = node.updateLog.getD [] ++ [entry] := by
  obtain ⟨w, sequence, revision, hplan, hcarry, rfl⟩ :=
    call_eq_ok_of_fresh (show ¬ Replayed node (.publish data path) from id) h
  rcases plan_eq_inr hplan with ⟨_, _, address, hrequest, haddress, rfl⟩ | ⟨_, _, _, hrequest,
    -⟩ | ⟨_, _, hrequest, -⟩
  · cases hrequest
    rcases updateLog_carryOut hcarry with ⟨hnone, -⟩ | ⟨action, entry, haction, hentry, hlog⟩
    · cases hnone
    · cases haction
      exact ⟨address, entry, haddress, hentry, hlog⟩
  · cases hrequest
  · cases hrequest

/-- **A publish that was acknowledged is not lost**: in every run from it in which the logs taken
over for the node's identity go on from its own, the entry stays in the log, which is only extended,
and the path stays bound to the content unless a later entry sets or removes it. -/
theorem published_entry_stays {data : Bytes} {path : String} {reply : Reply} {events : List Event}
    (h : call P outside (.publish data path) node = (.ok reply, node'))
    (hevents : Along (step P toJson peerIdOf) (ReceivedExtends P) node' events) :
    ∃ address entry later, node.addressOf path = .ok address ∧
      entry.body.action = .setPath address.path (.fromBytes P data) ∧
      node'.updateLog.getD [] = node.updateLog.getD [] ++ [entry] ∧
      (run P toJson peerIdOf node' events).updateLog.getD [] = node'.updateLog.getD [] ++ later ∧
      (boundAt (run P toJson peerIdOf node' events) address.path = some (.fromBytes P data) ∨
        ∃ e ∈ later, Touches address.path e) := by
  obtain ⟨address, entry, haddress, haction, hentry⟩ := entry_of_publish h
  obtain ⟨later, hlater⟩ := (logExtends_run hevents).log
  refine ⟨address, entry, later, haddress, haction, hentry, hlater.symm, ?_⟩
  have hbound : boundAt node' address.path = some (.fromBytes P data) := by
    rw [boundAt_concat address.path rfl hentry, haction]
    simp [TwoLogs.bind]
  rw [← hbound]
  exact boundAt_of_later hlater.symm

/-! ### A log of another holder of the key -/

def afterPublish (data : Bytes) (path : String) (node : LocalNode) : LocalNode :=
  (call primitives default (.publish data path) node).2

/-- Two other publishes, as another installation with the same key makes them. -/
def fork : List UpdateLogEntry :=
    (afterPublish [2] "/b" (afterPublish [2] "/a" SampleNode.node)).updateLog.getD []

def continued : List UpdateLogEntry :=
  (afterPublish [2] "/a" (afterPublish [1] "/note" SampleNode.node)).updateLog.getD []

theorem publish_note_ok : (call primitives default (.publish [1] "/note") SampleNode.node).1.isOk =
    true := by
  decide +kernel

/-- The node after the publish of a note, when a log has come in. -/
def afterReceived (entries : List UpdateLogEntry) : LocalNode :=
  run primitives (fun _ => []) SampleNode.peerIdOf (afterPublish [1] "/note" SampleNode.node)
    [.updateLog SampleNode.node.identity entries]

/-- The note stays when a log comes in that goes on from the node's own. -/
theorem note_stays : ∃ address entry later, SampleNode.node.addressOf "/note" = .ok address ∧
      entry.body.action = .setPath address.path (.fromBytes primitives [1]) ∧
      (afterPublish [1] "/note" SampleNode.node).updateLog.getD [] = SampleNode.node.updateLog.getD
      [] ++ [entry] ∧
      (afterReceived continued).updateLog.getD [] =
        (afterPublish [1] "/note" SampleNode.node).updateLog.getD [] ++ later ∧
      (boundAt (afterReceived continued) address.path = some (.fromBytes primitives [1]) ∨
        ∃ e ∈ later, Touches address.path e) := by
  have hgoesOn : (afterPublish [1] "/note" SampleNode.node).updateLog.getD [] <+: continued := by
    decide +kernel
  have hevents : Along (step primitives (fun _ => []) SampleNode.peerIdOf)
      (ReceivedExtends primitives) (afterPublish [1] "/note" SampleNode.node)
      [.updateLog SampleNode.node.identity continued] :=
    ⟨fun _ _ => hgoesOn, trivial⟩
  obtain ⟨reply, node', hcall⟩ := Jolt.Lib.Calls.Call.exists_of_isOk publish_note_ok
  have hnode' : node' = afterPublish [1] "/note" SampleNode.node := (congrArg Prod.snd hcall).symm
  unfold afterReceived
  generalize afterPublish [1] "/note" SampleNode.node = after at *
  subst hnode'
  exact published_entry_stays hcall hevents

/-- A longer log of another holder of the key takes the place of the node's own, and the note is
gone. -/
theorem fork_drops_publish :
    (call primitives default (.publish [1] "/note") SampleNode.node).1.isOk = true ∧
      boundAt (afterPublish [1] "/note" SampleNode.node) "/note" = some (SampleNode.content 1) ∧
      (afterReceived fork).updateLog = some fork ∧
      ¬ (afterPublish [1] "/note" SampleNode.node).updateLog.getD
        [] <+: (afterReceived fork).updateLog.getD [] ∧
      boundAt (afterReceived fork) "/note" = none := by
  decide +kernel

end Jolt.Publishing.KeptEntries
