import GovernanceCache.Desk
import GovernanceCache.Proofs.Chronicle
import GovernanceCache.Proofs.Flights
import GovernanceCache.Proofs.ReplicaPulls

/-!
# Sessions of a desk

A session is any sequence of steps around one replica: callers enter, are polled and dropped, the
store answers the pulls of leaders, the replica is cleared and closed, and whatever else may happen
to its clock, its statistics, its subscribers and the other keys of its flights. A log tells what
happened, the newest first.

1. `Session.act` runs the steps of the desk itself, and puts them on record.
2. A poll closes the pull of a leader or shares a result; then the caller ends or begins again. A
   refresh that begins leads a call, follows one or is refused. One equation for each of these.
-/

namespace GovernanceCache

variable {R ι : Type}

namespace Desk

/-- The call for which the caller waits. -/
def Caller.call (c : Caller R) : Nat :=
  match c.stage with
  | .pulling call _ _ => call
  | .following call => call

/-- A caller that waits, and when it came. -/
structure Visit (R : Type) where
  /-- The number of occurrences before it came. -/
  arrival : Nat
  /-- The caller as it came. -/
  client : Client
  /-- The caller as it waits. -/
  caller : Caller R

/-- The call that the visit leads under the key. -/
def Visit.lead? (key : String) (v : Visit R) : Option (String × Nat) :=
  match v.caller.stage with
  | .pulling call _ _ => some (key, call)
  | .following _ => none

/-- The store has not yet answered the pull of the visit. -/
def Visit.isOpen (v : Visit R) : Bool :=
  match v.caller.stage with
  | .pulling .. => v.caller.answer.isNone
  | .following _ => false

theorem Visit.of_isOpen {v : Visit R} (h : v.isOpen = true) :
    ∃ call ticket, v.caller.stage = .pulling call ticket () ∧ v.caller.answer = none := by
  unfold Visit.isOpen at h
  split at h
  · rename_i call ticket _ hv
    exact ⟨call, ticket, hv, Option.isNone_iff_eq_none.mp h⟩
  · cases h

/-- What happened in a session. -/
inductive Occurrence (R ι : Type) where
  | entered (client : Client)
  /-- A leader asked the store, seeing the replica as it was. -/
  | opened (call : Nat) (ticket : Ticket) (seen : Replica R ι)
  /-- The store answered the pull of a call. -/
  | answered (call : Nat) (answer : Answer R)
  /-- A leader merged its batch into the replica as it was. -/
  | merged (call : Nat) (batch : List R) (into : Replica R ι)
  | cleared
  /-- A caller ended that had come at the arrival. -/
  | ended (arrival : Nat) (client : Client) (refreshed : Refreshed)

/-- What the users of other keys do to the flights. Those who lead are counted, the latest first. -/
inductive Elsewhere where
  | enter (key : String)
  | finish (i : Nat) (result : Outcome)
  | abandon (i : Nat)
  | forget (key : String)

/-- A step of a session. Visits are counted in the order of their entry. -/
inductive Action (R : Type) where
  | enter (client : Client)
  /-- The store answers the pull of a visit that is open to it. -/
  | answer (i : Nat) (answer : Answer R)
  | poll (i : Nat)
  | drop (i : Nat)
  | clear
  | close
  | tick (now : Instant)
  /-- Readers and subscribers leave the statistics and the feed behind as they please. -/
  | aside (tally : Tally) (feed : Feed (Change R))
  | elsewhere (step : Elsewhere)

/-- A replica with the callers that refresh it, and what happened so far. -/
structure Session (R ι : Type) where
  refresher : Refresher R ι
  visits : List (Visit R) := []
  /-- The calls led under other keys, each with its key. -/
  strangers : List (String × Nat) := []
  /-- The wall clock. -/
  now : Instant
  /-- What happened, the newest first. -/
  log : List (Occurrence R ι) := []

/-- What an event puts on record, if it is about the visit and `stays` is what is left of it. -/
def Occurrence.ofEvent? (arrival : Nat) (client : Client) (replica : Replica R ι)
    (stays : Option (Caller R)) : Event R → Option (Occurrence R ι)
  | .asked _ ticket => stays.map fun c => .opened c.call ticket replica
  | .changed _ => none
  | .ended _ refreshed => some (.ended arrival client refreshed)

/-- The merge by which the pull of a caller closes, if it merges. -/
def Occurrence.merges [Record R] (replica : Replica R ι) (call : Nat) (ticket : Ticket)
    (answer : Answer R) : List (Occurrence R ι) :=
  match replica.verdict ticket answer with
  | .ok batch => [.merged call batch replica]
  | .error _ => []

/-- What the poll of a caller merges. -/
def Occurrence.mergesOf [Record R] (replica : Replica R ι) (c : Caller R) : List (Occurrence R ι) :=
  match c.stage, c.answer with
  | .pulling call ticket _, some answer => merges replica call ticket answer
  | _, _ => []

namespace Session

/-- The visit between others goes on as told. -/
def resume (s : Session R ι) (before after : List (Visit R)) (arrival : Nat) (client : Client)
    (next : Refresher R ι × Option (Caller R) × List (Event R)) : Session R ι :=
  let (refresher, stays, events) := next
  { s with
    refresher
    visits := before ++ (stays.map fun caller => { arrival, client, caller }).toList ++ after
    log := (events.filterMap
      (Occurrence.ofEvent? arrival client refresher.replica stays)).reverse ++ s.log }

section

variable [Record R] [Index R ι]

/-- A caller enters. -/
def enter (s : Session R ι) (client : Client) : Session R ι :=
  { s with log := .entered client :: s.log }.resume s.visits [] s.log.length client
    (begin s.now s.refresher client none)

/-- The store answers the pull of a visit. -/
def answer (s : Session R ι) (i : Nat) (answer : Answer R) : Session R ι :=
  match Waiting.pick? Visit.isOpen i s.visits with
  | some (before, v, after) =>
    { s with
      visits := before ++ { v with caller := { v.caller with answer := some answer } } :: after
      log := .answered v.caller.call answer :: s.log }
  | none => s

/-- A visit is polled. -/
def poll (s : Session R ι) (i : Nat) : Session R ι :=
  match Waiting.pick? (fun _ => true) i s.visits with
  | some (before, v, after) =>
    { s with log := Occurrence.mergesOf s.refresher.replica v.caller ++ s.log }.resume before after
      v.arrival v.client (pollCaller s.now s.refresher v.caller)
  | none => s

/-- A visit is dropped. -/
def drop (s : Session R ι) (i : Nat) : Session R ι :=
  match Waiting.pick? (fun _ => true) i s.visits with
  | some (before, v, after) =>
    { s with refresher := release s.refresher v.caller, visits := before ++ after }
  | none => s

/-- The replica is cleared. -/
def clear (s : Session R ι) : Session R ι :=
  { s with refresher := s.refresher.clear, log := .cleared :: s.log }

/-- The session with its replica changed. -/
def withReplica (s : Session R ι) (replica : Replica R ι) : Session R ι :=
  { s with refresher := { s.refresher with replica } }

/-- The session with other flights and strangers. -/
def withOthers (s : Session R ι) (flights : SingleFlight Outcome)
    (strangers : List (String × Nat)) : Session R ι :=
  { s with refresher := { s.refresher with flights }, strangers }

/-- The session after a step of another key's users; the replica's own key is spared. -/
def elsewhere (s : Session R ι) : Elsewhere → Session R ι
  | .enter key =>
    if key = s.refresher.key then s
    else
      let (flights, role, call) := s.refresher.flights.enter key
      s.withOthers flights (if role = .leader then (key, call) :: s.strangers else s.strangers)
  | .finish i result =>
    match Waiting.pick? (fun _ => true) i s.strangers with
    | some (before, (key, call), after) =>
      s.withOthers (s.refresher.flights.finish key call result) (before ++ after)
    | none => s
  | .abandon i =>
    match Waiting.pick? (fun _ => true) i s.strangers with
    | some (before, (key, call), after) =>
      s.withOthers (s.refresher.flights.abandon key call) (before ++ after)
    | none => s
  | .forget key =>
    if key = s.refresher.key then s else s.withOthers (s.refresher.flights.forget key) s.strangers

/-- The session after one more step; nothing happens if it means nobody. -/
def act (s : Session R ι) : Action R → Session R ι
  | .enter client => s.enter client
  | .answer i answer => s.answer i answer
  | .poll i => s.poll i
  | .drop i => s.drop i
  | .clear => s.clear
  | .close => s.withReplica s.refresher.replica.close
  | .tick now => { s with now }
  | .aside tally feed => s.withReplica { s.refresher.replica with tally, feed }
  | .elsewhere step => s.elsewhere step

/-- A session that begins with an empty replica. -/
def start (kind : CacheKind) (skew : Span) (buffer : Nat) (now : Instant) : Session R ι :=
  { refresher := { flights := {}, replica := .create kind skew buffer }, now }

/-- The session after the steps. -/
def run (s : Session R ι) (actions : List (Action R)) : Session R ι := actions.foldl act s

end

/-! ## How a refresh begins -/

variable {s : Session R ι} {before after : List (Visit R)} {arrival call : Nat}
  {client asClient : Client} {ticket : Ticket} {refreshed : Refreshed} {replica : Replica R ι}

theorem resume_stays (s : Session R ι) (before after : List (Visit R)) (v : Visit R)
    (refresher : Refresher R ι) :
    s.resume before after v.arrival v.client (refresher, some v.caller, []) =
      { s with refresher, visits := before ++ v :: after } := by
  unfold resume
  simp

theorem resume_ended (s : Session R ι) (before after : List (Visit R)) (arrival : Nat)
    (client asClient : Client) (refresher : Refresher R ι) (refreshed : Refreshed) :
    s.resume before after arrival client (refresher, none, [.ended asClient refreshed]) =
      { s with
        refresher
        visits := before ++ after
        log := .ended arrival client refreshed :: s.log } := by
  unfold resume
  simp [Occurrence.ofEvent?]

/-- A refresh of a key without a call leads a new one, and the store is asked. -/
theorem resume_begin_lead (hk : s.refresher.flights.current[s.refresher.key]? = none)
    (ho : s.refresher.replica.openPull s.now = some (replica, ticket))
    (before after : List (Visit R)) (arrival : Nat) (client asClient : Client) :
    s.resume before after arrival client (begin s.now s.refresher asClient none) =
      { s with
        refresher := ⟨s.refresher.flights.lead s.refresher.key, replica⟩
        visits := before ++ ⟨arrival, client, ⟨asClient,
          .pulling s.refresher.flights.next ticket (), none⟩⟩ :: after
        log := .opened s.refresher.flights.next ticket replica :: s.log } := by
  unfold begin Refresher.enter resume
  rw [SingleFlight.enter_of_free hk, ho]
  simp [Occurrence.ofEvent?, Caller.call]

/-- A closed replica refuses the pull of a new leader. -/
theorem resume_begin_refused (hk : s.refresher.flights.current[s.refresher.key]? = none)
    (ho : s.refresher.replica.openPull s.now = none)
    (before after : List (Visit R)) (arrival : Nat) (client asClient : Client) :
    s.resume before after arrival client (begin s.now s.refresher asClient none) =
      { s with
        refresher :=
          { s.refresher with
            flights := (s.refresher.flights.lead s.refresher.key).close s.refresher.key
              s.refresher.flights.next (.finished (.error (.closed s.refresher.key))) }
        visits := before ++ after
        log := .ended arrival client ⟨.leader, .error (.closed s.refresher.key)⟩ :: s.log } := by
  unfold begin Refresher.enter resume
  rw [SingleFlight.enter_of_free hk, ho]
  simp [Occurrence.ofEvent?, SingleFlight.finish_eq_close]

theorem resume_begin_follow (hk : s.refresher.flights.current[s.refresher.key]? = some call)
    (before after : List (Visit R)) (arrival : Nat) (client asClient : Client) :
    s.resume before after arrival client (begin s.now s.refresher asClient none) =
      { s with
        visits := before ++ ⟨arrival, client, ⟨asClient, .following call, none⟩⟩ :: after } := by
  unfold begin Refresher.enter resume
  rw [SingleFlight.enter_of_registered hk]
  simp

/-! ## How a refresh ends -/

theorem resume_conclude_again (h : (asClient.thorough && refreshed.needsAgain) = true)
    (before after : List (Visit R)) (arrival : Nat) (client : Client) :
    s.resume before after arrival client (conclude s.now s.refresher asClient refreshed) =
      s.resume before after arrival client
        (begin s.now s.refresher { asClient with thorough := false } none) := by
  unfold conclude; rw [if_pos h]

theorem resume_conclude_ended (h : (asClient.thorough && refreshed.needsAgain) = false)
    (before after : List (Visit R)) (arrival : Nat) (client : Client) :
    s.resume before after arrival client (conclude s.now s.refresher asClient refreshed) =
      { s with
        visits := before ++ after
        log := .ended arrival client refreshed :: s.log } := by
  unfold conclude; rw [if_neg (by rw [h]; nofun), resume_ended]

/-! ## How a visit is polled -/

section

variable [Record R] [Index R ι] {i : Nat} {v : Visit R} {answer : Answer R} {result : Outcome}

/-- The session after the leader of a call has closed its pull and left. -/
def settled (s : Session R ι) (before after : List (Visit R)) (call : Nat) (ticket : Ticket)
    (answer : Answer R) : Session R ι :=
  { s with
    refresher := (s.refresher.settle call ticket answer).1
    visits := before ++ after
    log := Occurrence.merges s.refresher.replica call ticket answer ++ s.log }

/-- The outcome of a pull that closes with an answer. -/
def outcome (s : Session R ι) (ticket : Ticket) (answer : Answer R) : Outcome :=
  Refresher.outcomeOf (s.refresher.replica.closePull ticket answer).2

theorem outcome_of_error {fault : Fault}
    (h : s.refresher.replica.verdict ticket answer = .error fault) :
    s.outcome ticket answer = .error fault := by
  unfold outcome
  rw [Replica.closePull_of_error h]
  rfl

/-- The session after a follower has taken the result of its call and left. -/
def shared (s : Session R ι) (before after : List (Visit R)) : Session R ι :=
  { s.withReplica s.refresher.replica.countShared with visits := before ++ after }

theorem poll_of_none (h : Waiting.pick? (fun _ => true) i s.visits = none) : s.poll i = s := by
  unfold poll; rw [h]

theorem poll_of_open (h : Waiting.pick? (fun _ => true) i s.visits = some (before, v, after))
    (hv : v.caller.stage = .pulling call ticket ()) (ha : v.caller.answer = none) :
    s.poll i = s := by
  have hm : Occurrence.mergesOf s.refresher.replica v.caller = [] := by
    unfold Occurrence.mergesOf; rw [hv, ha]
  have hp : pollCaller s.now s.refresher v.caller = (s.refresher, some v.caller, []) := by
    unfold pollCaller; rw [hv, ha]
  unfold poll
  rw [h]
  simp only [hm, hp, resume_stays, List.nil_append, ← Waiting.eq_append_of_pick? h]

theorem poll_of_answered (h : Waiting.pick? (fun _ => true) i s.visits = some (before, v, after))
    (hv : v.caller.stage = .pulling call ticket ()) (ha : v.caller.answer = some answer) :
    s.poll i = (s.settled before after call ticket answer).resume before after v.arrival v.client
      (conclude s.now (s.settled before after call ticket answer).refresher v.caller.client
        ⟨.leader, s.outcome ticket answer⟩) := by
  have hm : Occurrence.mergesOf s.refresher.replica v.caller =
      Occurrence.merges s.refresher.replica call ticket answer := by
    unfold Occurrence.mergesOf; rw [hv, ha]
  -- the changes of a merge are not on record one by one
  have hchanged : ∀ (replica : Replica R ι) (stays : Option (Caller R)) (changes : List (Change R)),
      (changes.map Event.changed).filterMap
        (Occurrence.ofEvent? v.arrival v.client replica stays) = [] := by
    intro replica stays changes
    simp [Occurrence.ofEvent?]
  unfold poll
  rw [h]
  simp only [hm]
  unfold pollCaller
  simp only [hv, ha]
  unfold resume settled outcome
  simp only [List.filterMap_append, hchanged, List.nil_append]
  rfl

/-- A leader that merged its batch ends. -/
theorem poll_of_merged {batch : List R}
    (h : Waiting.pick? (fun _ => true) i s.visits = some (before, v, after))
    (hv : v.caller.stage = .pulling call ticket ()) (ha : v.caller.answer = some answer)
    (hd : s.refresher.replica.verdict ticket answer = .ok batch) :
    s.poll i =
      { s.settled before after call ticket answer with
        log := .ended v.arrival v.client ⟨.leader, .ok ()⟩ ::
          (s.settled before after call ticket answer).log } := by
  have hok : s.outcome ticket answer = .ok () := by
    unfold outcome
    rw [Replica.closePull_of_ok hd]
    rfl
  rw [poll_of_answered h hv ha, hok]
  have hend : (v.caller.client.thorough && (⟨.leader, .ok ()⟩ : Refreshed).needsAgain) = false :=
    Bool.and_false _
  exact resume_conclude_ended hend before after v.arrival v.client

theorem poll_of_shared (h : Waiting.pick? (fun _ => true) i s.visits = some (before, v, after))
    (hv : v.caller.stage = .following call)
    (hr : s.refresher.flights.resultFor s.refresher.key call = some result) :
    s.poll i = (s.shared before after).resume before after v.arrival v.client
      (conclude s.now (s.shared before after).refresher v.caller.client ⟨.follower, result⟩) := by
  have hm : Occurrence.mergesOf s.refresher.replica v.caller = [] := by
    unfold Occurrence.mergesOf; rw [hv]
  unfold poll
  rw [h]
  simp only [hm]
  unfold pollCaller Refresher.share?
  simp only [hv, hr, Option.map_some]
  rfl

theorem poll_of_waiting (h : Waiting.pick? (fun _ => true) i s.visits = some (before, v, after))
    (hv : v.caller.stage = .following call)
    (hr : s.refresher.flights.resultFor s.refresher.key call = none) : s.poll i = s := by
  have hm : Occurrence.mergesOf s.refresher.replica v.caller = [] := by
    unfold Occurrence.mergesOf; rw [hv]
  have hp : pollCaller s.now s.refresher v.caller = (s.refresher, some v.caller, []) := by
    unfold pollCaller Refresher.share?; rw [hv]; simp only [hr, Option.map_none]
  unfold poll
  rw [h]
  simp only [hm, hp, resume_stays, List.nil_append, ← Waiting.eq_append_of_pick? h]

end

end Session

end Desk

end GovernanceCache
