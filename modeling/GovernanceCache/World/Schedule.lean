import GovernanceCache.World.Polling

/-!
# The schedule

Tasks are polled in the order in which they were spawned, round by round until a round moves none of
them. Time passes only then, from one deadline to the next. Whoever performs a command is polled
before the tasks when the clock has moved, and after them when they have come to rest; what a
command leaves for the tasks to do is left to the next settling.
-/

namespace GovernanceCache.World

/-- The state of a task after it was polled. -/
def stateAfter : Activity ⊕ Reply → TaskState
  | .inl activity => .running activity
  | .inr reply => .finished reply

/-- Polls a task; tells whether it moved. -/
def pollTask (w : World) (id : Nat) : World × Bool :=
  match w.taskState? id with
  | some (.running activity) =>
    match w.poll activity with
    | (w, some next) => (w.setTask id (stateAfter next), true)
    | (w, none) => (w, false)
  | _ => (w, false)

/-- Polls every task once; tells whether one moved. -/
def pollRound (w : World) : World × Bool :=
  (w.tasks.map (·.id)).foldl (fun (w, moved) id =>
    let (w, more) := w.pollTask id
    (w, moved || more)) (w, false)

/-- Polls round by round, at most `rounds` times, until a round moves no task. -/
def settleRounds : Nat → World → World
  | 0, w => w
  | rounds + 1, w =>
    let (w, moved) := w.pollRound
    if moved then settleRounds rounds w else w

/-- Polls until every task waits. At one moment a task moves a few times at most: a loop makes up
for no more lateness than is tolerated. -/
def settle (w : World) : World := settleRounds (16 * (w.tasks.length + 1)) w

/-- The next moment at which a task has to be polled. -/
def nextDeadline? (w : World) : Option Nat :=
  w.tasks.foldl (fun first task =>
    match task.state with
    | .running activity => earlier first (deadline? activity)
    | _ => first) none

/-- Goes on with an activity until it ends, letting the clock move at most `moves` times; absent if
that is not enough. -/
def pursue : Nat → World → Activity → World × Option Reply
  | 0, w, _ => (w, none)
  | moves + 1, w, activity =>
    match w.poll activity with
    | (w, some (.inr reply)) => (w, some reply)
    | (w, next) =>
      let activity := match next with
        | some (.inl activity) => activity
        | _ => activity
      let w := w.settle
      match w.poll activity with
      | (w, some (.inr reply)) => (w, some reply)
      | (w, next) =>
        let activity := match next with
          | some (.inl activity) => activity
          | _ => activity
        match earlier (deadline? activity) w.nextDeadline? with
        | some moment => pursue moves { w with now := max w.now moment } activity
        | none => (w, none)

/-- Performs a command to its end, letting the clock move at most `moves` times; the reply is absent
if that is not enough. -/
def perform (w : World) (moves : Nat) (command : Command) : World × Option Reply :=
  match w.begin command with
  | (w, .inr reply) => (w, some reply)
  | (w, .inl activity) => pursue moves w activity

/-- Spawns a task for a command, and tells its number. -/
def spawn (w : World) (command : Command) : World × Nat :=
  let (w, next) := w.begin command
  let (w, id) := w.addTask (stateAfter next)
  (w, id)

/-- Aborts a task that has not ended. -/
def abort (w : World) (id : Nat) : World :=
  match w.taskState? id with
  | some (.running activity) => (w.drop activity).setTask id .aborted
  | _ => w

/-- A task has ended or was aborted. -/
def isFinished (w : World) (id : Nat) : Bool :=
  match w.taskState? id with
  | some (.running _) => false
  | _ => true

/-- Drops a refresh loop; other tasks stay. -/
def endLoop (w : World) (task : Task) : World :=
  match task.state with
  | .running (.loop loop) => (w.dropLoop loop).setTask task.id .aborted
  | _ => w

/-- Ends the refresh loops and closes every scheduled cache. -/
def close (w : World) : World :=
  let w := w.tasks.foldl endLoop w
  { w with manager := w.manager.close }

end GovernanceCache.World
