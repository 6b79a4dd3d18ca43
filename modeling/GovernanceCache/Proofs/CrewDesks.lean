import GovernanceCache.Proofs.CounterAccounts
import Mathlib.Data.List.Forall2
import Mathlib.Logic.Relation

/-!
# Desks are crews

A desk polls its callers one at a time. Whatever happens at a desk is a run of a crew whose threads
stand where the callers wait: the steps of which it is made up come one after the other, and nobody
comes between them. So what is true of every crew is true of every desk.

1. `Stands` says at which post a caller waits. A refresh that begins, and a caller that is polled or
   dropped, goes from one such post to another, or ends (`Goes`).
2. `Mans` compares a desk with a crew. Every step of the desk keeps it (`Mans.step`), hence every run.
-/

namespace GovernanceCache

variable {R ι : Type}

theorem SingleFlight.unregister_unregister {ρ : Type} (flights : SingleFlight ρ) (key : String)
    (call : Nat) : (flights.unregister key call).unregister key call =
      flights.unregister key call := by
  have hoff : (flights.unregister key call).current[key]? ≠ some call :=
    fun h => (unregister_current_eq_some.mp h).2 ⟨rfl, rfl⟩
  generalize flights.unregister key call = off at hoff ⊢
  exact if_neg hoff

theorem SingleFlight.unregister_close {ρ : Type} (flights : SingleFlight ρ) (key : String)
    (call : Nat) (p : Progress ρ) :
    (flights.unregister key call).close key call p = flights.close key call p := by
  unfold close
  rw [unregister_unregister]

namespace Crew

/-- The post at which a caller of a desk waits. -/
inductive Stands : Desk.Caller R → Post R → Prop
  | pulling (client : Desk.Client) (answer : Option (Answer R)) (pull : Pull) :
    Stands ⟨client, .pulling pull.call pull.ticket (), answer⟩ (.pulling pull)
  | following (client : Desk.Client) (answer : Option (Answer R)) (call : Nat) :
    Stands ⟨client, .following call, answer⟩ (.following call)

theorem Stands.isMerging {c : Desk.Caller R} {w : Post R} (h : Stands c w) :
    w.isMerging = false := by
  cases h <;> rfl

variable [Record R] [Index R ι]

theorem Steps.trans {s s' s'' : Crew R ι} {log log' : List (Deed R ι)} (h : Steps s log s')
    (h' : Steps s' log' s'') : Steps s (log' ++ log) s'' := by
  induction h' with
  | refl => exact h
  | step _ hstep ih => exact ih.step hstep

/-- Between others a thread goes from one post to another. -/
def Goes (before after : List (Post R)) (r : Refresher R ι) (p : Option (Post R))
    (r' : Refresher R ι) (q : Option (Post R)) : Prop :=
  ∃ log, Steps { refresher := r, posts := before ++ p.toList ++ after } log
    { refresher := r', posts := before ++ q.toList ++ after }

variable {before after : List (Post R)} {r r' r'' : Refresher R ι} {p q w : Option (Post R)}
  {deed : Deed R ι}

namespace Goes

theorem refl : Goes before after r p r p := ⟨[], .refl⟩

theorem trans (h : Goes before after r p r' q) (h' : Goes before after r' q r'' w) :
    Goes before after r p r'' w := by
  obtain ⟨log, hsteps⟩ := h
  obtain ⟨log', hsteps'⟩ := h'
  exact ⟨log' ++ log, hsteps.trans hsteps'⟩

theorem of_moves (before after : List (Post R)) (h : Moves r (before ++ after) p deed q r') :
    Goes before after r p r' q :=
  ⟨[deed], .step .refl (.move before after p q deed r' rfl h)⟩

theorem moves (h : Goes before after r p r' q) (h' : Moves r' (before ++ after) q deed w r'') :
    Goes before after r p r'' w := h.trans (of_moves before after h')

end Goes

/-! ## Callers -/

/-- A thread that is done takes its call off the key and ends it. -/
theorem goes_leave (r : Refresher R ι) (call : Nat) (result : Outcome) :
    Goes before after r (some (.leaving call result))
      { r with flights := r.flights.finish r.key call result } none := by
  have hleft := Goes.of_moves before after (.leave (r := r) call result)
  have hgone := hleft.moves (.endCall call (.finished result))
  have hflights := r.flights.unregister_close r.key call (.finished result)
  rw [SingleFlight.finish_eq_close, ← hflights]
  exact hgone

/-- A thread that waits for the store is dropped together with its call. -/
theorem goes_abandon (r : Refresher R ι) (pull : Pull) :
    Goes before after r (some (.pulling pull)) (r.abandon pull.call) none := by
  have hleft := Goes.of_moves before after (.drop (r := r) pull)
  have hgone := hleft.moves (.endCall pull.call .abandoned)
  have hflights := r.flights.unregister_close r.key pull.call .abandoned
  show Goes before after r _ { r with flights := r.flights.close r.key pull.call .abandoned } _
  rw [← hflights]
  exact hgone

variable (hu : Unlocked (before ++ after)) (now : Instant) (r : Refresher R ι)
  (client : Desk.Client)

include hu in
/-- A refresh that begins waits for the store or for another caller, or it ends. -/
theorem goes_begin (answer : Option (Answer R)) :
    ∃ q, Goes before after r none (Desk.begin now r client answer).1 q ∧
      Option.Rel Stands (Desk.begin now r client answer).2.1 q := by
  unfold Desk.begin Refresher.enter
  rcases hkey : r.flights.current[r.key]? with _ | call
  · have henter := SingleFlight.enter_of_free hkey
    rw [henter]
    have hled := Goes.of_moves before after (.lead _ _ henter)
    unfold Replica.openPull
    rcases hclosed : r.replica.closed with _ | _
    · exact ⟨_, (hled.moves (.proceed _ _ hclosed)).moves (.ask _ _ now hu),
        .some (.pulling client answer (.taken r.replica now r.flights.next _))⟩
    · exact ⟨none, (hled.moves (.refuse _ _ hclosed)).trans (goes_leave _ _ _), .none⟩
  · have henter := SingleFlight.enter_of_registered hkey
    rw [henter]
    exact ⟨_, .of_moves _ _ (.follow call henter), .some (.following client answer call)⟩

include hu in
theorem goes_settle (pull : Pull) (answer : Answer R) :
    Goes before after r (some (.pulling pull)) (r.settle pull.call pull.ticket answer).1 none := by
  unfold Refresher.settle
  rcases hv : r.replica.verdict pull.ticket answer with fault | batch
  · rw [Replica.closePull_of_error hv]
    have hgone := Goes.of_moves before after
      (.giveUp pull answer fault hv fun _ => hu)
    have hkey : ({ r with replica := r.replica.giveUp fault } : Refresher R ι).key = r.key :=
      congrArg CacheKind.name (r.replica.giveUp_alike fault).kind
    have hleft := hgone.trans (goes_leave _ _ _)
    rw [hkey] at hleft
    exact hleft
  · obtain ⟨rfl, -⟩ := Replica.verdict_eq_ok.mp hv
    rw [Replica.closePull_of_ok hv]
    have haccepted := Goes.of_moves before after (.accept pull batch hv hu)
    exact (((haccepted.moves (.merge pull batch)).moves (.count _ _)).moves
      (.publish _ _)).trans (goes_leave _ _ _)

include hu in
/-- A refresh that ended is followed by a second one, or by none. -/
theorem goes_conclude (refreshed : Refreshed) :
    ∃ q, Goes before after r none (Desk.conclude now r client refreshed).1 q ∧
      Option.Rel Stands (Desk.conclude now r client refreshed).2.1 q := by
  unfold Desk.conclude
  split
  · exact goes_begin hu now r _ none
  · exact ⟨none, .refl, .none⟩

include hu in
/-- A caller that is polled waits on, begins again or ends. -/
theorem goes_poll {c : Desk.Caller R} {w : Post R} (h : Stands c w) :
    ∃ q, Goes before after r (some w) (Desk.pollCaller now r c).1 q ∧
      Option.Rel Stands (Desk.pollCaller now r c).2.1 q := by
  cases h with
  | pulling client answer pull =>
    cases answer with
    | none => exact ⟨_, .refl, .some (.pulling client none pull)⟩
    | some answer =>
      obtain ⟨q, hgoes, hq⟩ := goes_conclude hu now (r.settle pull.call pull.ticket answer).1 client
        ⟨.leader, Refresher.outcomeOf (r.settle pull.call pull.ticket answer).2⟩
      exact ⟨q, (goes_settle hu r pull answer).trans hgoes, hq⟩
  | following client answer call =>
    rcases hshare : r.share? call with _ | ⟨r', result⟩
    · unfold Desk.pollCaller
      simp only [hshare]
      exact ⟨_, .refl, .some (.following client answer call)⟩
    · unfold Desk.pollCaller
      simp only [hshare]
      obtain ⟨q, hgoes, hq⟩ := goes_conclude hu now r' client ⟨.follower, result⟩
      exact ⟨q, (Goes.of_moves before after (.share call r' result hshare)).trans hgoes, hq⟩

theorem goes_release {c : Desk.Caller R} {w : Post R} (h : Stands c w) :
    Goes before after r (some w) (Desk.release r c) none := by
  cases h with
  | pulling client answer pull => exact goes_abandon r pull
  | following client answer call => exact .of_moves _ _ (.quit call)

end Crew

/-! ## Desks -/

namespace Desk

variable [Record R] [Index R ι]

/-- Something happens at a desk. -/
inductive Turn (d : Desk R ι) : Desk R ι → Prop
  | enter (client : Client) (answer : Option (Answer R)) : Turn d (d.enter client answer).1
  | supply (name : String) (answer : Answer R) (d' : Desk R ι)
    (h : d.supply? name answer = some d') : Turn d d'
  | cancel (name : String) : Turn d (d.cancel name)
  | round : Turn d d.pollRound.1
  | clear : Turn d d.clear
  | close : Turn d d.close
  | tick (now : Instant) : Turn d { d with now }
  | read (key : String) : Turn d (d.mapReplica fun m => (m.get key).1)
  | listen (step : Listening) :
    Turn d (d.mapReplica fun m => { m with feed := m.feed.listen step })

end Desk

namespace Crew

variable [Record R] [Index R ι] {d d' : Desk R ι} {s : Crew R ι} {before posts : List (Post R)}
  {waiting : List (Desk.Caller R)}

/-- The threads of a crew stand where the callers of a desk wait. -/
structure Mans (d : Desk R ι) (s : Crew R ι) : Prop where
  refresher : s.refresher = d.refresher
  posts : List.Forall₂ Stands d.waiting s.posts

omit [Record R] [Index R ι] in
theorem unlocked_of_stands (h : List.Forall₂ Stands waiting posts) : Unlocked posts := by
  induction h with
  | nil => exact List.forall_mem_nil _
  | cons hc _ ih => exact List.forall_mem_cons.mpr ⟨hc.isMerging, ih⟩

omit [Record R] [Index R ι] in
theorem forall₂_toList {stays : Option (Desk.Caller R)} {q : Option (Post R)}
    (h : Option.Rel Stands stays q) : List.Forall₂ Stands stays.toList q.toList := by
  cases h with
  | some hc => exact .cons hc .nil
  | none => exact .nil

omit [Record R] [Index R ι] in
/-- Where a caller waits does not depend on the answer of the store. -/
theorem stands_supplied {name : String} {answer : Answer R} {waiting' : List (Desk.Caller R)}
    (h : List.Forall₂ Stands waiting posts)
    (hs : Waiting.changeLast? (Desk.Caller.isOpen name) (fun c => { c with answer := some answer })
      waiting = some waiting') : List.Forall₂ Stands waiting' posts := by
  induction h generalizing waiting' with
  | nil => cases hs
  | cons hc hrest ih =>
    unfold Waiting.changeLast? at hs
    split at hs
    · rename_i found hfound
      obtain rfl := Option.some.inj hs
      exact .cons hc (ih hfound)
    · split at hs
      · obtain rfl := Option.some.inj hs
        refine .cons ?_ hrest
        cases hc with
        | pulling client _ pull => exact .pulling client _ pull
        | following client _ call => exact .following client _ call
      · cases hs

/-- The callers are polled one after the other, from the front. -/
theorem steps_pollAll (now : Instant) (r : Refresher R ι) (hu : Unlocked before)
    (h : List.Forall₂ Stands waiting posts) : ∃ log posts',
      Steps { refresher := r, posts := before ++ posts } log
        { refresher := (Waiting.pollAll (Desk.pollCaller now) r waiting).1
          posts := before ++ posts' } ∧
      List.Forall₂ Stands (Waiting.pollAll (Desk.pollCaller now) r waiting).2.1 posts' := by
  induction h generalizing before r with
  | nil => exact ⟨[], [], .refl, .nil⟩
  | @cons c w waiting posts hc hrest ih =>
    have hfree : Unlocked (before ++ posts) :=
      List.forall_mem_append.mpr ⟨hu, unlocked_of_stands hrest⟩
    obtain ⟨q, ⟨log, hpolled⟩, hq⟩ := goes_poll hfree now r hc
    have hstays : Unlocked (before ++ q.toList) :=
      List.forall_mem_append.mpr ⟨hu, unlocked_of_stands (forall₂_toList hq)⟩
    obtain ⟨log', posts', hsteps, hposts⟩ := ih (Desk.pollCaller now r c).1 hstays
    refine ⟨log' ++ log, q.toList ++ posts', ?_, List.rel_append (forall₂_toList hq) hposts⟩
    rw [List.append_assoc] at hpolled
    rw [← List.append_assoc]
    exact hpolled.trans hsteps

theorem steps_release (before : List (Post R)) (test : Desk.Caller R → Bool) (r : Refresher R ι)
    (h : List.Forall₂ Stands waiting posts) : ∃ log posts',
      Steps { refresher := r, posts := before ++ posts } log
        { refresher := (waiting.filter test).foldl Desk.release r, posts := before ++ posts' } ∧
      List.Forall₂ Stands (waiting.filter fun c => !test c) posts' := by
  induction h generalizing before r with
  | nil => exact ⟨[], [], .refl, .nil⟩
  | @cons c w waiting posts hc hrest ih =>
    rcases htest : test c with _ | _
    · obtain ⟨log, posts', hsteps, hposts⟩ := ih (before ++ [w]) r
      rw [List.filter_cons_of_neg (by rw [htest]; exact Bool.false_ne_true),
        List.filter_cons_of_pos (by rw [htest]; rfl)]
      refine ⟨log, w :: posts', ?_, .cons hc hposts⟩
      rw [List.append_assoc, List.append_assoc] at hsteps
      exact hsteps
    · have hdropped : Goes before posts r (some w) (Desk.release r c) none := goes_release r hc
      obtain ⟨log, hgone⟩ := hdropped
      obtain ⟨log', posts', hsteps, hposts⟩ := ih before (Desk.release r c)
      rw [List.filter_cons_of_pos htest,
        List.filter_cons_of_neg (by rw [htest]; exact Bool.false_ne_true)]
      refine ⟨log' ++ log, posts', ?_, hposts⟩
      rw [List.append_assoc, List.append_assoc] at hgone
      exact hgone.trans hsteps

/-- Whatever happens at a desk, the threads of the crew do it step by step. -/
theorem Mans.step (h : Mans d s) (ht : d.Turn d') : ∃ log s', Steps s log s' ∧ Mans d' s' := by
  obtain ⟨r, posts⟩ := s
  obtain ⟨rfl, hposts⟩ := h
  have hu : Unlocked posts := unlocked_of_stands hposts
  have hu' : Unlocked (posts ++ []) := by rwa [List.append_nil]
  have hidle : ∀ {deed : Deed R ι} {r' : Refresher R ι},
      Moves d.refresher (posts ++ []) none deed none r' →
        Steps { refresher := d.refresher, posts } [deed] { refresher := r', posts } := by
    intro deed r' hm
    have hstep := Step.move (s := { refresher := d.refresher, posts }) posts [] none none deed r'
      (by simp) hm
    simp only [Option.toList_none, List.append_nil] at hstep
    exact .step .refl hstep
  cases ht with
  | enter client answer =>
    obtain ⟨q, ⟨log, hsteps⟩, hq⟩ := goes_begin hu' d.now d.refresher client answer
    simp only [Option.toList_none, List.append_nil] at hsteps
    exact ⟨log, _, hsteps, ⟨rfl, List.rel_append hposts (forall₂_toList hq)⟩⟩
  | supply name answer _ hs =>
    obtain ⟨waiting', hchanged, rfl⟩ := Option.map_eq_some_iff.mp hs
    exact ⟨[], _, .refl, ⟨rfl, stands_supplied hposts hchanged⟩⟩
  | cancel name =>
    obtain ⟨log, posts', hsteps, hleft⟩ := steps_release []
      (fun c => c.client.name == name) d.refresher hposts
    exact ⟨log, _, hsteps, ⟨rfl, hleft⟩⟩
  | round =>
    obtain ⟨log, posts', hsteps, hleft⟩ := steps_pollAll d.now d.refresher
      (show Unlocked [] from List.forall_mem_nil _) hposts
    exact ⟨log, _, hsteps, ⟨rfl, hleft⟩⟩
  | clear =>
    have hreset := Goes.of_moves posts [] (.reset (r := d.refresher) hu')
    obtain ⟨log, hsteps⟩ := (hreset.moves (.forget _)).moves (.empty _)
    simp only [Option.toList_none, List.append_nil] at hsteps
    exact ⟨log, _, hsteps, ⟨rfl, hposts⟩⟩
  | close =>
    have hbarred := Goes.of_moves posts [] (.bar (r := d.refresher))
    obtain ⟨log, hsteps⟩ := hbarred.moves .dismiss
    simp only [Option.toList_none, List.append_nil] at hsteps
    exact ⟨log, _, hsteps, ⟨rfl, hposts⟩⟩
  | tick now => exact ⟨[], _, .refl, ⟨rfl, hposts⟩⟩
  | read key => exact ⟨_, _, hidle (.read key), ⟨rfl, hposts⟩⟩
  | listen step => exact ⟨_, _, hidle (.listen step), ⟨rfl, hposts⟩⟩

/-- **Desks are crews.** Whatever happened at a desk since its replica was new, the threads of a crew
have done. -/
theorem of_desk {kind : CacheKind} {skew : Span} {buffer : Nat} {now : Instant}
    (h : Relation.ReflTransGen Desk.Turn
      { refresher := { flights := {}, replica := .create kind skew buffer }, now } d) :
    ∃ log s, Steps (start kind skew buffer) log s ∧ Mans d s := by
  induction h with
  | refl => exact ⟨[], _, .refl, ⟨rfl, .nil⟩⟩
  | tail _ hturn ih =>
    obtain ⟨log, s, hsteps, hmans⟩ := ih
    obtain ⟨log', s', hsteps', hmans'⟩ := hmans.step hturn
    exact ⟨log' ++ log, s', hsteps.trans hsteps', hmans'⟩

omit [Record R] [Index R ι] in
/-- Whoever waits at a desk owes nothing to the metrics. -/
theorem owed_of_stands (h : List.Forall₂ Stands waiting posts) (a : Account) :
    (posts.map (Post.owed a)).sum = 0 := by
  induction h with
  | nil => rfl
  | cons hc _ ih =>
    rw [List.map_cons, List.sum_cons, ih]
    cases hc <;> rfl

end Crew

namespace Desk

/-- **Counters of a desk.** Statistics and metrics agree, whatever happened at the desk. -/
theorem counters_agree [Record R] [Index R ι] {d : Desk R ι} {kind : CacheKind} {skew : Span}
    {buffer : Nat} {now : Instant}
    (h : Relation.ReflTransGen Turn
      { refresher := { flights := {}, replica := .create kind skew buffer }, now } d)
    (a : Account) : d.replica.tally.of a = d.replica.meter.of a := by
  obtain ⟨log, s, hsteps, hmans⟩ := Crew.of_desk h
  have howed := (Crew.Reconciled.run hsteps).owed a
  rw [Crew.owed_of_stands hmans.posts, hmans.refresher] at howed
  exact howed

/-- A pull brings a record, and the next one a malformed one. -/
theorem pulls_agree :
    let client : Client := { name := "reader" }
    let desk : Desk Namespace Exports :=
      { refresher := { flights := {}, replica := .create .namespaces (.seconds (-5)) 4 }
        now := .epoch }
    let pulled : Desk Namespace Exports :=
      (desk.enter client (some (.ok [{ name := "a" }]))).1.pollRound.1
    let failed : Desk Namespace Exports :=
      (pulled.enter client (some (.ok [{ name := "" }]))).1.pollRound.1
    failed.replica.meter.of .pulls = 2 ∧ failed.replica.meter.of .failures = 1 ∧
      ∀ a, failed.replica.tally.of a = failed.replica.meter.of a := by
  intro client desk pulled failed
  refine ⟨by decide +kernel, by decide +kernel, ?_⟩
  have hpulled : Relation.ReflTransGen Turn desk pulled :=
    (Relation.ReflTransGen.single (.enter client _)).tail .round
  have hfailed : Relation.ReflTransGen Turn desk failed :=
    (hpulled.tail (.enter client _)).tail .round
  exact counters_agree hfailed

end Desk

end GovernanceCache
