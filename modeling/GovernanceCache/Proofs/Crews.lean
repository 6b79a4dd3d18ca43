import GovernanceCache.Proofs.Chronicle
import GovernanceCache.Proofs.Deliveries
import GovernanceCache.Proofs.Flights
import GovernanceCache.Proofs.ReplicaPulls
import GovernanceCache.Refresher

/-!
# Crews

A crew is one replica with the threads that use it. A desk polls its callers one at a time, so that
an entry, the close of a pull, a clear and a close are whole there. Between the parts of these other
threads may come. A step of a crew is what one thread does under one lock, at one look at the closed
flag, or when it sets the gauge once; counters, which only add up, are bumped with the step beside
which they stand. What takes no lock (reads, the look at the flag, taking the number of entries)
comes before or after a merge or a reset of another thread, not in the middle of it.

1. `Post` says where a thread stands that is in the middle of something, and `Moves` what it can do
   next there; `Deed` is what it did.
2. A refresh leads a call or follows one. Its leader looks whether the replica is closed, takes its
   ticket, waits for the store, is accepted under the lock of the replica, merges before it gives
   the lock back, tells the metrics, publishes the number of entries, takes its call off the key,
   and ends it.
3. A clear resets the replica, forgets the call of its key and publishes that nothing is left. A
   close bars the replica and then lets the listeners go.
4. `Staffed` holds of every crew: the calls of the flights belong to the threads, and one thread at
   most holds the lock of the replica.
-/

namespace GovernanceCache

variable {R ι : Type}

/-! ## Threads and what they do -/

/-- A pull of a thread. -/
structure Crew.Pull where
  call : Nat
  ticket : Ticket
  /-- No clear was under way when the call was registered, and none came before the ticket. -/
  timely : Bool

/-- The pull of a thread that takes its ticket now. -/
def Crew.Pull.taken (m : Replica R ι) (now : Instant) (call : Nat) (mark : Option Nat) :
    Crew.Pull :=
  { call, ticket := (m.takeTicket now).2, timely := mark == some m.generation }

/-- Where a thread stands that is in the middle of something. -/
inductive Crew.Post (R : Type) where
  /-- It leads a call and is to look whether the replica is closed. The mark is the generation in
  which the call was registered, if no clear was under way. -/
  | registered (call : Nat) (mark : Option Nat)
  /-- It saw that the replica was not closed, and is to take its ticket. -/
  | admitted (call : Nat) (mark : Option Nat)
  /-- It waits for the store. -/
  | pulling (pull : Crew.Pull)
  /-- It holds the lock of the replica, and is to merge its batch. -/
  | merging (pull : Crew.Pull) (batch : List R)
  /-- It merged, and is to tell the metrics. -/
  | merged (pull : Crew.Pull) (changes : List (Change R))
  /-- It took the number of entries, and is to publish it. -/
  | measured (pull : Crew.Pull) (size : Nat)
  /-- Its pull is over, and it is to take its call off the key. -/
  | leaving (call : Nat) (result : Outcome)
  /-- Its call is off the key, and its followers are to learn how it ended. -/
  | parting (call : Nat) (progress : Progress Outcome)
  /-- It waits for the call of another thread. -/
  | following (call : Nat)
  /-- It reset the replica to the generation, and is to forget the call of its key. -/
  | clearing (generation : Nat)
  /-- It forgot the call, and is to publish that no entry is left. -/
  | cleared (generation : Nat)
  /-- It barred the replica, and is to let the listeners go. -/
  | closing
  /-- It leads a call of another key. -/
  | away (key : String) (call : Nat)

/-- What a thread did in a step. -/
inductive Crew.Deed (R ι : Type) where
  | led (call : Nat)
  | followed (call : Nat)
  | admitted (call : Nat)
  /-- It found the replica closed before it asked the store. -/
  | refused (call : Nat)
  /-- It took its ticket, seeing the replica as it was, and asked the store. -/
  | asked (pull : Crew.Pull) (seen : Replica R ι)
  | gaveUp (pull : Crew.Pull) (fault : Fault)
  | accepted (pull : Crew.Pull) (batch : List R)
  /-- It merged its batch into the replica as it was. -/
  | merged (pull : Crew.Pull) (batch : List R) (into : Replica R ι)
  /-- It told the metrics its changes, and took the number of entries. -/
  | counted (pull : Crew.Pull) (changes : List (Change R)) (size : Nat)
  | shown (pull : Crew.Pull) (size : Nat)
  /-- It was dropped together with its pull. -/
  | dropped (pull : Crew.Pull)
  /-- Its call is off the key. -/
  | left (call : Nat)
  /-- It ended, and its followers can learn how. -/
  | ended (call : Nat) (progress : Progress Outcome)
  | shared (call : Nat) (result : Outcome)
  /-- It was dropped while it followed a call. -/
  | quit (call : Nat)
  /-- It dropped so many entries, and the generation began. -/
  | reset (entries generation : Nat)
  | forgot
  /-- It published that the generation began with no entry. -/
  | emptied (generation : Nat)
  | barred
  | dismissed
  /-- It read, listened, or used the flights under another key. -/
  | aside

/-- A replica with its flights, and the threads that are in the middle of something. -/
structure Crew (R ι : Type) where
  refresher : Refresher R ι
  posts : List (Crew.Post R) := []

namespace Crew

namespace Post

/-- The call that the thread leads, under its key. -/
def lead? (key : String) : Post R → Option (String × Nat)
  | .registered call _ | .admitted call _ | .leaving call _ | .parting call _ => some (key, call)
  | .pulling p | .merging p _ | .merged p _ | .measured p _ => some (key, p.call)
  | .away other call => some (other, call)
  | _ => none

/-- The pull of the thread, from its ticket until it is over. -/
def pull? : Post R → Option Pull
  | .pulling p | .merging p _ | .merged p _ | .measured p _ => some p
  | _ => none

/-- The thread holds the lock of the replica. -/
def isMerging : Post R → Bool
  | .merging .. => true
  | _ => false

def isClearing : Post R → Bool
  | .clearing _ => true
  | _ => false

end Post

/-- None of the threads holds the lock of the replica. -/
def Unlocked (posts : List (Post R)) : Prop := ∀ p ∈ posts, p.isMerging = false

instance (posts : List (Post R)) : Decidable (Unlocked posts) :=
  inferInstanceAs (Decidable (∀ p ∈ posts, p.isMerging = false))

/-- The mark of a thread that registers a call beside others. -/
def markBeside (generation : Nat) (others : List (Post R)) : Option Nat :=
  if others.any Post.isClearing then none else some generation

section

variable [Record R] [Index R ι]

/-- What a thread can do beside others, from where it stands to where it stands then; it is nowhere
before it begins something and after it ended it. -/
inductive Moves (r : Refresher R ι) (others : List (Post R)) :
    Option (Post R) → Deed R ι → Option (Post R) → Refresher R ι → Prop
  | lead (flights : SingleFlight Outcome) (call : Nat)
    (h : r.flights.enter r.key = (flights, .leader, call)) :
    Moves r others none (.led call)
      (some (.registered call (markBeside r.replica.generation others))) { r with flights }
  | follow (call : Nat) (h : r.flights.enter r.key = (r.flights, .follower, call)) :
    Moves r others none (.followed call) (some (.following call)) r
  | proceed (call : Nat) (mark : Option Nat) (h : r.replica.closed = false) :
    Moves r others (some (.registered call mark)) (.admitted call) (some (.admitted call mark)) r
  | refuse (call : Nat) (mark : Option Nat) (h : r.replica.closed = true) :
    Moves r others (some (.registered call mark)) (.refused call)
      (some (.leaving call (.error (.closed r.key)))) r
  | ask (call : Nat) (mark : Option Nat) (now : Instant) (hu : Unlocked others) :
    Moves r others (some (.admitted call mark)) (.asked (.taken r.replica now call mark) r.replica)
      (some (.pulling (.taken r.replica now call mark)))
      { r with replica := (r.replica.takeTicket now).1 }
  /-- The store fails or answers with a malformed record, or the lock is taken to find the replica
  closed or cleared. -/
  | giveUp (pull : Pull) (answer : Answer R) (fault : Fault)
    (h : r.replica.verdict pull.ticket answer = .error fault)
    (hu : fault.isFailure = false → Unlocked others) :
    Moves r others (some (.pulling pull)) (.gaveUp pull fault)
      (some (.leaving pull.call (.error fault))) { r with replica := r.replica.giveUp fault }
  | accept (pull : Pull) (batch : List R)
    (h : r.replica.verdict pull.ticket (.ok batch) = .ok batch) (hu : Unlocked others) :
    Moves r others (some (.pulling pull)) (.accepted pull batch) (some (.merging pull batch)) r
  | merge (pull : Pull) (batch : List R) :
    Moves r others (some (.merging pull batch)) (.merged pull batch r.replica)
      (some (.merged pull (r.replica.mergeBatch pull.ticket batch).2))
      { r with replica := (r.replica.mergeBatch pull.ticket batch).1 }
  | count (pull : Pull) (changes : List (Change R)) :
    Moves r others (some (.merged pull changes)) (.counted pull changes r.replica.size)
      (some (.measured pull r.replica.size))
      { r with replica := r.replica.countMerged changes }
  | publish (pull : Pull) (size : Nat) :
    Moves r others (some (.measured pull size)) (.shown pull size)
      (some (.leaving pull.call (.ok ()))) { r with replica := r.replica.finishPull size }
  | drop (pull : Pull) :
    Moves r others (some (.pulling pull)) (.dropped pull) (some (.parting pull.call .abandoned))
      { r with flights := r.flights.unregister r.key pull.call }
  | leave (call : Nat) (result : Outcome) :
    Moves r others (some (.leaving call result)) (.left call)
      (some (.parting call (.finished result)))
      { r with flights := r.flights.unregister r.key call }
  /-- The guard of the call is gone, which takes the call off its key once more. -/
  | endCall (call : Nat) (progress : Progress Outcome) :
    Moves r others (some (.parting call progress)) (.ended call progress) none
      { r with flights := r.flights.close r.key call progress }
  | share (call : Nat) (r' : Refresher R ι) (result : Outcome)
    (h : r.share? call = some (r', result)) :
    Moves r others (some (.following call)) (.shared call result) none r'
  | quit (call : Nat) : Moves r others (some (.following call)) (.quit call) none r
  | reset (hu : Unlocked others) :
    Moves r others none (.reset r.replica.size (r.replica.generation + 1))
      (some (.clearing (r.replica.generation + 1))) { r with replica := r.replica.reset }
  | forget (generation : Nat) :
    Moves r others (some (.clearing generation)) .forgot (some (.cleared generation))
      { r with flights := r.flights.forget r.key }
  | empty (generation : Nat) :
    Moves r others (some (.cleared generation)) (.emptied generation) none
      { r with replica := r.replica.showSize 0 }
  | bar : Moves r others none .barred (some .closing) { r with replica := r.replica.bar }
  | dismiss : Moves r others (some .closing) .dismissed none
      { r with replica := r.replica.dismiss }
  | read (key : String) : Moves r others none .aside none
      { r with replica := (r.replica.get key).1 }
  | listen (step : Listening) : Moves r others none .aside none
      { r with replica := { r.replica with feed := r.replica.feed.listen step } }
  | leadAway (key : String) (flights : SingleFlight Outcome) (call : Nat) (hk : key ≠ r.key)
    (h : r.flights.enter key = (flights, .leader, call)) :
    Moves r others none .aside (some (.away key call)) { r with flights }
  | finishAway (key : String) (call : Nat) (result : Outcome) :
    Moves r others (some (.away key call)) .aside none
      { r with flights := r.flights.finish key call result }
  | abandonAway (key : String) (call : Nat) : Moves r others (some (.away key call)) .aside none
      { r with flights := r.flights.abandon key call }
  | forgetAway (key : String) (hk : key ≠ r.key) : Moves r others none .aside none
      { r with flights := r.flights.forget key }

/-- One thread of a crew moves. -/
inductive Step (s : Crew R ι) : Deed R ι → Crew R ι → Prop
  | move (before after : List (Post R)) (p q : Option (Post R)) (deed : Deed R ι)
    (r : Refresher R ι) (hp : s.posts = before ++ p.toList ++ after)
    (hm : Moves s.refresher (before ++ after) p deed q r) :
    Step s deed { refresher := r, posts := before ++ q.toList ++ after }

/-- The threads of a crew move one after the other; what they did, the newest first. -/
inductive Steps (s : Crew R ι) : List (Deed R ι) → Crew R ι → Prop
  | refl : Steps s [] s
  | step {log : List (Deed R ι)} {s' s'' : Crew R ι} {deed : Deed R ι} :
    Steps s log s' → Step s' deed s'' → Steps s (deed :: log) s''

/-- A crew of an empty replica. -/
def start (kind : CacheKind) (skew : Span) (buffer : Nat) : Crew R ι :=
  { refresher := { flights := {}, replica := .create kind skew buffer } }

/-! ## What a move leaves alone -/

variable {r r' : Refresher R ι} {others : List (Post R)} {p q : Option (Post R)} {deed : Deed R ι}
  {s s' : Crew R ι} {log : List (Deed R ι)}

namespace Deed

/-- The thread emptied the replica. -/
def isReset : Deed R ι → Bool
  | .reset .. => true
  | _ => false

def isMerge : Deed R ι → Bool
  | .merged .. => true
  | _ => false

/-- The entries, the watermark or the first-load flag of the replica may have changed. -/
def disturbs (e : Deed R ι) : Bool := e.isMerge || e.isReset

end Deed

omit [Record R] [Index R ι] in
theorem share?_eq_some {call : Nat} {result : Outcome} (h : r.share? call = some (r', result)) :
    r' = { r with replica := r.replica.countShared } ∧
      r.flights.resultFor r.key call = some result := by
  obtain ⟨found, hfound, heq⟩ := Option.map_eq_some_iff.mp h
  cases heq
  exact ⟨rfl, hfound⟩

/-- Only merges and clears touch the contents of the replica and how far it has come. -/
theorem Moves.alike (hm : Moves r others p deed q r') (hmerge : deed.isMerge = false)
    (hreset : deed.isReset = false) : r.replica.Alike r'.replica := by
  cases hm with
  | merge => cases hmerge
  | reset => cases hreset
  | giveUp pull answer fault => exact r.replica.giveUp_alike fault
  | share call r' result h =>
    rw [(share?_eq_some h).1]
    exact ⟨rfl, rfl, rfl, rfl, rfl, rfl⟩
  | _ => exact ⟨rfl, rfl, rfl, rfl, rfl, rfl⟩

/-- No move changes what the replica was made with. -/
theorem Moves.kind_skew (hm : Moves r others p deed q r') :
    r'.replica.kind = r.replica.kind ∧ r'.replica.skew = r.replica.skew := by
  rcases hmerge : deed.isMerge with _ | _
  · rcases hreset : deed.isReset with _ | _
    · have halike := hm.alike hmerge hreset
      exact ⟨halike.kind, halike.skew⟩
    · cases hm <;> first | exact ⟨rfl, rfl⟩ | cases hreset
  · cases hm <;> first | exact ⟨rfl, rfl⟩ | cases hmerge

theorem Moves.kind (hm : Moves r others p deed q r') : r'.replica.kind = r.replica.kind :=
  hm.kind_skew.1

theorem Moves.key (hm : Moves r others p deed q r') : r'.key = r.key :=
  congrArg CacheKind.name hm.kind

/-! ## Calls and the lock -/

/-- Numbers of calls are given out in turn. -/
theorem Moves.next_le (hm : Moves r others p deed q r') : r.flights.next ≤ r'.flights.next := by
  cases hm with
  | lead flights call hl =>
    obtain ⟨-, rfl, -⟩ := SingleFlight.of_enter_leader hl
    exact Nat.le_succ _
  | leadAway key flights call hk hl =>
    obtain ⟨-, rfl, -⟩ := SingleFlight.of_enter_leader hl
    exact Nat.le_succ _
  | drop pull => exact Nat.le_of_eq (SingleFlight.unregister_next _ _ _).symm
  | leave call result => exact Nat.le_of_eq (SingleFlight.unregister_next _ _ _).symm
  | endCall call progress => exact Nat.le_of_eq (SingleFlight.close_next _ _ _ _).symm
  | finishAway key call result =>
    exact Nat.le_of_eq (SingleFlight.close_next _ _ _ (.finished result)).symm
  | abandonAway key call => exact Nat.le_of_eq (SingleFlight.close_next _ _ _ .abandoned).symm
  | share call r' result hr =>
    obtain ⟨rfl, -⟩ := share?_eq_some hr
    exact Nat.le_refl _
  | _ => exact Nat.le_refl _

/-- The calls that the threads lead. -/
def leads (key : String) (posts : List (Post R)) : List (String × Nat) :=
  posts.filterMap (Post.lead? key)

/-- The calls of the flights belong to the threads of the crew, and one of them at most holds the
lock of the replica. -/
structure Staffed (s : Crew R ι) : Prop where
  led : s.refresher.flights.Led (leads s.refresher.key s.posts)
  abroad : ∀ key call, .away key call ∈ s.posts → key ≠ s.refresher.key
  /-- Nobody follows a call of another key. -/
  joined : ∀ call, .following call ∈ s.posts →
    call < s.refresher.flights.next ∧ ∀ key, .away key call ∉ s.posts
  alone : s.posts.countP Post.isMerging ≤ 1

theorem Moves.led (hm : Moves r others p deed q r')
    (h : r.flights.Led (leads r.key (p.toList ++ others))) :
    r'.flights.Led (leads r'.key (q.toList ++ others)) := by
  rw [hm.key]
  cases hm with
  | lead flights call hl =>
    obtain ⟨-, rfl, rfl⟩ := SingleFlight.of_enter_leader hl
    exact SingleFlight.Led.lead h r.key
  | drop pull => exact SingleFlight.Led.unregister h r.key pull.call
  | leave call result => exact SingleFlight.Led.unregister h r.key call
  | endCall call progress => exact SingleFlight.Led.close_head h progress
  | share call r' result hr =>
    rw [(share?_eq_some hr).1]
    exact h
  | forget generation => exact SingleFlight.Led.forget h r.key
  | leadAway key flights call hk hl =>
    obtain ⟨-, rfl, rfl⟩ := SingleFlight.of_enter_leader hl
    exact SingleFlight.Led.lead h key
  | finishAway key call result => exact SingleFlight.Led.close_head h (.finished result)
  | abandonAway key call => exact SingleFlight.Led.close_head h .abandoned
  | forgetAway key hk => exact SingleFlight.Led.forget h key
  | _ => exact h

theorem perm_split {α : Type} (before after : List α) (p : Option α) :
    (before ++ p.toList ++ after).Perm (p.toList ++ (before ++ after)) := by
  rw [← List.append_assoc]
  exact List.perm_append_comm.append_right after

theorem mem_split {α : Type} {before after : List α} {p : Option α} {a : α} :
    a ∈ before ++ p.toList ++ after ↔ p = some a ∨ a ∈ before ++ after := by
  rw [(perm_split before after p).mem_iff, List.mem_append, Option.mem_toList]

theorem countP_split {α : Type} (test : α → Bool) (before after : List α) (p : Option α) :
    (before ++ p.toList ++ after).countP test =
      (before ++ after).countP test + p.toList.countP test := by
  rw [(perm_split before after p).countP_eq, List.countP_append, Nat.add_comm]

/-- Whoever takes the lock finds it free. -/
theorem Moves.unlocked (hm : Moves r others p deed q r') (hq : q.toList.countP Post.isMerging ≠ 0) :
    Unlocked others ∧ q.toList.countP Post.isMerging = 1 := by
  cases hm with
  | accept pull batch h hu => exact ⟨hu, rfl⟩
  | _ => exact absurd rfl hq

namespace Staffed

theorem joined_move (h : Staffed s) {before after : List (Post R)}
    (hp : s.posts = before ++ p.toList ++ after)
    (hm : Moves s.refresher (before ++ after) p deed q r') {call : Nat}
    (hw : q = some (.following call) ∨ .following call ∈ before ++ after) :
    call < r'.flights.next ∧ ∀ key, .away key call ∉ before ++ q.toList ++ after := by
  have hlead : ∀ key n, .away key n ∈ s.posts →
      (key, n) ∈ leads s.refresher.key s.posts :=
    fun key n hmem => List.mem_filterMap.mpr ⟨_, hmem, rfl⟩
  rcases hw with rfl | hw
  · cases hm with
    | follow call hf =>
      -- the call that it joins is registered under the key of the replica
      have hcurrent := h.led.registered _ _ (SingleFlight.of_enter_follower hf)
      refine ⟨h.led.call_lt hcurrent, fun key hmem => ?_⟩
      have hmem : .away key call ∈ s.posts := by
        rcases mem_split.mp hmem with heq | hmem
        · cases heq
        · exact hp ▸ mem_split.mpr (.inr hmem)
      exact h.abroad key call hmem (h.led.key_unique (hlead key call hmem) hcurrent)
  · obtain ⟨hlt, haway⟩ := h.joined call (hp ▸ mem_split.mpr (.inr hw))
    refine ⟨Nat.lt_of_lt_of_le hlt hm.next_le, fun key hmem => ?_⟩
    rcases mem_split.mp hmem with rfl | hmem
    · cases hm with
      | leadAway key flights call hk hl =>
        obtain ⟨-, -, rfl⟩ := SingleFlight.of_enter_leader hl
        exact Nat.lt_irrefl _ hlt
    · exact haway key (hp ▸ mem_split.mpr (.inr hmem))

theorem step (h : Staffed s) (hs : Step s deed s') : Staffed s' := by
  cases hs with
  | move before after p q deed r hp hm =>
    have hled := h.led
    refine ⟨?_, ?_, ?_, ?_⟩
    · rw [hp] at hled
      have hmoved := hm.led (hled.perm ((perm_split before after p).filterMap _))
      exact hmoved.perm ((perm_split before after q).filterMap _).symm
    · intro key call hmem
      rw [hm.key]
      rcases mem_split.mp hmem with rfl | hmem
      · cases hm with
        | leadAway key flights call hk hl => exact hk
      · exact h.abroad key call (by rw [hp]; exact mem_split.mpr (.inr hmem))
    · exact fun call hmem => h.joined_move hp hm (mem_split.mp hmem)
    · have halone := h.alone
      rw [hp, countP_split] at halone
      rw [countP_split]
      by_cases hq : q.toList.countP Post.isMerging = 0
      · omega
      · obtain ⟨hfree, hone⟩ := hm.unlocked hq
        have hnone : (before ++ after).countP Post.isMerging = 0 :=
          List.countP_eq_zero.mpr fun w hw => by rw [hfree w hw]; exact Bool.false_ne_true
        omega

omit [Record R] in
theorem start (kind : CacheKind) (skew : Span) (buffer : Nat) :
    Staffed (start kind skew buffer : Crew R ι) where
  led := .empty
  abroad key call hmem := by cases hmem
  joined call hmem := by cases hmem
  alone := Nat.zero_le 1

theorem steps (h : Staffed s) (hs : Steps s log s') : Staffed s' := by
  induction hs with
  | refl => exact h
  | step _ hstep ih => exact ih.step hstep

variable {before after : List (Post R)} {l l' : String × Nat} {w : Post R}

omit [Record R] [Index R ι] in
/-- No two threads lead one call. -/
theorem call_ne (h : Staffed s) (hp : s.posts = before ++ p.toList ++ after)
    (hl : p.bind (Post.lead? s.refresher.key) = some l) (hw : w ∈ before ++ after)
    (hl' : w.lead? s.refresher.key = some l') : l'.2 ≠ l.2 := by
  have hled := h.led
  obtain ⟨p, rfl, hl⟩ := Option.bind_eq_some_iff.mp hl
  rw [hp] at hled
  have hdistinct := (hled.perm ((perm_split before after (some p)).filterMap _)).distinct
  have hcons : leads s.refresher.key ((some p).toList ++ (before ++ after)) =
      l :: leads s.refresher.key (before ++ after) := List.filterMap_cons_some hl
  unfold leads at hcons hdistinct
  rw [hcons, List.map_cons, List.nodup_cons] at hdistinct
  intro heq
  refine hdistinct.1 (List.mem_map.mpr ⟨l', ?_, heq⟩)
  exact List.mem_filterMap.mpr ⟨w, hw, hl'⟩

omit [Record R] [Index R ι] in
/-- One thread at most leads the call that the key has registered. -/
theorem countP_le_one (h : Staffed s) (test : Post R → Bool)
    (ht : ∀ w ∈ s.posts, test w = true → ∃ call, w.lead? s.refresher.key =
      some (s.refresher.key, call) ∧
        s.refresher.flights.current[s.refresher.key]? = some call) :
    s.posts.countP test ≤ 1 := by
  rcases hc : s.refresher.flights.current[s.refresher.key]? with _ | call
  · have hnone : s.posts.countP test = 0 := by
      refine List.countP_eq_zero.mpr fun w hw htest => ?_
      obtain ⟨call, -, hcall⟩ := ht w hw htest
      rw [hc] at hcall
      cases hcall
    omega
  · have hcount : s.posts.countP test ≤
        ((leads s.refresher.key s.posts).map Prod.snd).count call := by
      unfold leads
      rw [List.map_filterMap, List.count, List.countP_filterMap]
      refine List.countP_mono_left fun w hw htest => ?_
      obtain ⟨call', hlead, hcall⟩ := ht w hw htest
      rw [hc] at hcall
      cases hcall
      rw [hlead]
      simp
    exact Nat.le_trans hcount (List.nodup_iff_count_le_one.mp h.led.distinct call)

end Staffed

end

end Crew

end GovernanceCache
