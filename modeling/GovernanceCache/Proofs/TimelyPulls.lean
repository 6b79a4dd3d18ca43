import GovernanceCache.Namespaces
import GovernanceCache.Proofs.Crews

/-!
# Pulls of threads

A clear that comes between the registration of a call and the ticket of its pull, or that has not yet
forgotten the call of the key when another one is registered, lets two pulls of one generation run
beside each other. A pull is timely if neither happened to it.

1. `Calm` is what a thread can count on as long as the generation lasts that it saw: its call is the
   registered one, and no clear is under way.
2. `Opened` is what is known of a pull that has not merged: nothing was reset since its ticket as
   long as the generation lasts, and if it is timely, no other timely pull merged.
3. `Paced` collects this with the law of the log, and every step of a crew keeps it.
-/

namespace GovernanceCache.Crew

variable {R ι : Type}

/-! ## Timely pulls -/

namespace Post

/-- The call of a thread and the generation in which it was registered with no clear under way. -/
def claim? : Post R → Option (Nat × Nat)
  | .registered call mark | .admitted call mark => mark.map fun generation => (call, generation)
  | .pulling p | .merging p _ | .merged p _ | .measured p _ =>
    if p.timely then some (p.call, p.ticket.generation) else none
  | _ => none

/-- The call of a thread that has not taken its ticket, and its mark. -/
def entry? : Post R → Option (Nat × Option Nat)
  | .registered call mark | .admitted call mark => some (call, mark)
  | _ => none

/-- The pull of a thread that has not merged, and the batch with which it was accepted. -/
def open? : Post R → Option (Pull × Option (List R))
  | .pulling p => some (p, none)
  | .merging p batch => some (p, some batch)
  | _ => none

/-- The pull of the thread runs, and is of the generation. -/
def pullsIn (generation : Nat) (w : Post R) : Bool :=
  w.pull?.any fun p => p.ticket.generation == generation

/-- It is timely besides. -/
def pullsTimely (generation : Nat) (w : Post R) : Bool :=
  w.pull?.any fun p => p.timely && p.ticket.generation == generation

end Post

namespace Deed

/-- A timely pull merged its batch. -/
def isTimelyMerge : Deed R ι → Bool
  | .merged p .. => p.timely
  | _ => false

/-- The thread forgot the call of the key after a reset. -/
def isForgotten : Deed R ι → Bool
  | .forgot => true
  | _ => false

/-- A pull that is not timely took its ticket. -/
def isUntimely : Deed R ι → Bool
  | .asked p _ => !p.timely
  | _ => false

end Deed

/-- The call was registered while no clear was under way, and none has begun since, if and only if
the statement holds. -/
def Entered (log : List (Deed R ι)) (call : Nat) (timely : Prop) : Prop :=
  ∃ later earlier, log = later ++ .led call :: earlier ∧
    (timely ↔ (∀ e ∈ later, e.isReset = false) ∧
      earlier.countP Deed.isReset = earlier.countP Deed.isForgotten)

/-- What may be done after the earlier deeds: tickets are computed from the replica as it is, and a
batch is merged with no reset since its ticket. No timely pull merges between the ticket and the
merge of another one. -/
def PullLaw (earlier : List (Deed R ι)) : Deed R ι → Prop
  | .asked p seen =>
    p.ticket.since = seen.watermark.since seen.skew ∧ p.ticket.firstLoad = seen.firstLoad ∧
      Entered earlier p.call (p.timely = true)
  | .merged p batch into => ∃ between seen older,
    earlier = between ++ .asked p seen :: older ∧ .accepted p batch ∈ between ∧
      (∀ e ∈ between, e.isReset = false) ∧
      (p.timely = true → ∀ e ∈ between, e.isTimelyMerge = false) ∧
      ((∀ e ∈ between, e.isMerge = false) → seen.Alike into)
  | _ => True

/-! ## What threads can count on -/

/-- The call is the registered one, and no clear is under way. -/
structure Calm (r : Refresher R ι) (posts : List (Post R)) (call : Nat) : Prop where
  current : r.flights.current[r.key]? = some call
  still : ∀ w ∈ posts, w.isClearing = false

/-- What is known of a pull that has not merged, given the replica and the batch with which it was
accepted. -/
structure Opened (m : Replica R ι) (log : List (Deed R ι)) (p : Pull) (reply : Option (List R)) :
    Prop where
  generation : p.ticket.generation ≤ m.generation
  told : ∃ later seen earlier, log = later ++ .asked p seen :: earlier ∧
    (∀ batch, reply = some batch → .accepted p batch ∈ later) ∧
    (p.ticket.generation = m.generation → (∀ e ∈ later, e.isReset = false) ∧
      (p.timely = true → ∀ e ∈ later, e.isTimelyMerge = false) ∧
      ((∀ e ∈ later, e.isMerge = false) → seen.Alike m))

/-- The pull took its ticket, and is of the generation if nothing was reset since. -/
def Dated (log : List (Deed R ι)) (generation : Nat) (p : Pull) : Prop :=
  p.ticket.generation ≤ generation ∧ ∃ later seen earlier,
    log = later ++ .asked p seen :: earlier ∧
      (p.ticket.generation = generation ↔ ∀ e ∈ later, e.isReset = false)

variable {r r' : Refresher R ι} {others : List (Post R)} {p q : Option (Post R)} {deed : Deed R ι}
  {call g : Nat} {m m' : Replica R ι} {log : List (Deed R ι)} {pull : Pull}
  {reply : Option (List R)}

namespace Opened

/-- Deeds that are no merge and no reset leave the replica alike. -/
theorem keep (h : Opened m log pull reply) (hm : m.Alike m') (hmerge : deed.isMerge = false)
    (hreset : deed.isReset = false) {reply' : Option (List R)}
    (hr : ∀ batch, reply' = some batch → reply = some batch ∨ deed = .accepted pull batch) :
    Opened m' (deed :: log) pull reply' := by
  obtain ⟨hle, later, seen, earlier, rfl, hreply, hnow⟩ := h
  have htimely : deed.isTimelyMerge = false := by
    cases deed <;> first | rfl | cases hmerge
  refine ⟨hm.generation.symm ▸ hle, deed :: later, seen, earlier, rfl, ?_, ?_⟩
  · intro batch hb
    rcases hr batch hb with hb | rfl
    · exact List.mem_cons_of_mem _ (hreply batch hb)
    · exact List.mem_cons_self
  · intro hgen
    obtain ⟨h₁, h₂, h₃⟩ := hnow (hgen.trans hm.generation)
    refine ⟨List.forall_mem_cons.mpr ⟨hreset, h₁⟩, ?_, ?_⟩
    · exact fun ht => List.forall_mem_cons.mpr ⟨htimely, h₂ ht⟩
    · exact fun hall => (h₃ (List.forall_mem_cons.mp hall).2).trans hm

/-- Another pull merges; it is not timely, if this one is and is of the generation. -/
theorem beside (h : Opened m log pull reply) (hgen : m'.generation = m.generation)
    (hmerge : deed.isMerge = true)
    (ht : pull.timely = true → pull.ticket.generation = m.generation →
      deed.isTimelyMerge = false) : Opened m' (deed :: log) pull reply := by
  obtain ⟨hle, later, seen, earlier, rfl, hreply, hnow⟩ := h
  have hreset : deed.isReset = false := by
    cases deed <;> first | rfl | cases hmerge
  refine ⟨hgen.symm ▸ hle, deed :: later, seen, earlier, rfl, ?_, ?_⟩
  · exact fun batch hb => List.mem_cons_of_mem _ (hreply batch hb)
  · intro heq
    obtain ⟨h₁, h₂, -⟩ := hnow (heq.trans hgen)
    refine ⟨List.forall_mem_cons.mpr ⟨hreset, h₁⟩, ?_, ?_⟩
    · exact fun htime => List.forall_mem_cons.mpr ⟨ht htime (heq.trans hgen), h₂ htime⟩
    · intro hall
      rw [(List.forall_mem_cons.mp hall).1] at hmerge
      cases hmerge

/-- A reset makes every pull one of an older generation. -/
theorem outdate (h : Opened m log pull reply) (hgen : m'.generation = m.generation + 1)
    (deed : Deed R ι) : Opened m' (deed :: log) pull reply := by
  obtain ⟨hle, later, seen, earlier, rfl, hreply, -⟩ := h
  refine ⟨by omega, deed :: later, seen, earlier, rfl, ?_, ?_⟩
  · exact fun batch hb => List.mem_cons_of_mem _ (hreply batch hb)
  · intro heq
    omega

theorem of_asked (now : Instant) (call : Nat) (mark : Option Nat) :
    Opened (m.takeTicket now).1 (.asked (.taken m now call mark) m :: log)
      (.taken m now call mark) none where
  generation := Nat.le_refl _
  told := ⟨[], m, log, rfl, nofun,
    fun _ => ⟨List.forall_mem_nil _, fun _ => List.forall_mem_nil _,
      fun _ => m.takeTicket_alike now⟩⟩

end Opened

namespace Calm

variable [Record R] [Index R ι]

omit [Record R] [Index R ι] in
/-- A move that leaves the flights alone and begins no clear. -/
theorem move (h : Calm r (p.toList ++ others) call) (hf : r'.flights = r.flights)
    (hk : r'.key = r.key) (hq : q.any Post.isClearing = false) :
    Calm r' (q.toList ++ others) call := by
  refine ⟨by rw [hf, hk]; exact h.current, ?_⟩
  intro w hw
  rcases List.mem_append.mp hw with hw | hw
  · rw [Option.mem_toList.mp hw] at hq
    exact hq
  · exact h.still w (List.mem_append_right _ hw)

/-- Nobody but its leader and a clear takes the registered call off its key. -/
theorem keep (h : Calm r (p.toList ++ others) call) (hm : Moves r others p deed q r')
    (hreset : deed.isReset = false)
    (hne : ∀ l, p.bind (Post.lead? r.key) = some l → call ≠ l.2) :
    Calm r' (q.toList ++ others) call := by
  have hclose : ∀ key call' progress, call ≠ call' →
      (r.flights.close key call' progress).current[r.key]? = some call :=
    fun key call' progress hcall =>
      SingleFlight.close_current_eq_some.mpr ⟨h.current, fun heq => hcall heq.2⟩
  have hoff : ∀ call', call ≠ call' →
      (r.flights.unregister r.key call').current[r.key]? = some call :=
    fun call' hcall => SingleFlight.unregister_current_eq_some.mpr
      ⟨h.current, fun heq => hcall heq.2⟩
  have hothers : ∀ w ∈ others, w.isClearing = false :=
    fun w hw => h.still w (List.mem_append_right _ hw)
  cases hm with
  | lead flights call' hl =>
    have hfree := (SingleFlight.of_enter_leader hl).1
    rw [h.current] at hfree
    cases hfree
  | drop pull => exact ⟨hoff pull.call (hne _ rfl), List.forall_mem_cons.mpr ⟨rfl, hothers⟩⟩
  | leave call' result => exact ⟨hoff call' (hne _ rfl), List.forall_mem_cons.mpr ⟨rfl, hothers⟩⟩
  | endCall call' progress => exact ⟨hclose r.key call' progress (hne _ rfl), hothers⟩
  | forget generation => exact absurd (h.still (.clearing generation) List.mem_cons_self) nofun
  | reset => cases hreset
  | share call' r' result hr =>
    rw [(share?_eq_some hr).1]
    exact ⟨h.current, hothers⟩
  | leadAway key flights call' hk hl =>
    obtain ⟨-, rfl, -⟩ := SingleFlight.of_enter_leader hl
    refine ⟨?_, List.forall_mem_cons.mpr ⟨rfl, hothers⟩⟩
    show (r.flights.lead key).current[r.key]? = some call
    rw [SingleFlight.lead_current, if_neg hk]
    exact h.current
  | finishAway key call' result => exact ⟨hclose key call' _ (hne _ rfl), hothers⟩
  | abandonAway key call' => exact ⟨hclose key call' _ (hne _ rfl), hothers⟩
  | forgetAway key hk =>
    exact ⟨SingleFlight.forget_current_eq_some.mpr ⟨h.current, hk.symm⟩, hothers⟩
  | giveUp pull answer fault =>
    exact h.move rfl (congrArg CacheKind.name (r.replica.giveUp_alike fault).kind) rfl
  | _ => exact h.move rfl rfl rfl

end Calm

/-! ## Every step -/

variable {s s' : Crew R ι} {before after : List (Post R)} {w : Post R}

theorem Post.lead?_of_claim {key : String} (h : w.claim? = some (call, g)) :
    w.lead? key = some (key, call) := by
  cases w with
  | registered | admitted =>
    simp only [claim?, Option.map_eq_some_iff, Prod.mk.injEq] at h
    obtain ⟨_, -, rfl, -⟩ := h
    rfl
  | pulling | merging | merged | measured =>
    simp only [claim?, Option.ite_none_right_eq_some, Option.some.injEq, Prod.mk.injEq] at h
    obtain ⟨-, rfl, -⟩ := h
    rfl
  | _ => cases h

theorem Post.lead?_of_entry {key : String} {mark : Option Nat} (h : w.entry? = some (call, mark)) :
    w.lead? key = some (key, call) := by
  cases w with
  | registered | admitted =>
    cases h
    rfl
  | _ => cases h

theorem Post.pull?_of_open (h : w.open? = some (pull, reply)) : w.pull? = some pull := by
  cases w with
  | pulling | merging =>
    cases h
    rfl
  | _ => cases h

theorem Post.claim?_of_pull (h : w.pull? = some pull) (ht : pull.timely = true) :
    w.claim? = some (pull.call, pull.ticket.generation) := by
  cases w with
  | pulling | merging | merged | measured =>
    cases h
    exact if_pos ht
  | _ => cases h

/-- What the threads of a crew can count on, and what they did. -/
structure Paced (log : List (Deed R ι)) (s : Crew R ι) : Prop where
  staffed : Staffed s
  calm : ∀ w ∈ s.posts, ∀ call g, w.claim? = some (call, g) →
    g ≤ s.refresher.replica.generation ∧
      (g = s.refresher.replica.generation → Calm s.refresher s.posts call)
  entered : ∀ w ∈ s.posts, ∀ call mark, w.entry? = some (call, mark) →
    Entered log call (mark = some s.refresher.replica.generation)
  /-- The clears that are under way are those that have reset and not forgotten. -/
  clears : log.countP Deed.isReset = log.countP Deed.isForgotten + s.posts.countP Post.isClearing
  dated : ∀ w ∈ s.posts, ∀ pull, w.pull? = some pull →
    Dated log s.refresher.replica.generation pull
  opened : ∀ w ∈ s.posts, ∀ pull reply, w.open? = some (pull, reply) →
    Opened s.refresher.replica log pull reply
  /-- Whoever holds the lock holds it in the generation of its ticket. -/
  held : ∀ pull batch, .merging pull batch ∈ s.posts →
    pull.ticket.generation = s.refresher.replica.generation
  lawful : Chronicle PullLaw log

section

variable [Record R] [Index R ι]

theorem Moves.generation (hm : Moves r others p deed q r') (hreset : deed.isReset = false) :
    r'.replica.generation = r.replica.generation := by
  rcases hmerge : deed.isMerge with _ | _
  · exact (hm.alike hmerge hreset).generation
  · cases hm <;> first | rfl | cases hmerge

theorem Moves.generation_succ (hm : Moves r others p deed q r') (hreset : deed.isReset = true) :
    r'.replica.generation = r.replica.generation + 1 ∧ Unlocked others ∧ p = none := by
  cases hm with
  | reset hu => exact ⟨rfl, hu, rfl⟩
  | _ => cases hreset

/-- A thread that registers a call can count on it, and goes on to do so as it moves. -/
theorem Moves.claims (hm : Moves r others p deed q r')
    (hp : ∀ call g, p.bind Post.claim? = some (call, g) → g ≤ r.replica.generation ∧
      (g = r.replica.generation → Calm r (p.toList ++ others) call))
    (hq : q.bind Post.claim? = some (call, g)) :
    g ≤ r'.replica.generation ∧
      (g = r'.replica.generation → Calm r' (q.toList ++ others) call) := by
  -- the thread moves on with the call and the generation that it has
  have keep : p.bind Post.claim? = some (call, g) → r'.flights = r.flights →
      r'.replica.generation = r.replica.generation → q.any Post.isClearing = false →
      g ≤ r'.replica.generation ∧
        (g = r'.replica.generation → Calm r' (q.toList ++ others) call) := by
    intro hclaim hf hgen hclear
    obtain ⟨hle, hcalm⟩ := hp call g hclaim
    rw [hgen]
    exact ⟨hle, fun hg => (hcalm hg).move hf hm.key hclear⟩
  cases hm with
  | lead flights call' hl =>
    obtain ⟨-, rfl, rfl⟩ := SingleFlight.of_enter_leader hl
    simp only [Option.bind_some, Post.claim?, markBeside, Option.map_eq_some_iff,
      Option.ite_none_left_eq_some, Option.some.injEq, Prod.mk.injEq] at hq
    obtain ⟨_, ⟨hnone, rfl⟩, rfl, rfl⟩ := hq
    refine ⟨Nat.le_refl _, fun _ => ⟨?_, ?_⟩⟩
    · show (r.flights.lead r.key).current[r.key]? = _
      rw [SingleFlight.lead_current, if_pos rfl]
    · refine List.forall_mem_cons.mpr ⟨rfl, fun w hw => ?_⟩
      exact Bool.eq_false_iff.mpr fun hclear => hnone (List.any_eq_true.mpr ⟨w, hw, hclear⟩)
  | proceed call' mark => exact keep hq rfl rfl rfl
  | ask call' mark now =>
    simp only [Option.bind_some, Post.claim?, Pull.taken, Option.ite_none_right_eq_some,
      Option.some.injEq, Prod.mk.injEq, beq_iff_eq] at hq
    obtain ⟨rfl, rfl, rfl⟩ := hq
    exact keep rfl rfl rfl rfl
  | accept pull batch => exact keep hq rfl rfl rfl
  | merge pull batch => exact keep hq rfl rfl rfl
  | count pull changes => exact keep hq rfl rfl rfl
  | _ => cases hq

omit [Record R] [Index R ι] in
theorem calm_split : Calm r (before ++ p.toList ++ after) call ↔
    Calm r (p.toList ++ (before ++ after)) call := by
  have hmem : ∀ w, w ∈ before ++ p.toList ++ after ↔ w ∈ p.toList ++ (before ++ after) :=
    fun w => (perm_split before after p).mem_iff
  constructor
  · exact fun h => ⟨h.current, fun w hw => h.still w ((hmem w).mpr hw)⟩
  · exact fun h => ⟨h.current, fun w hw => h.still w ((hmem w).mp hw)⟩

namespace Paced

omit [Record R] [Index R ι] in
/-- Two threads that can count on their calls in the generation are one. -/
theorem claim_unique (h : Paced log s) (hp : s.posts = before ++ p.toList ++ after)
    (hclaim : p.bind Post.claim? = some (call, s.refresher.replica.generation))
    (hw : w ∈ before ++ after) {call' : Nat} :
    w.claim? ≠ some (call', s.refresher.replica.generation) := by
  intro hclaim'
  obtain ⟨v, rfl, hv⟩ := Option.bind_eq_some_iff.mp hclaim
  have hv' : v ∈ s.posts := hp ▸ mem_split.mpr (.inl rfl)
  have hw' : w ∈ s.posts := hp ▸ mem_split.mpr (.inr hw)
  have hcall := ((h.calm v hv' call _ hv).2 rfl).current
  rw [((h.calm w hw' call' _ hclaim').2 rfl).current] at hcall
  exact h.staffed.call_ne hp (Post.lead?_of_claim hv) hw (Post.lead?_of_claim hclaim')
    (Option.some.inj hcall)

theorem calm_move (h : Paced log s) (hp : s.posts = before ++ p.toList ++ after)
    (hm : Moves s.refresher (before ++ after) p deed q r') (hw : q = some w ∨ w ∈ before ++ after)
    (hclaim : w.claim? = some (call, g)) :
    g ≤ r'.replica.generation ∧
      (g = r'.replica.generation → Calm r' (before ++ q.toList ++ after) call) := by
  have hcalm : ∀ w ∈ s.posts, ∀ call g, w.claim? = some (call, g) →
      g ≤ s.refresher.replica.generation ∧ (g = s.refresher.replica.generation →
        Calm s.refresher (p.toList ++ (before ++ after)) call) := by
    intro w hw call g hclaim
    obtain ⟨hle, hcalm⟩ := h.calm w hw call g hclaim
    refine ⟨hle, fun hg => ?_⟩
    have := hcalm hg
    rw [hp] at this
    exact calm_split.mp this
  rw [calm_split]
  rcases hw with rfl | hw
  · refine hm.claims (fun call g hcl => ?_) hclaim
    obtain ⟨v, rfl, hv⟩ := Option.bind_eq_some_iff.mp hcl
    exact hcalm v (hp ▸ mem_split.mpr (.inl rfl)) call g hv
  · obtain ⟨hle, hwas⟩ := hcalm w (hp ▸ mem_split.mpr (.inr hw)) call g hclaim
    rcases hreset : deed.isReset with _ | _
    · rw [hm.generation hreset]
      refine ⟨hle, fun hg => (hwas hg).keep hm hreset fun l hl => ?_⟩
      exact h.staffed.call_ne hp hl hw (Post.lead?_of_claim hclaim)
    · have hnext := (hm.generation_succ hreset).1
      exact ⟨by omega, fun hg => by omega⟩

theorem clears_move (h : Paced log s) (hp : s.posts = before ++ p.toList ++ after)
    (hm : Moves s.refresher (before ++ after) p deed q r') :
    (deed :: log).countP Deed.isReset = (deed :: log).countP Deed.isForgotten +
      (before ++ q.toList ++ after).countP Post.isClearing := by
  have hclears := h.clears
  rw [hp, countP_split] at hclears
  rw [countP_split]
  cases hm with
  | reset hu =>
    rw [List.countP_cons_of_pos rfl, List.countP_cons_of_neg Bool.false_ne_true, hclears]
    rfl
  | forget =>
    rw [List.countP_cons_of_neg Bool.false_ne_true, List.countP_cons_of_pos rfl, hclears]
    show log.countP Deed.isForgotten + ((before ++ after).countP Post.isClearing + 1) =
      log.countP Deed.isForgotten + 1 + (before ++ after).countP Post.isClearing
    omega
  | _ => exact hclears

theorem entered_move (h : Paced log s) (hp : s.posts = before ++ p.toList ++ after)
    (hm : Moves s.refresher (before ++ after) p deed q r') (hw : q = some w ∨ w ∈ before ++ after)
    {mark : Option Nat} (hentry : w.entry? = some (call, mark)) :
    Entered (deed :: log) call (mark = some r'.replica.generation) := by
  -- the mark of a thread that was there before
  have keep : ∀ w ∈ s.posts, w.entry? = some (call, mark) →
      Entered (deed :: log) call (mark = some r'.replica.generation) := by
    intro w hw hentry
    obtain ⟨later, earlier, hlog, hiff⟩ := h.entered w hw call mark hentry
    refine ⟨deed :: later, earlier, by rw [hlog, List.cons_append], ?_⟩
    rw [List.forall_mem_cons]
    rcases hreset : deed.isReset with _ | _
    · rw [hm.generation hreset, hiff, and_iff_right rfl]
    · refine iff_of_false ?_ fun hall => Bool.false_ne_true hall.1.1.symm
      rintro rfl
      have hclaim : w.claim? = some (call, r'.replica.generation) := by
        cases w with
        | registered | admitted =>
          cases hentry
          rfl
        | _ => cases hentry
      have hle := (h.calm w hw call _ hclaim).1
      have hnext := (hm.generation_succ hreset).1
      omega
  rcases hw with rfl | hw
  · cases hm with
    | lead flights call' hl =>
      cases hentry
      refine ⟨[], log, rfl, ?_⟩
      have hclears := h.clears
      have hnone : ([] : List (Post R)).countP Post.isClearing = 0 := rfl
      rw [hp, countP_split, Option.toList_none, hnone] at hclears
      have hstill : markBeside s.refresher.replica.generation (before ++ after) =
          some s.refresher.replica.generation ↔
            (before ++ after).countP Post.isClearing = 0 := by
        unfold markBeside
        rw [Option.ite_none_left_eq_some, and_iff_left rfl, List.any_eq_true,
          List.countP_eq_zero]
        exact not_exists.trans (forall_congr' fun _ => not_and)
      rw [hstill]
      have hempty : ∀ e ∈ ([] : List (Deed R ι)), e.isReset = false := List.forall_mem_nil _
      exact ⟨fun h => ⟨hempty, by omega⟩, fun h => by omega⟩
    | proceed call' mark' hc =>
      exact keep (.registered call' mark') (hp ▸ mem_split.mpr (.inl rfl)) hentry
    | _ => cases hentry
  · exact keep w (hp ▸ mem_split.mpr (.inr hw)) hentry

theorem dated_move (h : Paced log s) (hp : s.posts = before ++ p.toList ++ after)
    (hm : Moves s.refresher (before ++ after) p deed q r') (hw : q = some w ∨ w ∈ before ++ after)
    (hpull : w.pull? = some pull) : Dated (deed :: log) r'.replica.generation pull := by
  have keep : ∀ w ∈ s.posts, w.pull? = some pull →
      Dated (deed :: log) r'.replica.generation pull := by
    intro w hw hpull
    obtain ⟨hle, later, seen, earlier, hlog, hiff⟩ := h.dated w hw pull hpull
    have htold : deed :: log = deed :: later ++ .asked pull seen :: earlier := by
      rw [hlog, List.cons_append]
    rcases hreset : deed.isReset with _ | _
    · rw [hm.generation hreset]
      refine ⟨hle, deed :: later, seen, earlier, htold, ?_⟩
      rw [List.forall_mem_cons, and_iff_right hreset, hiff]
    · have hnext := (hm.generation_succ hreset).1
      refine ⟨by omega, deed :: later, seen, earlier, htold, iff_of_false (by omega) ?_⟩
      intro hall
      rw [(List.forall_mem_cons.mp hall).1] at hreset
      cases hreset
  rcases hw with rfl | hw
  · cases hm with
    | ask call mark now =>
      cases hpull
      exact ⟨Nat.le_refl _, [], _, log, rfl, iff_of_true rfl (List.forall_mem_nil _)⟩
    | accept pull' batch =>
      exact keep (.pulling pull') (hp ▸ mem_split.mpr (.inl rfl)) hpull
    | merge pull' batch =>
      exact keep (.merging pull' batch) (hp ▸ mem_split.mpr (.inl rfl)) hpull
    | count pull' changes =>
      exact keep (.merged pull' changes) (hp ▸ mem_split.mpr (.inl rfl)) hpull
    | _ => cases hpull
  · exact keep w (hp ▸ mem_split.mpr (.inr hw)) hpull

theorem opened_move (h : Paced log s) (hp : s.posts = before ++ p.toList ++ after)
    (hm : Moves s.refresher (before ++ after) p deed q r') (hw : q = some w ∨ w ∈ before ++ after)
    (hopen : w.open? = some (pull, reply)) : Opened r'.replica (deed :: log) pull reply := by
  rcases hw with rfl | hw
  · cases hm with
    | ask call mark now =>
      cases hopen
      exact .of_asked now call mark
    | accept pull batch hv hu =>
      cases hopen
      have hwas := h.opened (.pulling pull) (hp ▸ mem_split.mpr (.inl rfl)) pull none rfl
      refine hwas.keep ⟨rfl, rfl, rfl, rfl, rfl, rfl⟩ rfl rfl fun batch hb => .inr ?_
      rw [Option.some.inj hb]
    | _ => cases hopen
  · have hwas := h.opened w (hp ▸ mem_split.mpr (.inr hw)) pull reply hopen
    rcases hreset : deed.isReset with _ | _
    · rcases hmerge : deed.isMerge with _ | _
      · exact hwas.keep (hm.alike hmerge hreset) hmerge hreset fun _ => .inl
      · refine hwas.beside (hm.generation hreset) hmerge fun ht hgen => ?_
        have hclaim := Post.claim?_of_pull (Post.pull?_of_open hopen) ht
        rw [hgen] at hclaim
        -- whoever merges would count on its call in the same generation
        by_contra htimely
        cases hm with
        | merge pull' batch =>
          have hheld := h.held pull' batch (hp ▸ mem_split.mpr (.inl rfl))
          have hother : (Post.merging pull' batch).claim? = some (pull'.call, _) :=
            Post.claim?_of_pull rfl (Bool.of_not_eq_false htimely)
          rw [hheld] at hother
          exact h.claim_unique hp hother hw hclaim
        | _ => cases hmerge
    · exact hwas.outdate (hm.generation_succ hreset).1 deed

theorem held_move (h : Paced log s) (hp : s.posts = before ++ p.toList ++ after)
    (hm : Moves s.refresher (before ++ after) p deed q r') {batch : List R}
    (hw : q = some (.merging pull batch) ∨ .merging pull batch ∈ before ++ after) :
    pull.ticket.generation = r'.replica.generation := by
  rcases hw with rfl | hw
  · cases hm with
    | accept pull batch hv hu => exact (Replica.verdict_eq_ok.mp hv).2.2.2.symm
  · rcases hreset : deed.isReset with _ | _
    · rw [hm.generation hreset]
      exact h.held pull batch (hp ▸ mem_split.mpr (.inr hw))
    · exact absurd ((hm.generation_succ hreset).2.1 _ hw) nofun

theorem lawful_move (h : Paced log s) (hp : s.posts = before ++ p.toList ++ after)
    (hm : Moves s.refresher (before ++ after) p deed q r') : PullLaw log deed := by
  cases hm with
  | ask call mark now hu =>
    have hmem : .admitted call mark ∈ s.posts := hp ▸ mem_split.mpr (.inl rfl)
    obtain ⟨later, earlier, hlog, hiff⟩ := h.entered _ hmem call mark rfl
    exact ⟨rfl, rfl, later, earlier, hlog, beq_iff_eq.trans hiff⟩
  | merge pull batch =>
    have hmem : .merging pull batch ∈ s.posts := hp ▸ mem_split.mpr (.inl rfl)
    obtain ⟨-, later, seen, earlier, hlog, hreply, hnow⟩ := h.opened _ hmem pull _ rfl
    obtain ⟨hreset, htimely, halike⟩ := hnow (h.held pull batch hmem)
    exact ⟨later, seen, earlier, hlog, hreply batch rfl, hreset, htimely, halike⟩
  | _ => exact trivial

theorem step (h : Paced log s) (hs : Step s deed s') : Paced (deed :: log) s' := by
  have hstaffed := h.staffed.step hs
  cases hs with
  | move before after p q deed r hp hm =>
    refine ⟨hstaffed, ?_, ?_, h.clears_move hp hm, ?_, ?_, ?_, h.lawful_move hp hm, h.lawful⟩
    · exact fun w hw call g hclaim => h.calm_move hp hm (mem_split.mp hw) hclaim
    · exact fun w hw call mark hentry => h.entered_move hp hm (mem_split.mp hw) hentry
    · exact fun w hw pull hpull => h.dated_move hp hm (mem_split.mp hw) hpull
    · exact fun w hw pull reply hopen => h.opened_move hp hm (mem_split.mp hw) hopen
    · exact fun pull batch hmem => h.held_move hp hm (mem_split.mp hmem)

omit [Record R] in
theorem start (kind : CacheKind) (skew : Span) (buffer : Nat) :
    Paced [] (start kind skew buffer : Crew R ι) where
  staffed := .start kind skew buffer
  calm w hw := by cases hw
  entered w hw := by cases hw
  clears := rfl
  dated w hw := by cases hw
  opened w hw := by cases hw
  held pull batch hw := by cases hw
  lawful := trivial

theorem run {kind : CacheKind} {skew : Span} {buffer : Nat}
    (h : Steps (Crew.start kind skew buffer) log s) : Paced log s := by
  induction h with
  | refl => exact .start kind skew buffer
  | step _ hstep ih => exact ih.step hstep

end Paced

end

/-! ## The pulls of every crew -/

/-- Whatever ticket was not timely, the replica was reset since. -/
def Punctual (log : List (Deed R ι)) : Prop :=
  ∀ later e earlier, log = later ++ e :: earlier → e.isUntimely = true →
    ∃ d ∈ later, d.isReset = true

/-- The pull merged into the very entries, watermark and first-load flag from which its ticket was
computed, and they did not change in between. -/
def Undisturbed (earlier : List (Deed R ι)) (pull : Pull) (into : Replica R ι) : Prop :=
  ∃ between seen older, earlier = between ++ .asked pull seen :: older ∧
    (∀ e ∈ between, e.disturbs = false) ∧ into.entries = seen.entries ∧
      into.watermark = seen.watermark ∧ into.firstLoad = seen.firstLoad

/-- Pulls are serial: one running pull at most is of the current generation, and every batch is
merged into what its ticket was computed from. -/
structure Serially (log : List (Deed R ι)) (s : Crew R ι) : Prop where
  single : s.posts.countP (Post.pullsIn s.refresher.replica.generation) ≤ 1
  undisturbed : ∀ later pull batch into earlier, log = later ++ .merged pull batch into :: earlier →
    Undisturbed earlier pull into

/-- What is true of the pulls of threads. -/
structure PullsInTurn (log : List (Deed R ι)) (s : Crew R ι) : Prop where
  lawful : Chronicle PullLaw log
  dated : ∀ w ∈ s.posts, ∀ pull, w.pull? = some pull →
    Dated log s.refresher.replica.generation pull
  /-- One running pull at most is of the current generation and timely. -/
  single : s.posts.countP (Post.pullsTimely s.refresher.replica.generation) ≤ 1
  /-- In a generation without untimely pulls, pulls are serial. -/
  alone : Punctual log → s.posts.countP (Post.pullsIn s.refresher.replica.generation) ≤ 1
  undisturbed : ∀ later pull batch into earlier, log = later ++ .merged pull batch into :: earlier →
    Punctual earlier → Undisturbed earlier pull into

namespace Punctual

theorem of_forall (h : ∀ e ∈ log, e.isUntimely = false) : Punctual log := by
  rintro later e earlier rfl he
  rw [h e (Waiting.mem_of_split rfl)] at he
  cases he

theorem tail (h : Punctual (deed :: log)) (hreset : deed.isReset = false) : Punctual log := by
  intro later e earlier hlog he
  obtain ⟨d, hd, hr⟩ := h (deed :: later) e earlier (by rw [hlog, List.cons_append]) he
  rcases List.mem_cons.mp hd with rfl | hd
  · rw [hreset] at hr
    cases hr
  · exact ⟨d, hd, hr⟩

/-- A ticket with no reset since then is timely. -/
theorem timely (h : Punctual log) {later earlier : List (Deed R ι)} {seen : Replica R ι}
    (hlog : log = later ++ .asked pull seen :: earlier) (hreset : ∀ e ∈ later, e.isReset = false) :
    pull.timely = true := by
  by_contra ht
  obtain ⟨d, hd, hr⟩ := h later _ earlier hlog (by rw [Deed.isUntimely, Bool.eq_false_iff.mpr ht]; rfl)
  rw [hreset d hd] at hr
  cases hr

/-- With no reset and no timely merge there was no merge at all. -/
theorem unmerged (h : Punctual log) (hlaw : Chronicle PullLaw log) {later earlier : List (Deed R ι)}
    (hlog : log = later ++ earlier) (hreset : ∀ e ∈ later, e.isReset = false)
    (htimely : ∀ e ∈ later, e.isTimelyMerge = false) : ∀ e ∈ later, e.isMerge = false := by
  intro e he
  cases e with
  | merged pull batch into =>
    obtain ⟨newer, rest, rfl⟩ := List.append_of_mem he
    rw [List.append_assoc, List.cons_append] at hlog
    rw [hlog] at hlaw
    obtain ⟨between, seen, older, hrest, -, hnone, -⟩ := Chronicle.law_of_split hlaw
    rw [hrest, ← List.cons_append, ← List.append_assoc] at hlog
    have ht : pull.timely = true := h.timely hlog fun d hd => by
      rcases List.mem_append.mp hd with hd | hd
      · exact hreset d (List.mem_append_left _ hd)
      · rcases List.mem_cons.mp hd with rfl | hd
        · rfl
        · exact hnone d hd
    exact ht.symm.trans (htimely _ he)
  | _ => rfl

end Punctual

namespace Paced

theorem single (h : Paced log s) :
    s.posts.countP (Post.pullsTimely s.refresher.replica.generation) ≤ 1 := by
  refine h.staffed.countP_le_one _ fun w hw htest => ?_
  obtain ⟨pull, hpull, hboth⟩ := (Option.any_eq_true _ _).mp htest
  obtain ⟨ht, hgen⟩ := Bool.and_eq_true_iff.mp hboth
  have hclaim := Post.claim?_of_pull hpull ht
  exact ⟨pull.call, Post.lead?_of_claim hclaim,
    ((h.calm w hw _ _ hclaim).2 (beq_iff_eq.mp hgen)).current⟩

theorem alone (h : Paced log s) (hp : Punctual log) :
    s.posts.countP (Post.pullsIn s.refresher.replica.generation) ≤ 1 := by
  refine Nat.le_trans (List.countP_mono_left fun w hw htest => ?_) h.single
  obtain ⟨pull, hpull, hgen⟩ := (Option.any_eq_true _ _).mp htest
  obtain ⟨-, later, seen, earlier, hlog, hiff⟩ := h.dated w hw pull hpull
  have ht := hp.timely hlog (hiff.mp (beq_iff_eq.mp hgen))
  exact (Option.any_eq_true _ _).mpr ⟨pull, hpull, Bool.and_eq_true_iff.mpr ⟨ht, hgen⟩⟩

/-- A pull of the generation that has not merged has a ticket for the replica as it is. -/
theorem ticket_eq (h : Paced log s) (hp : Punctual log) (hw : w ∈ s.posts)
    (hopen : w.open? = some (pull, reply))
    (hgen : pull.ticket.generation = s.refresher.replica.generation) :
    pull.ticket.since = s.refresher.replica.watermark.since s.refresher.replica.skew ∧
      pull.ticket.firstLoad = s.refresher.replica.firstLoad := by
  obtain ⟨-, later, seen, earlier, hlog, -, hnow⟩ := h.opened w hw pull reply hopen
  obtain ⟨hreset, htimely, halike⟩ := hnow hgen
  have hlaw := h.lawful
  rw [hlog] at hlaw
  obtain ⟨hsince, hfirst, -⟩ := Chronicle.law_of_split hlaw
  have hsame := halike (hp.unmerged h.lawful hlog hreset (htimely (hp.timely hlog hreset)))
  rw [hsince, hfirst, hsame.watermark, hsame.skew, hsame.firstLoad]
  exact ⟨rfl, rfl⟩

theorem undisturbed (h : Paced log s) {later earlier : List (Deed R ι)} {batch : List R}
    {into : Replica R ι} (hlog : log = later ++ .merged pull batch into :: earlier)
    (hp : Punctual earlier) : Undisturbed earlier pull into := by
  have hlaw := h.lawful
  rw [hlog] at hlaw
  have hearlier : Chronicle PullLaw earlier := (Chronicle.of_append hlaw).2
  obtain ⟨between, seen, older, rfl, -, hreset, hnone, halike⟩ := Chronicle.law_of_split hlaw
  have hmerge := hp.unmerged hearlier rfl hreset (hnone (hp.timely rfl hreset))
  have hinto := halike hmerge
  exact ⟨between, seen, older, rfl, fun e he => Bool.or_eq_false_iff.mpr ⟨hmerge e he, hreset e he⟩,
    hinto.entries, hinto.watermark, hinto.firstLoad⟩

end Paced

/-- **Pulls of threads.** In every run of a crew a batch is merged with no clear since its ticket.
Of the running pulls of the current generation one at most is timely, and no timely pull merges
between the ticket and the merge of another one. So pulls are serial in every generation whose pulls
are timely. -/
theorem pulls_in_turn [Record R] [Index R ι] {kind : CacheKind} {skew : Span} {buffer : Nat}
    (h : Steps (start kind skew buffer) log s) : PullsInTurn log s := by
  have hpaced := Paced.run h
  exact ⟨hpaced.lawful, hpaced.dated, hpaced.single, hpaced.alone,
    fun _ _ _ _ _ hlog => hpaced.undisturbed hlog⟩

/-- A clear comes while the first pull waits for the store. The second pull merges, and the first
one is discarded. -/
theorem discarded_beside_merge_in_turn : ∃ (log : List (Deed Namespace Exports))
    (s : Crew Namespace Exports), Steps (start .namespaces (.seconds (-5)) 4) log s ∧
      log.countP Deed.isTimelyMerge = 1 ∧ s.posts.length = 2 ∧ PullsInTurn log s := by
  have h₀ : Steps (start .namespaces (.seconds (-5)) 4 : Crew Namespace Exports) [] _ := .refl
  have h₁ := h₀.step (.move [] [] none _ _ _ rfl (.lead _ 0 rfl))
  have h₂ := h₁.step (.move [] [] (some _) _ _ _ rfl (.proceed 0 _ rfl))
  have h₃ := h₂.step (.move [] [] (some _) _ _ _ rfl (.ask 0 _ .epoch (by decide)))
  have h₄ := h₃.step (.move [_] [] none _ _ _ rfl (.reset (by decide)))
  have h₅ := h₄.step (.move [_] [] (some (.clearing _)) _ _ _ rfl (.forget _))
  have h₆ := h₅.step (.move [_] [] (some (.cleared _)) _ _ _ rfl (.empty _))
  have h₇ := h₆.step (.move [_] [] none _ _ _ rfl (.lead _ 1 rfl))
  have h₈ := h₇.step (.move [_] [] (some _) _ _ _ rfl (.proceed 1 _ rfl))
  have h₉ := h₈.step (.move [_] [] (some _) _ _ _ rfl (.ask 1 _ .epoch (by decide)))
  have h₁₀ := h₉.step (.move [_] [] (some _) _ _ _ rfl (.accept _ [{ name := "prod" }] rfl
    (by decide)))
  have h₁₁ := h₁₀.step (.move [_] [] (some _) _ _ _ rfl (.merge _ _))
  have h₁₂ := h₁₁.step (.move [] [_] (some _) _ _ _ rfl (.giveUp _ (.ok [])
    (.refreshDiscarded "namespace") rfl fun _ => by decide))
  exact ⟨_, _, h₁₂, by decide, rfl, pulls_in_turn h₁₂⟩

/-- Two pulls of one generation wait for the store to fill an empty replica. -/
structure FirstLoads (s : Crew R ι) (p p' : Pull) : Prop where
  posts : s.posts = [.pulling p, .pulling p']
  calls : p'.call ≠ p.call
  tickets : p'.ticket = p.ticket
  since : p.ticket.since = .epoch
  firstLoad : p.ticket.firstLoad = true
  generation : p.ticket.generation = s.refresher.replica.generation
  unbarred : s.refresher.replica.closed = false
  empty : s.refresher.replica.entries = ∅
  skew : s.refresher.replica.skew = .seconds (-5)

/-- A clear comes between the registration of the first call and its ticket. The second call is led
after the clear. -/
theorem two_first_loads : ∃ (log : List (Deed Namespace Exports)) (s : Crew Namespace Exports)
    (p p' : Pull), Steps (start .namespaces (.seconds (-5)) 4) log s ∧
      (∀ pull batch, .accepted pull batch ∉ log) ∧ FirstLoads s p p' := by
  have h₀ : Steps (start .namespaces (.seconds (-5)) 4 : Crew Namespace Exports) [] _ := .refl
  have h₁ := h₀.step (.move [] [] none _ _ _ rfl (.lead _ 0 rfl))
  have h₂ := h₁.step (.move [_] [] none _ _ _ rfl (.reset (by decide)))
  have h₃ := h₂.step (.move [_] [] (some (.clearing _)) _ _ _ rfl (.forget _))
  have h₄ := h₃.step (.move [_] [] (some (.cleared _)) _ _ _ rfl (.empty _))
  have h₅ := h₄.step (.move [] [] (some _) _ _ _ rfl (.proceed 0 _ rfl))
  have h₆ := h₅.step (.move [] [] (some _) _ _ _ rfl (.ask 0 _ .epoch (by decide)))
  have h₇ := h₆.step (.move [_] [] none _ _ _ rfl (.lead _ 1 rfl))
  have h₈ := h₇.step (.move [_] [] (some _) _ _ _ rfl (.proceed 1 _ rfl))
  have h₉ := h₈.step (.move [_] [] (some _) _ _ _ rfl (.ask 1 _ .epoch (by decide)))
  refine ⟨_, _, _, _, h₉, by simp, rfl, by decide, rfl, rfl, rfl, rfl, rfl, rfl, rfl⟩

/-- The pulls of threads are not serial. -/
theorem first_loads_beside_each_other : ¬ ∀ (log : List (Deed Namespace Exports))
    (s : Crew Namespace Exports), Steps (start .namespaces (.seconds (-5)) 4) log s →
      Serially log s := by
  intro hall
  obtain ⟨log, s, p, p', hsteps, -, hloads⟩ := two_first_loads
  have hsingle := (hall log s hsteps).single
  rw [hloads.posts, ← hloads.generation] at hsingle
  simp [Post.pullsIn, Post.pull?, hloads.tickets] at hsingle

end GovernanceCache.Crew
