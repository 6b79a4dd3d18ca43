import GovernanceCache.Proofs.CrewClosing
import Mathlib.Algebra.Ring.Nat

/-!
# What the counters of a replica account for

Statistics and metrics are kept apart. The statistics of a merge are counted change by change while
the thread holds the lock, its metrics by the batch when it has given the lock back, and the number
of entries is published after that. Both tell what the threads did, however their pulls ended.

1. `Account` names what the two sets of counters have in common, `Deed.tallied` and `Deed.metered`
   what a deed adds to it in the one and in the other.
2. A merge moves the size by the created entries less the deleted ones (`merge_size`).
3. `Reconciled` holds in every run of a crew. The statistics are ahead of the metrics by what the
   threads owe that merged and have not told the metrics, and the published number of entries is the
   one of the moment at which the thread that published it took it.
-/

namespace GovernanceCache

variable {R ι : Type}

/-! ## Accounts -/

/-- What statistics and metrics both count. -/
inductive Account where
  | pulls
  | shared
  | failures
  | changes (kind : ChangeKind)
deriving DecidableEq

/-- What statistics say of an account. -/
def Tally.of (t : Tally) : Account → Nat
  | .pulls => t.pulls
  | .shared => t.shared
  | .failures => t.failures
  | .changes .created => t.created
  | .changes .updated => t.updated
  | .changes .deleted => t.deleted

/-- What metrics say of an account. -/
def Meter.of (m : Meter) : Account → Nat
  | .pulls => m.refreshes
  | .shared => m.refreshesShared
  | .failures => m.refreshFailures
  | .changes .created => m.mergedCreated
  | .changes .updated => m.mergedUpdated
  | .changes .deleted => m.mergedDeleted

/-- What the changes of a merge add to an account. -/
def Account.ofChanges (changes : List (Change R)) : Account → Nat
  | .changes kind => Replica.countKind changes kind
  | _ => 0

namespace Crew

namespace Deed

/-- What a deed adds to the statistics. A pull asks the store once, a refresh that joined a call
ends once, and a pull fails if the store does or a record is malformed. -/
def tallied [Record R] (a : Account) : Deed R ι → Nat
  | .asked .. => if a = .pulls then 1 else 0
  | .shared .. => if a = .shared then 1 else 0
  | .gaveUp _ (.store ..) | .gaveUp _ (.invalidRecord ..) => if a = .failures then 1 else 0
  | .merged _ batch into => a.ofChanges (merge into.entries batch).changes
  | _ => 0

/-- What a deed adds to the metrics. -/
def metered [Record R] (a : Account) : Deed R ι → Nat
  | .merged .. => 0
  | .counted _ changes _ => a.ofChanges changes
  | e => e.tallied a

def isAsk : Deed R ι → Bool
  | .asked .. => true
  | _ => false

/-- A pull that asked the store is over, and was not dropped. -/
def endsPull : Deed R ι → Bool
  | .gaveUp .. | .shown .. => true
  | _ => false

/-- A pull is over, and was not dropped, whether it asked the store or not. -/
def endsAnyPull : Deed R ι → Bool
  | .refused _ => true
  | e => e.endsPull

def dropsPull : Deed R ι → Bool
  | .dropped _ => true
  | _ => false

/-- The entries that a clear dropped. -/
def entriesCleared : Deed R ι → Nat
  | .reset entries _ => entries
  | _ => 0

/-- The number of entries that a deed publishes. -/
def published? : Deed R ι → Option Nat
  | .shown _ size => some size
  | .emptied _ => some 0
  | _ => none

/-- The second deed took the number of entries that the first one publishes. -/
def PublishesOf : Deed R ι → Deed R ι → Prop
  | .shown p size, .counted p' _ size' => p = p' ∧ size = size'
  | .emptied generation, .reset _ generation' => generation = generation'
  | _, _ => False

end Deed

namespace Post

/-- What a thread has merged and not told the metrics. -/
def owed (a : Account) : Post R → Nat
  | .merged _ changes => a.ofChanges changes
  | _ => 0

def isPulling (w : Post R) : Bool := w.pull?.isSome

/-- How a thread is to publish the number of entries that it took. -/
def due? : Post R → Option (Deed R ι)
  | .measured p size => some (.shown p size)
  | .clearing generation | .cleared generation => some (.emptied generation)
  | _ => none

end Post

/-- A deed publishes a number that was taken before, and that is the one of the entries as long as
nothing was merged and nothing cleared since. -/
def Taken (log : List (Deed R ι)) (m : Replica R ι) (e : Deed R ι) : Prop :=
  ∀ size, e.published? = some size → ∃ later took earlier, log = later ++ took :: earlier ∧
    e.PublishesOf took ∧ ((∀ d ∈ later, d.disturbs = false) → m.size = size)

/-- What statistics and metrics of a crew account for. -/
structure Reconciled [Record R] (log : List (Deed R ι)) (s : Crew R ι) : Prop where
  tally : ∀ a, s.refresher.replica.tally.of a = (log.map (Deed.tallied a)).sum
  meter : ∀ a, s.refresher.replica.meter.of a = (log.map (Deed.metered a)).sum
  /-- The metrics are behind by what threads have merged and not told them. -/
  owed : ∀ a, s.refresher.replica.tally.of a =
    s.refresher.replica.meter.of a + (s.posts.map (Post.owed a)).sum
  latencies : s.refresher.replica.meter.latencySamples = log.countP Deed.endsPull
  /-- A pull that asked the store ended, was dropped, or is under way. -/
  pulls : log.countP Deed.isAsk =
    log.countP Deed.endsPull + log.countP Deed.dropsPull + s.posts.countP Post.isPulling
  gauge : s.refresher.replica.meter.entries = log.findSome? Deed.published?
  taken : ∀ e ∈ log, Taken log s.refresher.replica e
  due : ∀ w ∈ s.posts, ∀ e, w.due? = some e → Taken log s.refresher.replica e
  size : s.refresher.replica.tally.created =
    s.refresher.replica.tally.deleted + s.refresher.replica.size +
      (log.map Deed.entriesCleared).sum

end Crew

/-! ## Merges -/

section

variable [Record R] {entries : Std.ExtTreeMap String R} {c : Change R} {changes : List (Change R)}

/-- One more entry is left by a created record, one less by a deleted one. -/
theorem replay_size (h : c.Fits entries) :
    (c.replay entries).size + (if c.kind = .deleted then 1 else 0) =
      entries.size + if c.kind = .created then 1 else 0 := by
  obtain ⟨kind, old, new⟩ := c
  cases kind with
  | created =>
    obtain ⟨-, hnone, -⟩ := h
    simp only [Change.replay, Std.ExtTreeMap.size_insert,
      Std.ExtTreeMap.contains_eq_isSome_getElem?, hnone]
    simp
  | updated =>
    obtain ⟨r, -, hsome, -⟩ := h
    simp only [Change.replay, Std.ExtTreeMap.size_insert,
      Std.ExtTreeMap.contains_eq_isSome_getElem?, hsome]
    simp
  | deleted =>
    obtain ⟨r, -, hsome, -⟩ := h
    have hpos : entries.size ≠ 0 := by
      intro hzero
      rw [Std.ExtTreeMap.eq_empty_iff_size_eq_zero.mpr hzero] at hsome
      simp at hsome
    simp only [Change.replay, Std.ExtTreeMap.size_erase,
      Std.ExtTreeMap.contains_eq_isSome_getElem?, hsome]
    simp
    omega

omit [Record R] in
theorem countKind_cons (c : Change R) (changes : List (Change R)) (kind : ChangeKind) :
    Replica.countKind (c :: changes) kind =
      (if c.kind = kind then 1 else 0) + Replica.countKind changes kind := by
  unfold Replica.countKind
  rw [List.filter_cons]
  by_cases h : c.kind = kind
  · simp [h, Nat.add_comm]
  · simp [h]

omit [Record R] in
theorem Account.ofChanges_cons (a : Account) (c : Change R) (changes : List (Change R)) :
    a.ofChanges (c :: changes) =
      (if a = .changes c.kind then 1 else 0) + a.ofChanges changes := by
  cases a with
  | changes kind =>
    show Replica.countKind (c :: changes) kind = _ + Replica.countKind changes kind
    rw [countKind_cons]
    simp only [Account.changes.injEq, eq_comm]
  | _ => rfl

theorem replayAll_size (h : Fitting entries changes) :
    (replayAll entries changes).size + Replica.countKind changes .deleted =
      entries.size + Replica.countKind changes .created := by
  induction changes generalizing entries with
  | nil => rfl
  | cons c rest ih =>
    have hc := replay_size h.1
    have hrest := ih h.2
    have hstep : replayAll entries (c :: rest) = replayAll (c.replay entries) rest := rfl
    rw [hstep, countKind_cons, countKind_cons]
    omega

/-- A merge moves the number of entries by the created ones less the deleted ones. -/
theorem merge_size (entries : Std.ExtTreeMap String R) (batch : List R) :
    (merge entries batch).entries.size + Replica.countKind (merge entries batch).changes .deleted =
      entries.size + Replica.countKind (merge entries batch).changes .created := by
  obtain ⟨hfit, hent, -⟩ := merge_replays entries batch
  rw [← hent]
  exact replayAll_size hfit

end

namespace Replica

/-- The statistics of a merge are counted change by change. -/
theorem tallyMerged_of (t : Tally) (merged : Merged R) (a : Account) :
    (tallyMerged t merged).of a = t.of a + a.ofChanges merged.changes := by
  have hcount : ∀ (t : Tally) (kind : ChangeKind), (t.countChange kind).of a =
      t.of a + if a = .changes kind then 1 else 0 := by
    intro t kind
    rcases a with _ | _ | _ | (_ | _ | _) <;> cases kind <;> rfl
  have hfold : ∀ (changes : List (Change R)) (t : Tally),
      (changes.foldl (fun t c => t.countChange c.kind) t).of a = t.of a + a.ofChanges changes := by
    intro changes
    induction changes with
    | nil =>
      intro t
      cases a <;> rfl
    | cons c rest ih =>
      intro t
      rw [List.foldl_cons, ih, hcount]
      rw [Account.ofChanges_cons]
      omega
  have hunchanged : ∀ t : Tally, (t.countUnchanged merged.unchanged).of a = t.of a := by
    intro t
    rcases a with _ | _ | _ | (_ | _ | _) <;> rfl
  unfold tallyMerged
  rw [hunchanged, hfold]

/-- The metrics of a merge are counted by the batch. -/
theorem countMerged_of (m : Replica R ι) (changes : List (Change R)) (a : Account) :
    (m.countMerged changes).meter.of a = m.meter.of a + a.ofChanges changes := by
  rcases a with _ | _ | _ | (_ | _ | _) <;> rfl

end Replica

namespace Crew

variable [Record R] [Index R ι] {r r' : Refresher R ι} {others before after : List (Post R)}
  {p q : Option (Post R)} {deed e : Deed R ι} {s s' : Crew R ι} {log : List (Deed R ι)}
  {m m' : Replica R ι}

/-! ## What a move counts -/

theorem Moves.tally (hm : Moves r others p deed q r') (a : Account) :
    r'.replica.tally.of a = r.replica.tally.of a + deed.tallied a := by
  cases hm with
  | ask call mark now hu => rcases a with _ | _ | _ | (_ | _ | _) <;> rfl
  | giveUp pull answer fault h hu =>
    cases fault <;> rcases a with _ | _ | _ | (_ | _ | _) <;> rfl
  | merge pull batch => exact Replica.tallyMerged_of _ _ a
  | share call r' result hr =>
    rw [(share?_eq_some hr).1]
    rcases a with _ | _ | _ | (_ | _ | _) <;> rfl
  | read key =>
    show (r.replica.tally.countRead _).of a = _
    unfold Tally.countRead
    split <;> rcases a with _ | _ | _ | (_ | _ | _) <;> rfl
  | _ => rfl

theorem Moves.meter (hm : Moves r others p deed q r') (a : Account) :
    r'.replica.meter.of a = r.replica.meter.of a + deed.metered a := by
  cases hm with
  | ask call mark now hu => rcases a with _ | _ | _ | (_ | _ | _) <;> rfl
  | giveUp pull answer fault h hu =>
    cases fault <;> rcases a with _ | _ | _ | (_ | _ | _) <;> rfl
  | count pull changes => exact Replica.countMerged_of _ _ a
  | share call r' result hr =>
    rw [(share?_eq_some hr).1]
    rcases a with _ | _ | _ | (_ | _ | _) <;> rfl
  | publish pull size => rcases a with _ | _ | _ | (_ | _ | _) <;> rfl
  | empty generation => rcases a with _ | _ | _ | (_ | _ | _) <;> rfl
  | _ => rfl

/-- What the statistics are told and the metrics are not, the thread owes. -/
theorem Moves.owed (hm : Moves r others p deed q r') (a : Account) :
    deed.tallied a + p.elim 0 (Post.owed a) = deed.metered a + q.elim 0 (Post.owed a) := by
  cases hm with
  | merge pull batch => exact Nat.add_comm _ _
  | count pull changes => exact Nat.add_comm _ _
  | giveUp pull answer fault h hu => cases fault <;> rfl
  | _ => rfl

theorem Moves.latencies (hm : Moves r others p deed q r') :
    r'.replica.meter.latencySamples =
      r.replica.meter.latencySamples + if deed.endsPull then 1 else 0 := by
  cases hm with
  | giveUp pull answer fault h hu => cases fault <;> rfl
  | share call r' result hr =>
    rw [(share?_eq_some hr).1]
    rfl
  | _ => rfl

theorem Moves.pulls (hm : Moves r others p deed q r') :
    (if deed.isAsk then 1 else 0) + p.toList.countP Post.isPulling =
      (if deed.endsPull then 1 else 0) + (if deed.dropsPull then 1 else 0) +
        q.toList.countP Post.isPulling := by
  cases hm <;> rfl

theorem Moves.gauge (hm : Moves r others p deed q r') :
    r'.replica.meter.entries = deed.published?.or r.replica.meter.entries := by
  cases hm with
  | giveUp pull answer fault h hu => cases fault <;> rfl
  | share call r' result hr =>
    rw [(share?_eq_some hr).1]
    rfl
  | _ => rfl

theorem Moves.size (hm : Moves r others p deed q r') :
    r'.replica.size + deed.tallied (.changes .deleted) + deed.entriesCleared =
      r.replica.size + deed.tallied (.changes .created) := by
  cases hm with
  | giveUp pull answer fault h hu =>
    have hsize : (r.replica.giveUp fault).size = r.replica.size :=
      congrArg Std.ExtTreeMap.size (r.replica.giveUp_alike fault).entries
    cases fault <;> exact hsize
  | merge pull batch => exact merge_size r.replica.entries batch
  | share call r' result hr =>
    rw [(share?_eq_some hr).1]
    rfl
  | reset hu => exact Nat.add_comm _ _
  | _ => rfl

/-- What a move publishes is what the thread was to publish. -/
theorem Moves.published (hm : Moves r others p deed q r') (h : deed.published? ≠ none) :
    p.bind Post.due? = some deed := by
  cases hm with
  | publish pull size => rfl
  | empty generation => rfl
  | _ => exact absurd rfl h

/-- A thread that is to publish a number was so before, or takes it now. -/
theorem Moves.due (hm : Moves r others p deed q r') (hq : q.bind Post.due? = some e) :
    p.bind Post.due? = some e ∨
      e.PublishesOf deed ∧ ∀ size, e.published? = some size → r'.replica.size = size := by
  cases hm with
  | count pull changes =>
    obtain rfl := Option.some.inj hq
    exact .inr ⟨⟨rfl, rfl⟩, fun size h => Option.some.inj h⟩
  | reset hu =>
    obtain rfl := Option.some.inj hq
    exact .inr ⟨rfl, fun size h => Option.some.inj h⟩
  | forget generation => exact .inl hq
  | _ => cases hq

namespace Taken

omit [Record R] [Index R ι] in
theorem cons (h : Taken log m e) (hsize : deed.disturbs = false → m'.size = m.size) :
    Taken (deed :: log) m' e := by
  intro size hpub
  obtain ⟨later, took, earlier, rfl, htook, hcalm⟩ := h size hpub
  refine ⟨deed :: later, took, earlier, rfl, htook, fun hquiet => ?_⟩
  obtain ⟨hnow, hrest⟩ := List.forall_mem_cons.mp hquiet
  exact (hsize hnow).trans (hcalm hrest)

omit [Record R] [Index R ι] in
theorem of_publishesOf (h : e.PublishesOf deed)
    (hsize : ∀ size, e.published? = some size → m.size = size) : Taken (deed :: log) m e :=
  fun size hpub => ⟨[], deed, log, rfl, h, fun _ => hsize size hpub⟩

end Taken

theorem sum_split {α : Type} (count : α → Nat) (before after : List α) (p : Option α) :
    ((before ++ p.toList ++ after).map count).sum =
      ((before ++ after).map count).sum + p.elim 0 count := by
  rw [((perm_split before after p).map count).sum_nat]
  cases p with
  | none => rfl
  | some w => exact Nat.add_comm _ _

theorem Reconciled.step (h : Reconciled log s) (hs : Step s deed s') :
    Reconciled (deed :: log) s' := by
  cases hs with
  | move before after p q deed r' hp hm =>
    have hsize : deed.disturbs = false → r'.replica.size = s.refresher.replica.size := by
      intro hcalm
      obtain ⟨hmerge, hreset⟩ := Bool.or_eq_false_iff.mp hcalm
      exact congrArg Std.ExtTreeMap.size (hm.alike hmerge hreset).entries
    have hdue : ∀ e, p.bind Post.due? = some e → Taken log s.refresher.replica e := by
      intro e hbind
      obtain ⟨w, rfl, hw⟩ := Option.bind_eq_some_iff.mp hbind
      exact h.due w (hp ▸ mem_split.mpr (.inl rfl)) e hw
    refine ⟨?_, ?_, ?_, ?_, ?_, ?_, ?_, ?_, ?_⟩
    · intro a
      rw [hm.tally, h.tally, List.map_cons, List.sum_cons, Nat.add_comm]
    · intro a
      rw [hm.meter, h.meter, List.map_cons, List.sum_cons, Nat.add_comm]
    · intro a
      have hwas := h.owed a
      have hmoved := hm.owed a
      rw [hp, sum_split] at hwas
      rw [hm.tally, hm.meter, sum_split]
      omega
    · rw [hm.latencies, h.latencies, List.countP_cons]
    · have hwas := h.pulls
      have hmoved := hm.pulls
      rw [hp, countP_split] at hwas
      rw [List.countP_cons, List.countP_cons, List.countP_cons, countP_split]
      omega
    · rw [hm.gauge, h.gauge, List.findSome?_cons]
      cases deed.published? <;> rfl
    · refine List.forall_mem_cons.mpr ⟨fun size hpub => ?_, fun e he => (h.taken e he).cons hsize⟩
      have hwas := hdue deed (hm.published (by rw [hpub]; exact Option.some_ne_none size))
      exact hwas.cons hsize size hpub
    · intro w hw e he
      rcases mem_split.mp hw with rfl | hw
      · rcases hm.due he with hbind | ⟨htook, hnow⟩
        · exact (hdue e hbind).cons hsize
        · exact .of_publishesOf htook hnow
      · exact (h.due w (hp ▸ mem_split.mpr (.inr hw)) e he).cons hsize
    · have hwas := h.size
      have hmoved := hm.size
      have hcreated : r'.replica.tally.created = _ := hm.tally (.changes .created)
      have hdeleted : r'.replica.tally.deleted = _ := hm.tally (.changes .deleted)
      rw [hcreated, hdeleted, List.map_cons, List.sum_cons]
      simp only [Tally.of]
      omega

theorem Reconciled.run {kind : CacheKind} {skew : Span} {buffer : Nat}
    (h : Steps (start kind skew buffer) log s) : Reconciled log s := by
  induction h with
  | refl =>
    have hzero : ∀ a, ({} : Tally).of a = 0 ∧ ({} : Meter).of a = 0 := by
      rintro (_ | _ | _ | (_ | _ | _)) <;> exact ⟨rfl, rfl⟩
    refine ⟨fun a => (hzero a).1, fun a => (hzero a).2,
      fun a => (hzero a).1.trans (hzero a).2.symm, rfl, rfl, rfl, List.forall_mem_nil _,
      List.forall_mem_nil _, ?_⟩
    show 0 = 0 + (∅ : Std.ExtTreeMap String R).size + 0
    rw [Std.ExtTreeMap.size_empty]
  | step _ hstep ih => exact ih.step hstep

/-- **What counters account for.** In every run of a crew statistics and metrics tell what the
threads did, and differ by what is merged and not yet told. The durations are those of the pulls
that asked the store and were not dropped, and the size is the one that the merges and clears left.
The published number of entries is the one of the moment at which it was taken. -/
theorem counters_reconcile {kind : CacheKind} {skew : Span} {buffer : Nat}
    (h : Steps (start kind skew buffer) log s) : Reconciled log s := .run h

/-- While a clear is to publish that nothing is left, another thread pulls a record. -/
theorem emptied_late : ∃ (log : List (Deed Namespace Exports)) (s : Crew Namespace Exports),
    Steps (start .namespaces (.seconds (-5)) 4) log s ∧ s.posts = [] ∧
      s.refresher.replica.meter.entries = some 0 ∧ s.refresher.replica.size = 1 := by
  have h₀ : Steps (start .namespaces (.seconds (-5)) 4 : Crew Namespace Exports) [] _ := .refl
  have h₁ := h₀.step (.move [] [] none _ _ _ rfl (.reset (by decide)))
  have h₂ := h₁.step (.move [] [] (some (.clearing _)) _ _ _ rfl (.forget _))
  have h₃ := h₂.step (.move [_] [] none _ _ _ rfl (.lead _ 0 rfl))
  have h₄ := h₃.step (.move [_] [] (some _) _ _ _ rfl (.proceed 0 _ rfl))
  have h₅ := h₄.step (.move [_] [] (some _) _ _ _ rfl (.ask 0 _ .epoch (by decide)))
  have h₆ := h₅.step (.move [_] [] (some _) _ _ _ rfl
    (.accept _ [({ name := "a" } : Namespace)] rfl (by decide)))
  have h₇ := h₆.step (.move [_] [] (some _) _ _ _ rfl (.merge _ _))
  have h₈ := h₇.step (.move [_] [] (some _) _ _ _ rfl (.count _ _))
  have h₉ := h₈.step (.move [_] [] (some _) _ _ _ rfl (.publish _ _))
  have h₁₀ := h₉.step (.move [_] [] (some _) _ _ _ rfl (.leave 0 _))
  have h₁₁ := h₁₀.step (.move [_] [] (some _) _ _ _ rfl (.endCall 0 _))
  have h₁₂ := h₁₁.step (.move [] [] (some (.cleared _)) _ _ _ rfl (.empty _))
  exact ⟨_, _, h₁₂, rfl, rfl, by decide +kernel⟩

/-- The number that a clear publishes late is the one of its own moment. -/
theorem emptied_late_reconciled : ∃ (log : List (Deed Namespace Exports))
    (s : Crew Namespace Exports), Steps (start .namespaces (.seconds (-5)) 4) log s ∧
      s.refresher.replica.size = 1 ∧ Reconciled log s := by
  obtain ⟨log, s, hsteps, -, -, hsize⟩ := emptied_late
  exact ⟨log, s, hsteps, hsize, counters_reconcile hsteps⟩

/-- A pull that finds the replica closed before it asks the store is not timed. What is merged is in
the statistics before it is in the metrics. And the published number of entries is not always that of
the entries, not even when no thread is in the middle of something. -/
theorem counters_fall_apart :
    (¬ ∀ (log : List (Deed Namespace Exports)) (s : Crew Namespace Exports),
      Steps (start .namespaces (.seconds (-5)) 4) log s →
        s.refresher.replica.meter.latencySamples = log.countP Deed.endsAnyPull) ∧
    (¬ ∀ (log : List (Deed Namespace Exports)) (s : Crew Namespace Exports),
      Steps (start .namespaces (.seconds (-5)) 4) log s →
        s.refresher.replica.tally.created = s.refresher.replica.meter.mergedCreated) ∧
    ¬ ∀ (log : List (Deed Namespace Exports)) (s : Crew Namespace Exports),
      Steps (start .namespaces (.seconds (-5)) 4) log s → s.posts = [] →
        ∀ size, s.refresher.replica.meter.entries = some size →
          s.refresher.replica.size = size := by
  have h₀ : Steps (start .namespaces (.seconds (-5)) 4 : Crew Namespace Exports) [] _ := .refl
  refine ⟨fun hall => ?_, fun hall => ?_, fun hall => ?_⟩
  · have h₁ := h₀.step (.move [] [] none _ _ _ rfl .bar)
    have h₂ := h₁.step (.move [] [] (some .closing) _ _ _ rfl .dismiss)
    have h₃ := h₂.step (.move [] [] none _ _ _ rfl (.lead _ 0 rfl))
    have h₄ := h₃.step (.move [] [] (some _) _ _ _ rfl (.refuse 0 _ rfl))
    have h₅ := h₄.step (.move [] [] (some _) _ _ _ rfl (.leave 0 _))
    have h₆ := h₅.step (.move [] [] (some _) _ _ _ rfl (.endCall 0 _))
    exact absurd (hall _ _ h₆) (by decide)
  · have h₁ := h₀.step (.move [] [] none _ _ _ rfl (.lead _ 0 rfl))
    have h₂ := h₁.step (.move [] [] (some _) _ _ _ rfl (.proceed 0 _ rfl))
    have h₃ := h₂.step (.move [] [] (some _) _ _ _ rfl (.ask 0 _ .epoch (by decide)))
    have h₄ := h₃.step (.move [] [] (some _) _ _ _ rfl
      (.accept _ [({ name := "a" } : Namespace)] rfl (by decide)))
    have h₅ := h₄.step (.move [] [] (some _) _ _ _ rfl (.merge _ _))
    exact absurd (hall _ _ h₅) (by decide +kernel)
  · obtain ⟨log, s, hsteps, hposts, hshown, hsize⟩ := emptied_late
    have heq := hall log s hsteps hposts 0 hshown
    omega

end Crew

end GovernanceCache
