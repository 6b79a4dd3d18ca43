import GovernanceCache.Store
import GovernanceCache.Waiting
import Mathlib.Order.Bounds.Basic
import Mathlib.Order.Nat

/-!
# What the counts of pulls tell

A store counts for each kind the pulls that began since the counts were last reset, those in flight,
and the most that were in flight at once. An attendance is a store with the pulls that it has begun
to answer. Pulls begin, are polled and dropped, the store is written to, slowed down and made to
fail, time passes, and the counts are reset, in any order.

1. `Table.Tallied` says what the counts of a table tell of the levels that its open pulls reached.
   A pull that begins, one that ends and a reset of the counts keep it.
2. An attendance records what was open at each moment since the last reset. Whatever is done, the
   counts of every kind tell its levels (`Attendance.Tallied.act`).
3. A reset forgets the pulls that are in flight: they count again once another one begins
   (`Attendance.Tells`).
-/

namespace GovernanceCache

/-! ## Tables -/

namespace Table

/-- How many pulls of a table were open at a moment. -/
structure Level where
  height : Nat
  /-- One of them had just begun. -/
  rising : Bool

/-- How many pulls were open, each time one of them had just begun. -/
def crests (since : List Level) : Set Nat := {n | ⟨n, true⟩ ∈ since}

/-- How many pulls were open at each moment, the first one included. -/
def heights (held : Nat) (since : List Level) : Set Nat :=
  {n | n = held ∨ ∃ level ∈ since, level.height = n}

variable {held n : Nat} {since : List Level}

theorem crests_rising : crests (⟨n, true⟩ :: since) = insert n (crests since) := by
  ext m
  simp [crests]

theorem crests_falling : crests (⟨n, false⟩ :: since) = crests since := by
  ext m
  simp [crests]

theorem heights_cons {b : Bool} :
    heights held (⟨n, b⟩ :: since) = insert n (heights held since) := by
  ext m
  simp [heights, or_left_comm, eq_comm (b := m)]

variable {R : Type} {t : Table R}

/-- The counts of a table tell the levels since they were last reset: how many pulls were open at
the reset, what came since, and how many are open now. -/
structure Tallied (t : Table R) (held : Nat) (since : List Level) (n : Nat) : Prop where
  inFlight : t.inFlight = n
  pulls : t.pulls = since.countP (·.rising)
  crest : IsLUB (crests since) t.mostInFlight
  peak : IsGreatest (heights held since) (max held t.mostInFlight)
  present : n ∈ heights held since
  /-- A pull that began since the reset was in flight with those that are open now. -/
  covered : t.pulls ≠ 0 → n ≤ t.mostInFlight

namespace Tallied

theorem enter (h : t.Tallied held since n) :
    t.enter.Tallied held (⟨n + 1, true⟩ :: since) (n + 1) where
  inFlight := congrArg (· + 1) h.inFlight
  pulls := by
    rw [List.countP_cons_of_pos rfl, ← h.pulls]
    rfl
  crest := by
    show IsLUB _ (max t.mostInFlight (t.inFlight + 1))
    rw [crests_rising, h.inFlight, max_comm]
    exact h.crest.insert (n + 1)
  peak := by
    show IsGreatest _ (max held (max t.mostInFlight (t.inFlight + 1)))
    rw [heights_cons, h.inFlight, max_comm t.mostInFlight, max_left_comm]
    exact h.peak.insert (n + 1)
  present := by
    rw [heights_cons]
    exact Set.mem_insert _ _
  covered _ := by
    show n + 1 ≤ max t.mostInFlight (t.inFlight + 1)
    rw [h.inFlight]
    exact le_max_right _ _

/-- A moment at which no pull begins and no more are open than before. -/
theorem fall {m : Nat} (h : t.Tallied held since n) {t' : Table R} (hf : t'.inFlight = m)
    (hp : t'.pulls = t.pulls) (hmost : t'.mostInFlight = t.mostInFlight) (hm : m ≤ n) :
    t'.Tallied held (⟨m, false⟩ :: since) m where
  inFlight := hf
  pulls := by
    rw [List.countP_cons_of_neg Bool.false_ne_true, ← h.pulls, hp]
  crest := by
    rw [crests_falling, hmost]
    exact h.crest
  peak := by
    have hpeak := h.peak.insert m
    rw [max_eq_right (hm.trans (h.peak.2 h.present))] at hpeak
    rw [heights_cons, hmost]
    exact hpeak
  present := by
    rw [heights_cons]
    exact Set.mem_insert _ _
  covered hne := by
    rw [hp] at hne
    rw [hmost]
    exact hm.trans (h.covered hne)

theorem leave (h : t.Tallied held since (n + 1)) :
    t.leave.Tallied held (⟨n, false⟩ :: since) n :=
  h.fall (by rw [← Nat.add_sub_cancel n 1, ← h.inFlight]; rfl) rfl rfl n.le_succ

/-- A moment at which nothing happens to the pulls of the table. -/
theorem stay (h : t.Tallied held since n) : t.Tallied held (⟨n, false⟩ :: since) n :=
  h.fall h.inFlight rfl rfl le_rfl

/-- The counts of a table that were reset or never moved. -/
theorem afresh (hf : t.inFlight = n) (hp : t.pulls = 0) (hmost : t.mostInFlight = 0) :
    t.Tallied n [] n where
  inFlight := hf
  pulls := hp
  crest := by
    have hnone : crests [] = ∅ := by simp [crests]
    rw [hnone, hmost]
    exact isLUB_empty (α := Nat)
  peak := by
    have hone : heights n [] = {n} := by simp [heights]
    rw [hone, hmost, max_eq_left n.zero_le]
    exact isGreatest_singleton
  present := Or.inl rfl
  covered hne := absurd hp hne

theorem resetCounts (h : t.Tallied held since n) : t.resetCounts.Tallied n [] n :=
  afresh h.inFlight rfl rfl

theorem withRows (h : t.Tallied held since n) (rows : Std.ExtTreeMap String R) :
    { t with rows }.Tallied held since n :=
  ⟨h.inFlight, h.pulls, h.crest, h.peak, h.present, h.covered⟩

/-- The counted most is behind the pulls in flight as long as no pull has begun since the reset. -/
theorem behind_iff (h : t.Tallied held since n) :
    t.mostInFlight < t.inFlight ↔ t.pulls = 0 ∧ 0 < t.inFlight := by
  rw [h.inFlight]
  constructor
  · intro hlt
    exact ⟨by_contra fun hne => absurd (h.covered hne) (Nat.not_le.mpr hlt), by omega⟩
  · rintro ⟨hpulls, hpos⟩
    -- without a pull that has begun there is no crest
    have hnone : ∀ m ∈ crests since, m ≤ 0 := by
      intro m hm
      rw [h.pulls, List.countP_eq_zero] at hpulls
      exact absurd rfl (hpulls _ hm)
    exact Nat.lt_of_le_of_lt (h.crest.2 hnone) hpos

/-- The counted most is the peak, unless more pulls were in flight when the counts were reset. -/
theorem isGreatest_iff (h : t.Tallied held since n) :
    IsGreatest (heights held since) t.mostInFlight ↔ held ≤ t.mostInFlight := by
  constructor
  · exact fun hg => hg.2 (Or.inl rfl)
  · intro hle
    have hpeak := h.peak
    rwa [max_eq_right hle] at hpeak

end Tallied

/-- A deletion leaves the counts alone. -/
theorem delete_counts [Record R] (t : Table R) (key : String) (time : Instant) :
    ∃ rows, (t.delete key time).1 = { t with rows } := by
  unfold delete
  split
  · split <;> exact ⟨_, rfl⟩
  · exact ⟨_, rfl⟩

end Table

/-! ## Stores -/

namespace Store

/-- What can be done to a store beside its pulls. -/
inductive Chore where
  | put (k : CacheKind) (r : k.Row)
  | putRaw (k : CacheKind) (r : k.Row)
  | delete (k : CacheKind) (key : String)
  | setClock (clock : Instant)
  | advance (span : Span)
  | slowDown (latency : Option Nat)
  | fail (message : Option String)
  | failNext (message : String)

/-- The store after a chore; a write for which there is no time left is not made. -/
def tend (s : Store) : Chore → Store
  | .put k r => (s.put? k r).elim s (·.1)
  | .putRaw k r => s.putRaw k r
  | .delete k key => (s.delete? k key).elim s (·.1)
  | .setClock clock => { s with clock }
  | .advance span => s.advance span
  | .slowDown latency => { s with latency }
  | .fail failure => { s with failure }
  | .failNext message => { s with nextFailure := some message }

variable {k l : CacheKind}

theorem table_mapTable_self (s : Store) (k : CacheKind) (f : Table k.Row → Table k.Row) :
    (s.mapTable k f).table k = f (s.table k) := ByKind.get_set_self _ k _

theorem table_mapTable_of_ne (s : Store) (f : Table k.Row → Table k.Row) (h : l ≠ k) :
    (s.mapTable k f).table l = s.table l := ByKind.get_set_of_ne _ _ h

theorem table_resetCounts (s : Store) (k : CacheKind) :
    s.resetCounts.table k = (s.table k).resetCounts := ByKind.get_tabulate _ k

/-- However a pull is answered, its beginning is all that the tables see of it. -/
theorem table_beginPull (s : Store) (since : Instant) (firstLoad : Bool) (now : Nat) :
    (s.beginPull k since firstLoad now).1.table l = (s.mapTable k Table.enter).table l := by
  unfold beginPull answerNow
  split <;> rfl

/-- A table with rows that were put or deleted. -/
theorem table_mapTable_rows (s : Store) (f : Table k.Row → Table k.Row)
    (hf : ∃ rows, f (s.table k) = { s.table k with rows }) (l : CacheKind) :
    ∃ rows, (s.mapTable k f).table l = { s.table l with rows } := by
  by_cases hl : l = k
  · subst hl
    rw [table_mapTable_self]
    exact hf
  · exact ⟨_, table_mapTable_of_ne s f hl⟩

/-- A chore leaves the counts of every table alone. -/
theorem table_tend (s : Store) (chore : Chore) (l : CacheKind) :
    ∃ rows, (s.tend chore).table l = { s.table l with rows } := by
  cases chore with
  | put k r =>
    simp only [tend, put?, tick?]
    cases s.clock.add? (Span.seconds 1) with
    | none => exact ⟨_, rfl⟩
    | some next => exact table_mapTable_rows { s with clock := next } _ ⟨_, rfl⟩ l
  | putRaw k r => exact s.table_mapTable_rows _ ⟨_, rfl⟩ l
  | delete k key =>
    simp only [tend, delete?, tick?]
    cases s.clock.add? (Span.seconds 1) with
    | none => exact ⟨_, rfl⟩
    | some next =>
      refine table_mapTable_rows { s with clock := next } _ ?_ l
      exact (s.table k).delete_counts key s.clock
  | setClock | advance | slowDown | fail | failNext => exact ⟨_, rfl⟩

end Store

/-! ## Attendances -/

namespace Attendance

/-- A pull that is open, with its kind. -/
abbrev Pending : Type := (k : CacheKind) × OpenPull k.Row

/-- What was open at a moment. -/
structure Moment where
  pending : List Pending
  /-- The kind of the pull that had just begun, if one had. -/
  begun : Option CacheKind

end Attendance

/-- A store, the pulls that it has begun to answer, and what was open before. -/
structure Attendance where
  store : Store := .empty
  /-- The clock, in milliseconds. -/
  now : Nat := 0
  /-- The pulls that have begun and have neither ended nor been dropped, the newest first. -/
  pending : List Attendance.Pending := []
  /-- What was open when the counts were last reset. -/
  held : List Attendance.Pending := []
  /-- The moments since then, the newest first. -/
  since : List Attendance.Moment := []

namespace Attendance

/-- A step of an attendance. -/
inductive Action where
  /-- A pull begins. -/
  | pull (k : CacheKind) (since : Instant) (firstLoad : Bool)
  /-- The `i`-th open pull is polled, and ends if its answer is there. -/
  | poll (i : Nat)
  /-- The `i`-th open pull is dropped. -/
  | drop (i : Nat)
  /-- The counts are reset. -/
  | reset
  | tend (chore : Store.Chore)
  | pass (span : Nat)

/-- The next moment, with other pulls open. -/
def turn (s : Attendance) (store : Store) (pending : List Pending) (begun : Option CacheKind) :
    Attendance :=
  { s with store, pending, since := ⟨pending, begun⟩ :: s.since }

/-- An open pull ends or is dropped. -/
def release (s : Attendance) (before : List Pending) (p : Pending) (after : List Pending) :
    Attendance :=
  s.turn (s.store.endPull p.1) (before ++ after) none

/-- The attendance after a step. -/
def act (s : Attendance) : Action → Attendance
  | .pull k since firstLoad =>
    let (store, pull) := s.store.beginPull k since firstLoad s.now
    s.turn store (⟨k, pull⟩ :: s.pending) (some k)
  | .poll i =>
    match Waiting.pick? (fun _ => true) i s.pending with
    | some (before, p, after) => if p.2.readyAt ≤ s.now then s.release before p after else s
    | none => s
  | .drop i =>
    match Waiting.pick? (fun _ => true) i s.pending with
    | some (before, p, after) => s.release before p after
    | none => s
  | .reset => { s with store := s.store.resetCounts, held := s.pending, since := [] }
  | .tend chore => { s with store := s.store.tend chore }
  | .pass span => { s with now := s.now + span }

/-- Steps are made in turn. -/
def run (s : Attendance) (actions : List Action) : Attendance := actions.foldl act s

/-- The table of a kind. -/
def table (s : Attendance) (k : CacheKind) : Table k.Row := s.store.table k

/-- How many pulls of a kind are among the open ones. -/
def countOf (k : CacheKind) (pending : List Pending) : Nat := pending.countP fun p => p.1 == k

/-- What a moment was to the pulls of a kind. -/
def levelOf (k : CacheKind) (m : Moment) : Table.Level := ⟨countOf k m.pending, m.begun == some k⟩

/-- How many pulls of a kind were open, each time one of them had just begun since the reset. -/
def crests (s : Attendance) (k : CacheKind) : Set Nat :=
  Table.crests (s.since.map (levelOf k))

/-- How many pulls of a kind were open at each moment since the reset, its own moment included. -/
def heights (s : Attendance) (k : CacheKind) : Set Nat :=
  Table.heights (countOf k s.held) (s.since.map (levelOf k))

/-- The counts of a kind tell its levels. -/
def Tallied (s : Attendance) (k : CacheKind) : Prop :=
  (s.table k).Tallied (countOf k s.held) (s.since.map (levelOf k)) (countOf k s.pending)

variable {s : Attendance} {k l : CacheKind} {before after : List Pending} {p : Pending}

/-! ### Steps -/

theorem countOf_cons (k : CacheKind) (p : Pending) (pending : List Pending) :
    countOf k (p :: pending) = countOf k pending + if p.1 = k then 1 else 0 := by
  simp [countOf, List.countP_cons]

theorem countOf_split (k : CacheKind) (before after : List Pending) (p : Pending) :
    countOf k (before ++ p :: after) = countOf k (p :: (before ++ after)) :=
  List.perm_middle.countP_eq _

theorem Tallied.pull (h : s.Tallied k) (l : CacheKind) (since : Instant) (firstLoad : Bool) :
    (s.act (.pull l since firstLoad)).Tallied k := by
  unfold Tallied table act turn
  simp only [List.map_cons, levelOf]
  rw [Store.table_beginPull, countOf_cons]
  by_cases hl : k = l
  · subst hl
    rw [Store.table_mapTable_self, if_pos rfl, beq_self_eq_true]
    exact h.enter
  · rw [Store.table_mapTable_of_ne _ _ hl, if_neg (Ne.symm hl),
      beq_eq_false_iff_ne.mpr fun heq => hl (Option.some.inj heq).symm]
    exact h.stay

theorem Tallied.release (h : s.Tallied k) (hw : s.pending = before ++ p :: after) :
    (s.release before p after).Tallied k := by
  unfold Tallied table at h
  rw [hw, countOf_split, countOf_cons] at h
  unfold Tallied table Attendance.release turn Store.endPull
  simp only [List.map_cons, levelOf]
  by_cases hp : k = p.1
  · subst hp
    rw [if_pos rfl] at h
    rw [Store.table_mapTable_self]
    exact h.leave
  · rw [if_neg (Ne.symm hp)] at h
    rw [Store.table_mapTable_of_ne _ _ hp]
    exact h.stay

theorem Tallied.act (h : s.Tallied k) (action : Action) : (s.act action).Tallied k := by
  cases action with
  | pull l since firstLoad => exact h.pull l since firstLoad
  | poll i =>
    simp only [Attendance.act]
    split
    · split
      · exact h.release (Waiting.eq_append_of_pick? ‹_›)
      · exact h
    · exact h
  | drop i =>
    simp only [Attendance.act]
    split
    · exact h.release (Waiting.eq_append_of_pick? ‹_›)
    · exact h
  | reset =>
    show (s.store.resetCounts.table k).Tallied _ [] _
    rw [Store.table_resetCounts]
    exact h.resetCounts
  | tend chore =>
    obtain ⟨rows, heq⟩ := s.store.table_tend chore k
    show ((s.store.tend chore).table k).Tallied _ _ _
    rw [heq]
    exact h.withRows rows
  | pass span => exact h

theorem Tallied.run (h : s.Tallied k) (actions : List Action) : (s.run actions).Tallied k := by
  induction actions generalizing s with
  | nil => exact h
  | cons action rest ih => exact ih (h.act action)

/-- A new store has counted no pulls. -/
theorem Tallied.start (k : CacheKind) : ({} : Attendance).Tallied k := by
  have htable : Store.empty.table k = {} := ByKind.get_tabulate _ k
  show (Store.empty.table k).Tallied _ _ _
  rw [htable]
  exact .afresh rfl rfl rfl

/-! ### What the counts tell -/

/-- What the counts of a kind tell of the pulls that were open. -/
structure Tells (s : Attendance) (k : CacheKind) : Prop where
  /-- The pulls in flight are those that began and have neither ended nor been dropped. -/
  inFlight : (s.table k).inFlight = countOf k s.pending
  /-- The pulls are those that began since the reset. -/
  pulls : (s.table k).pulls = s.since.countP fun m => m.begun == some k
  /-- The counted most is the largest number that was open when a pull had just begun since the
  reset, and zero if none has. -/
  crest : IsLUB (s.crests k) (s.table k).mostInFlight
  /-- The largest number that was open at one moment since the reset is the counted most, or the
  number that was open at the reset. -/
  peak : IsGreatest (s.heights k) (max (countOf k s.held) (s.table k).mostInFlight)
  /-- What is open now is one of these numbers. -/
  present : (s.table k).inFlight ∈ s.heights k
  /-- The counted most is the largest of them unless more were open at the reset. -/
  reached : IsGreatest (s.heights k) (s.table k).mostInFlight ↔
    countOf k s.held ≤ (s.table k).mostInFlight
  /-- The counted most is below the number in flight exactly while pulls of the time before the
  reset are, and none has begun since. -/
  behind : (s.table k).mostInFlight < (s.table k).inFlight ↔
    (s.table k).pulls = 0 ∧ 0 < (s.table k).inFlight

/-- **Counts of pulls.** Whatever is done to a new store and its pulls, the number in flight is that
of the open pulls, and the counted most is the largest number that was open when a pull had just
begun since the counts were last reset. It misses the pulls that were open at the reset until
another one begins. -/
theorem run_tells (actions : List Action) (k : CacheKind) : (run {} actions).Tells k := by
  have h := (Tallied.start k).run actions
  refine ⟨h.inFlight, ?_, h.crest, h.peak, ?_, h.isGreatest_iff, h.behind_iff⟩
  · rw [h.pulls, List.countP_map]
    rfl
  · rw [h.inFlight]
    exact h.present

/-- A reset forgets a pull that is open: one pull is in flight, and the counted most is none. -/
theorem held_pull_forgotten :
    let s := run {} [.tend (.slowDown (some 50)), .pull .namespaces .epoch true, .reset]
    (s.table .namespaces).inFlight = 1 ∧ (s.table .namespaces).mostInFlight = 0 ∧
      ¬ IsGreatest (s.heights .namespaces) (s.table .namespaces).mostInFlight := by
  intro s
  have hopen : (1 : Nat) ∈ s.heights .namespaces := Or.inl (by decide +kernel)
  have hmost : (s.table .namespaces).mostInFlight = 0 := by decide +kernel
  refine ⟨by decide +kernel, hmost, fun hg => ?_⟩
  have hle := hg.2 hopen
  omega

/-- Once another pull begins, the counted most is two, though only one pull is counted. -/
example : let s := run {} [.tend (.slowDown (some 50)), .pull .namespaces .epoch true, .reset,
      .pull .namespaces .epoch true, .drop 1]
    (s.table .namespaces).pulls = 1 ∧ (s.table .namespaces).inFlight = 1 ∧
      (s.table .namespaces).mostInFlight = 2 := by decide +kernel

end Attendance

end GovernanceCache
