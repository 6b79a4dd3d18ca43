import GovernanceCache.Proofs.CalmSteps
import GovernanceCache.Proofs.Sources

/-!
# No missed writes

A mirror is a session whose store keeps one table. Rows are written to the table at any time, and
the pull of a call selects its rows at one moment while it is in flight. As long as the writes are
admissible, every pull that ends well leaves the replica with the image of the snapshot from which
it selected.

1. `Faithful` is the invariant: the replica follows the source, and a batch at hand answers for what
   its call selected from.
2. Writes, selections, answers and calm steps keep the pictured snapshot; a clear makes it the empty
   one.
3. A merge makes it the one from which its call selected.
-/

namespace GovernanceCache

variable {R ι : Type}

/-! ## Mirrors -/

open Desk (Visit Action Session)
open Desk.Session (Orderly Serial Calm Opened)

/-- A session whose store keeps one table. -/
structure Mirror (R ι : Type) where
  session : Session R ι
  source : Source R := {}

namespace Mirror

/-- The skew of the replica. -/
def skew (m : Mirror R ι) : Span := m.session.refresher.replica.skew

/-- The pull of a call is under way, and of the current generation. -/
def Pulling (s : Session R ι) (call : Nat) : Prop :=
  ∃ v ∈ s.visits, ∃ ticket, v.caller.stage = .pulling call ticket () ∧
    ticket.generation = s.refresher.replica.generation

section

variable [Record R] [Index R ι]

/-- A mirror of a new table. -/
def start (kind : CacheKind) (skew : Span) (buffer : Nat) (now : Instant) :
    Mirror R ι :=
  { session := .start kind skew buffer now }

/-- What happens to a mirror. -/
inductive Step (m : Mirror R ι) : Mirror R ι → Prop
  | write (source : Source R) (h : Source.Write m.skew m.source source) : Step m { m with source }
  /-- The pull of a call that is in flight selects its rows. -/
  | select (v : Visit R) (call : Nat) (ticket : Ticket) (hv : v ∈ m.session.visits)
    (hp : v.caller.stage = .pulling call ticket ()) (h : m.source.selected call = none) :
    Step m { m with source := m.source.select call }
  /-- The store answers a pull with the rows that it selected. -/
  | answer (i : Nat) (before after : List (Visit R)) (v : Visit R) (call : Nat) (ticket : Ticket)
    (batch : List R)
    (hi : Waiting.pick? Visit.isOpen i m.session.visits = some (before, v, after))
    (hp : v.caller.stage = .pulling call ticket ()) (h : m.source.Answered call ticket batch) :
    Step m { m with session := m.session.answer i (.ok batch) }
  /-- Any other step of the session: the store fails, callers enter, are polled or dropped, the
  replica is cleared or closed, and so on. -/
  | act (action : Action R) (h : ∀ i batch, action ≠ .answer i (.ok batch)) :
    Step m { m with session := m.session.act action }

/-- What can become of a mirror of a new table. -/
inductive Reached : Mirror R ι → Prop
  | start (kind : CacheKind) (skew : Span) (buffer : Nat) (now : Instant) :
    Reached (start kind skew buffer now)
  | step {m m' : Mirror R ι} : Reached m → Step m m' → Reached m'

end

variable [Record R]

/-- What holds of every mirror. -/
structure Faithful (m : Mirror R ι) : Prop where
  orderly : Orderly m.session
  serial : Serial m.session
  lawful : m.source.Lawful m.skew
  opened : ∀ call snapshot, m.source.selected call = some snapshot → Opened m.session.log call
  /-- A batch at hand answers for what its call selected from. -/
  answers : ∀ v ∈ m.session.visits, ∀ call ticket batch,
    v.caller.stage = .pulling call ticket () → v.caller.answer = some (.ok batch) →
    m.source.Answered call ticket batch
  follows : ∃ base, m.source.Follows m.session.refresher.replica base (Pulling m.session)

namespace Faithful

variable {m m' : Mirror R ι} {s : Session R ι} {before after : List (Visit R)} {v : Visit R}
  {call i : Nat} {ticket : Ticket} {batch : List R} {answer : Answer R} {source : Source R}

theorem write [LawfulRecord R] (h : Faithful m) (hw : Source.Write m.skew m.source source) :
    Faithful { m with source } := by
  have hsel := (hw.present_eq h.lawful.sound).1
  refine ⟨h.orderly, h.serial, h.lawful.write hw, ?_, ?_, ?_⟩
  · intro n snapshot hs
    have hs : source.selected n = some snapshot := hs
    rw [hsel] at hs
    exact h.opened n snapshot hs
  · intro w hmem n ticket batch hp ha
    obtain ⟨snapshot, hs, hans⟩ := h.answers w hmem n ticket batch hp ha
    exact ⟨snapshot, hsel ▸ hs, hans⟩
  · obtain ⟨base, hbase⟩ := h.follows
    exact ⟨base, hbase.write h.lawful.sound hw⟩

theorem select (h : Faithful m) (hv : v ∈ m.session.visits)
    (hp : v.caller.stage = .pulling call ticket ()) (hnone : m.source.selected call = none) :
    Faithful { m with source := m.source.select call } := by
  refine ⟨h.orderly, h.serial, h.lawful.select call, ?_, ?_, ?_⟩
  · intro n snapshot hs
    rcases Source.of_selected_select hs with ⟨rfl, -⟩ | hs
    · rw [← Desk.Session.call_of_pulling hp]
      exact h.orderly.called v hv
    · exact h.opened n snapshot hs
  · intro w hw n ticket' batch hp' ha
    exact (h.answers w hw n ticket' batch hp' ha).select hnone
  · obtain ⟨base, hbase⟩ := h.follows
    exact ⟨base, hbase.select call⟩

/-- The session goes on, and nothing is merged or cleared. -/
theorem calm (h : Faithful m) (hc : Calm m.session s) (ho : Orderly s) (hs : Serial s) :
    Faithful { m with session := s } := by
  have hskew : ({ m with session := s } : Mirror R ι).skew = m.skew := hc.alike.skew
  refine ⟨ho, hs, hskew ▸ h.lawful, fun n snapshot hsel => hc.opened n (h.opened n snapshot hsel),
    ?_, ?_⟩
  · intro w hw n ticket' batch' hp ha
    rcases hc.pulls w hw n ticket' hp with ⟨v, hv, hstage, hans⟩ | ⟨-, hans⟩
    · rw [← hstage] at hp
      exact h.answers v hv n ticket' batch' hp (hans batch' ha)
    · exact absurd ha (hans batch')
  · obtain ⟨base, hbase⟩ := h.follows
    refine ⟨base, hbase.alike hc.alike ?_⟩
    rintro n ⟨w, hw, ticket', hp, hgen⟩
    rcases hc.pulls w hw n ticket' hp with ⟨v, hv, hstage, -⟩ | ⟨hnot, -⟩
    · rw [← hstage] at hp
      exact .inl ⟨v, hv, ticket', hp, hgen.trans hc.alike.generation⟩
    · -- a call that was not yet opened has not selected
      exact .inr (Option.eq_none_iff_forall_not_mem.mpr fun snapshot hsel =>
        hnot (h.opened n snapshot hsel))

theorem reply (h : Faithful m)
    (hi : Waiting.pick? Visit.isOpen i m.session.visits = some (before, v, after))
    (hp : v.caller.stage = .pulling call ticket ()) (hans : m.source.Answered call ticket batch) :
    Faithful { m with session := m.session.answer i (.ok batch) } := by
  have hw := Waiting.eq_append_of_pick? hi
  have heq : m.session.answer i (.ok batch) =
      { m.session with
        visits := before ++
          { v with caller := { v.caller with answer := some (.ok batch) } } :: after
        log := .answered v.caller.call (.ok batch) :: m.session.log } := by
    unfold Session.answer
    rw [hi]
  have ho := h.orderly.answer i (.ok batch)
  have hserial := h.serial.answer i (.ok batch)
  rw [heq] at ho hserial ⊢
  refine ⟨ho, hserial, h.lawful, fun n snapshot hsel => (h.opened n snapshot hsel).cons _, ?_, ?_⟩
  · intro w hmem n ticket' batch' hp' ha
    rcases Waiting.eq_or_mem_rest hmem with rfl | hmem
    · rw [hp] at hp'
      cases hp'
      cases ha
      exact hans
    · exact h.answers w (Waiting.mem_of_mem_rest hw hmem) n ticket' batch' hp' ha
  · obtain ⟨base, hbase⟩ := h.follows
    refine ⟨base, hbase.alike ⟨rfl, rfl, rfl, rfl, rfl, rfl⟩ ?_⟩
    rintro n ⟨w, hmem, ticket', hp', hgen⟩
    rcases Waiting.eq_or_mem_rest hmem with rfl | hmem
    · exact .inl ⟨v, Waiting.mem_of_split hw, ticket', hp', hgen⟩
    · exact .inl ⟨w, Waiting.mem_of_mem_rest hw hmem, ticket', hp', hgen⟩

variable [Index R ι]

theorem start (kind : CacheKind) (skew : Span) (buffer : Nat) (now : Instant) :
    Faithful (start kind skew buffer now : Mirror R ι) where
  orderly := .start kind skew buffer now
  serial := .start kind skew buffer now
  lawful := .start _
  opened call snapshot h := by cases h
  answers v hv := by simp [Mirror.start, Session.start] at hv
  follows := by
    refine ⟨{}, .empty, .of_empty _ _, ⟨?_, Or.inl rfl, fun _ => rfl⟩, fun _ _ _ h => by cases h⟩
    intro key
    simp [Mirror.start, Session.start, Replica.create, Snapshot.image]

theorem clear (h : Faithful m) : Faithful { m with session := m.session.clear } := by
  refine ⟨h.orderly.clear, h.serial.clear, h.lawful,
    fun n snapshot hsel => (h.opened n snapshot hsel).cons _, h.answers, {}, ?_⟩
  exact (Source.Follows.reset m.source m.session.refresher.replica (Pulling _)).alike
    ⟨rfl, rfl, rfl, rfl, rfl, rfl⟩ fun _ => .inl

/-- A pull that merges leaves the replica with the snapshot from which its call selected. -/
theorem follows_of_merged (h : Faithful m)
    (hi : Waiting.pick? (fun _ => true) i m.session.visits = some (before, v, after))
    (hp : v.caller.stage = .pulling call ticket ()) (ha : v.caller.answer = some answer)
    (hd : m.session.refresher.replica.verdict ticket answer = .ok batch) :
    ∃ snapshot, m.source.selected call = some snapshot ∧
      m.source.Follows (m.session.poll i).refresher.replica snapshot
        (Pulling (m.session.poll i)) := by
  obtain ⟨rfl, -, -, hgen⟩ := Replica.verdict_eq_ok.mp hd
  have hw := Waiting.eq_append_of_pick? hi
  have hv : v ∈ m.session.visits := Waiting.mem_of_split hw
  obtain ⟨snapshot, hsel, hans⟩ := h.answers v hv call ticket batch hp ha
  obtain ⟨base, hbase⟩ := h.follows
  -- the ticket is still what the replica would ask for
  obtain ⟨hsince, hfirst⟩ := h.serial.ticket_eq hv hp hgen.symm
  rw [hsince, hfirst] at hans
  have heq := Session.poll_of_merged hi hp ha hd
  refine ⟨snapshot, hsel, ?_⟩
  have hreplica : (m.session.poll i).refresher.replica =
      (m.session.refresher.replica.mergeBatch ticket batch).1.publish
        (GovernanceCache.merge m.session.refresher.replica.entries batch).changes := by
    rw [heq]
    exact congrArg Prod.fst (Replica.closePull_of_ok hd)
  have hmerged : m.source.Follows (m.session.refresher.replica.mergeBatch ticket batch).1 snapshot
      (Pulling (m.session.poll i)) := by
    refine hbase.merge h.lawful ⟨v, hv, ticket, hp, hgen.symm⟩ hsel ticket hans ?_
    -- every other pull is of an older generation
    rintro n ⟨w, hmem, ticket', hp', hgen'⟩
    rw [hreplica] at hgen'
    rw [heq] at hmem
    exact h.serial.alone h.orderly hw hp hgen.symm hmem hp' hgen'
  rw [hreplica]
  exact hmerged.alike (Replica.publish_alike _ _) fun _ => .inl

theorem merge (h : Faithful m)
    (hi : Waiting.pick? (fun _ => true) i m.session.visits = some (before, v, after))
    (hp : v.caller.stage = .pulling call ticket ()) (ha : v.caller.answer = some answer)
    (hd : m.session.refresher.replica.verdict ticket answer = .ok batch) :
    Faithful { m with session := m.session.poll i } := by
  obtain ⟨snapshot, hsel, hbase⟩ := h.follows_of_merged hi hp ha hd
  have hw := Waiting.eq_append_of_pick? hi
  have heq := Session.poll_of_merged hi hp ha hd
  have hskew : ({ m with session := m.session.poll i } : Mirror R ι).skew = m.skew := by
    show (m.session.poll i).refresher.replica.skew = _
    rw [heq]
    exact (Replica.closePull_keeps _ ticket answer).2.1
  refine ⟨h.orderly.poll i, h.serial.poll h.orderly i, hskew ▸ h.lawful, ?_, ?_, snapshot, hbase⟩
  · intro n snapshot' hsel'
    show Session.Opened (m.session.poll i).log n
    rw [heq]
    exact (Session.opened_merges.mpr (h.opened n snapshot' hsel')).cons _
  · intro w hmem
    have hmem : w ∈ (m.session.poll i).visits := hmem
    rw [heq] at hmem
    exact h.answers w (Waiting.mem_of_mem_rest hw hmem)

theorem act (h : Faithful m) (action : Action R)
    (hact : ∀ i batch, action ≠ .answer i (.ok batch)) :
    Faithful { m with session := m.session.act action } := by
  have ho := h.orderly.act action
  have hs := h.serial.act h.orderly action
  cases action with
  | enter client => exact h.calm (.enter h.orderly client) ho hs
  | answer i a =>
    cases a with
    | error fault => exact h.calm (.fail m.session i fault) ho hs
    | ok batch => exact absurd rfl (hact i batch)
  | poll i =>
    rcases Calm.poll h.orderly i with hc | ⟨_, _, _, _, _, _, _, hi, hp, ha, hd⟩
    · exact h.calm hc ho hs
    · exact h.merge hi hp ha hd
  | drop i => exact h.calm (.drop m.session i) ho hs
  | clear => exact h.clear
  | close => exact h.calm (.of_subset ⟨rfl, rfl, rfl, rfl, rfl, rfl⟩ [] rfl fun _ => id) ho hs
  | tick now => exact h.calm (.of_subset ⟨rfl, rfl, rfl, rfl, rfl, rfl⟩ [] rfl fun _ => id) ho hs
  | aside tally feed =>
    exact h.calm (.of_subset ⟨rfl, rfl, rfl, rfl, rfl, rfl⟩ [] rfl fun _ => id) ho hs
  | elsewhere step => exact h.calm (.elsewhere h.orderly step) ho hs

variable [LawfulRecord R]

theorem step (h : Faithful m) (hstep : Step m m') : Faithful m' := by
  cases hstep with
  | write source hw => exact h.write hw
  | select v call ticket hv hp hnone => exact h.select hv hp hnone
  | answer i before after v call ticket batch hi hp hans => exact h.reply hi hp hans
  | act action hact => exact h.act action hact

end Faithful

variable [Index R ι] [LawfulRecord R]

theorem Reached.faithful {m : Mirror R ι} (h : Reached m) : Faithful m := by
  induction h with
  | start kind skew buffer now => exact .start kind skew buffer now
  | step _ hstep ih => exact ih.step hstep

/-- **No write is missed.** When a pull of a mirror ends well, the entries of the replica are the
live rows that the table held when the pull selected, no more and no fewer. -/
theorem pull_misses_nothing {m : Mirror R ι} (h : Reached m) {i : Nat}
    {before after : List (Visit R)} {v : Visit R} {call : Nat} {ticket : Ticket} {answer : Answer R}
    (hi : Waiting.pick? (fun _ => true) i m.session.visits = some (before, v, after))
    (hp : v.caller.stage = .pulling call ticket ()) (ha : v.caller.answer = some answer)
    (hok : m.session.outcome ticket answer = .ok ()) :
    ∃ snapshot, m.source.selected call = some snapshot ∧
      ∀ key : String, (m.session.poll i).refresher.replica.entries[key]? = snapshot.image key := by
  rcases hd : m.session.refresher.replica.verdict ticket answer with fault | batch
  · rw [Session.outcome_of_error hd] at hok
    cases hok
  · obtain ⟨snapshot, hsel, hbase⟩ := h.faithful.follows_of_merged hi hp ha hd
    exact ⟨snapshot, hsel, hbase.pictures.entries⟩

/-- A row that is written while a pull is in flight is left to the next one. -/
theorem pull_beside_write : ∃ (m : Mirror Namespace Exports) (snapshot : Snapshot Namespace),
    Reached m ∧ m.source.table.rows.contains "late" = true ∧ m.source.selected 0 = some snapshot ∧
      snapshot.rows.contains "late" = false ∧
      ∀ key : String, (m.session.poll 0).refresher.replica.entries[key]? = snapshot.image key := by
  -- the later row lags behind the earlier one, within the skew
  let early : Namespace := { name := "early", modified := ⟨5, 0, by decide, by decide, by decide⟩ }
  let late : Namespace := { name := "late", modified := ⟨4, 0, by decide, by decide, by decide⟩ }
  have hearly : Admissible (.seconds (-2)) [] early :=
    ⟨by decide, by decide, fun _ he => (nomatch he), fun _ he => (nomatch he)⟩
  have hlate : Admissible (.seconds (-2)) [early] late := by
    refine ⟨by decide, by decide, ?_, ?_⟩
    · intro e he
      rw [List.mem_singleton.mp he]
      decide
    · intro e he hkey
      rw [List.mem_singleton.mp he] at hkey
      exact absurd hkey (by decide)
  have hanswers : Answers (({} : Table Namespace).put early).rows .epoch true [early] := by
    have hselect : (({} : Table Namespace).put early).select .epoch true = [early] :=
      List.mergeSort_singleton _
    rw [← hselect]
    exact Table.select_answers _ (Keyed.empty.insert early) .epoch true
  have h₁ : Reached (start .namespaces (.seconds (-2)) 1 .epoch : Mirror Namespace Exports) :=
    .start _ _ _ _
  have h₂ := h₁.step (.write _ (.put early hearly))
  have h₃ := h₂.step (.act (.enter ⟨"reader", false, false⟩) fun _ _ heq => (nomatch heq))
  have h₄ := h₃.step (.select _ 0 _ (.head _) rfl rfl)
  have h₅ := h₄.step (.write _ (.put late hlate))
  have h₆ := h₅.step (.answer 0 _ _ _ _ _ _ rfl rfl ⟨_, rfl, hanswers⟩)
  obtain ⟨snapshot, hsel, himage⟩ := pull_misses_nothing (i := 0) h₆ rfl rfl rfl rfl
  refine ⟨_, snapshot, h₆, ?_, hsel, ?_, himage⟩
  · decide
  · obtain rfl := Option.some.inj hsel
    decide

end Mirror

end GovernanceCache
