import GovernanceCache.Proofs.CalmSteps
import GovernanceCache.Proofs.WatermarkReach
import GovernanceCache.Proofs.WholePulls
import Mathlib.Order.Bounds.Basic

/-!
# What the watermark accounts for

The watermark of a replica stands at the latest moment of all records that it merged since the last
clear, and at the epoch if it merged none. The next pull reaches back from there by the skew, but
not behind the epoch.

1. The bound of a pull is a sum of whole nanoseconds, even where the sum is out of range
   (`Watermark.since_nanos`).
2. The record of a session tells the batches that were merged since the last clear. A step adds the
   batch that it takes in, and no other (`takenIn_act`).
3. `Accounted` is the invariant, which every step keeps; the skew is never changed (`act_skew`).
-/

namespace GovernanceCache

/-! ## The bound of the next pull -/

theorem Instant.ofNanos?_eq_none {count : Int} (h : ofNanos? count = none) :
    count < -8334601228800 * 1000000000 ∨ 8210266876800 * 1000000000 ≤ count := by
  unfold ofNanos? ofReading? nanosPerSecond at h
  split at h
  · cases h
  · omega

/-- An ordinary moment with a span before it counts its nanoseconds, unless it leaves the range, and
then it does so in the past. -/
theorem Instant.add?_eq_none {t : Instant} {span : Int} (ht : t.IsOrdinary) (hspan : span ≤ 0)
    (h : t.add? span = none) : t.nanos + span < 0 := by
  unfold IsOrdinary nanosPerSecond at ht
  have hsecond := t.second_le
  unfold add? at h
  rw [if_pos ht] at h
  have hout := ofNanos?_eq_none h
  unfold nanos at hout ⊢
  omega

namespace Watermark

variable {w : Watermark} {skew : Int}

/-- The bound of the next pull lies behind the watermark by the skew, but not behind the epoch. -/
theorem since_nanos (hw : w.lastModified.IsOrdinary) (hskew : skew ≤ 0) :
    (w.since skew).IsOrdinary ∧ (w.since skew).nanos = max 0 (w.lastModified.nanos + skew) := by
  have hepoch : Instant.epoch.IsOrdinary ∧ Instant.epoch.nanos = 0 := by decide
  unfold since
  split
  · rename_i hzero
    rw [isZero, beq_iff_eq] at hzero
    refine ⟨hepoch.1, ?_⟩
    rw [hzero, hepoch.2, max_eq_left (by omega)]
  · rcases hadd : w.lastModified.add? skew with _ | t
    · have hneg := Instant.add?_eq_none hw hskew hadd
      rw [Option.getD_none, Instant.max_def, ite_self, max_eq_left (by omega)]
      exact hepoch
    · obtain ⟨ht, hnanos⟩ := Instant.add?_eq_some hw hadd
      rw [Option.getD_some, Instant.max_def, ← hnanos]
      split
      · rename_i hle
        rw [Instant.le_iff_nanos_le ht hepoch.1, hepoch.2] at hle
        rw [max_eq_left hle]
        exact hepoch
      · rename_i hle
        rw [Instant.le_iff_nanos_le ht hepoch.1, hepoch.2] at hle
        rw [max_eq_right (by omega)]
        exact ⟨ht, rfl⟩

/-- A skew that leads out of the range leads to the epoch. -/
example :
    (⟨⟨5, 0, by decide, by decide, by decide⟩, .epoch⟩ : Watermark).since (.seconds (-10 ^ 13)) =
      .epoch := by decide

theorem advance_cases (w : Watermark) (latest : Option Instant) (fetched : Instant) :
    (w.advance latest fetched).lastModified = w.lastModified ∨
      latest = some (w.advance latest fetched).lastModified := by
  unfold advance
  rcases latest with _ | t
  · exact Or.inl rfl
  · simp only
    split
    · exact Or.inr rfl
    · exact Or.inl rfl

theorem lastModified_le_advance (w : Watermark) (latest : Option Instant) (fetched : Instant) :
    w.lastModified ≤ (w.advance latest fetched).lastModified := by
  unfold advance
  rcases latest with _ | t
  · exact Instant.le_refl _
  · simp only
    split
    · rename_i hlt
      exact Instant.le_of_lt hlt
    · exact Instant.le_refl _

end Watermark

variable {R ι : Type} [Record R]

/-! ## What was taken in -/

namespace Desk

/-- The batches that were merged since the last clear, by what is on record, the latest first. -/
def takenIn : List (Occurrence R ι) → List (List R)
  | .merged _ batch _ :: earlier => batch :: takenIn earlier
  | .cleared :: _ => []
  | _ :: earlier => takenIn earlier
  | [] => []

/-- The epoch, and when the records of some batches were modified. -/
def momentsOf (batches : List (List R)) : Set Instant :=
  {t | t = .epoch ∨ ∃ batch ∈ batches, ∃ r ∈ batch, Record.modified r = t}

variable {told log : List (Occurrence R ι)} {w : Watermark} {batch : List R}
  {batches : List (List R)} {fetched : Instant}

omit [Record R] in
theorem takenIn_append (h : ∀ e ∈ told, ¬ e.Disturbs) : takenIn (told ++ log) = takenIn log := by
  induction told with
  | nil => rfl
  | cons e told ih =>
    obtain ⟨he, htold⟩ := List.forall_mem_cons.mp h
    rw [← ih htold]
    cases e with
    | merged | cleared => exact absurd trivial he
    | _ => rfl

theorem momentsOf_mono {earlier : List (List R)} (h : earlier ⊆ batches) :
    momentsOf earlier ⊆ momentsOf batches := by
  rintro t (ht | ⟨batch, hbatch, hr⟩)
  · exact Or.inl ht
  · exact Or.inr ⟨batch, h hbatch, hr⟩

/-- The watermark moves on to the latest moment of a batch, if that is later. -/
theorem isGreatest_advance (h : IsGreatest (momentsOf batches) w.lastModified) :
    IsGreatest (momentsOf (batch :: batches))
      (w.advance (latestTime batch) fetched).lastModified := by
  have hkept := w.lastModified_le_advance (latestTime batch) fetched
  constructor
  · rcases w.advance_cases (latestTime batch) fetched with heq | hlatest
    · rw [heq]
      exact momentsOf_mono (List.subset_cons_self _ _) h.1
    · obtain ⟨r, hr, ht⟩ := latestTime_mem hlatest
      exact Or.inr ⟨batch, List.mem_cons_self, r, hr, ht⟩
  · rintro t (rfl | ⟨b, hb, r, hr, rfl⟩)
    · exact Instant.le_trans (h.2 (Or.inl rfl)) hkept
    · rcases List.mem_cons.mp hb with rfl | hb
      · obtain ⟨t, ht, hle⟩ := le_latestTime hr
        rw [ht]
        exact Instant.le_trans hle Replica.le_advance
      · exact Instant.le_trans (h.2 (Or.inr ⟨b, hb, r, hr, rfl⟩)) hkept

namespace Session

variable {s : Session R ι} {action : Action R}

/-- The batches that were merged since the last clear. -/
def taken (s : Session R ι) : List (List R) := takenIn s.log

omit [Record R] in
/-- However a refresh goes on, nothing is merged or cleared by it. -/
theorem taken_resume (s : Session R ι) (before after : List (Visit R)) (arrival : Nat)
    (client : Client) (next : Refresher R ι × Option (Caller R) × List (Event R)) :
    (s.resume before after arrival client next).taken = s.taken := by
  refine takenIn_append fun e he => ?_
  obtain ⟨event, -, hof⟩ := List.mem_filterMap.mp (List.mem_reverse.mp he)
  unfold Occurrence.ofEvent? at hof
  split at hof
  · obtain ⟨c, -, rfl⟩ := Option.map_eq_some_iff.mp hof
    exact id
  · cases hof
  · cases hof
    exact id

/-- The poll of a caller puts the batch on record that it takes in. -/
theorem takenIn_mergesOf (m : Replica R ι) (c : Caller R) (log : List (Occurrence R ι)) :
    takenIn (Occurrence.mergesOf m c ++ log) = (c.batch? m).toList ++ takenIn log := by
  unfold Occurrence.mergesOf Caller.batch? Occurrence.merges
  rcases c.stage with ⟨call, ticket, ⟨⟩⟩ | call
  · rcases c.answer with _ | answer
    · rfl
    · simp only
      rcases m.verdict ticket answer with fault | batch <;> rfl
  · rfl

variable [Index R ι]

theorem taken_poll (s : Session R ι) (i : Nat) :
    (s.poll i).taken = (s.batch? (.poll i)).toList ++ s.taken := by
  rcases hpick : Waiting.pick? (fun _ => true) i s.visits with _ | ⟨before, v, after⟩
  · simp only [poll, batch?, hpick, Option.toList_none, List.nil_append]
  · simp only [poll, batch?, hpick, taken_resume]
    exact takenIn_mergesOf s.refresher.replica v.caller s.log

/-- A step adds the batch that it takes in. -/
theorem taken_act (s : Session R ι) (h : action ≠ .clear) :
    (s.act action).taken = (s.batch? action).toList ++ s.taken := by
  cases action with
  | enter client => exact taken_resume _ _ _ _ _ _
  | answer i a =>
    show (s.answer i a).taken = s.taken
    unfold answer
    split <;> rfl
  | poll i => exact s.taken_poll i
  | drop i =>
    show (s.drop i).taken = s.taken
    unfold drop
    split <;> rfl
  | clear => exact absurd rfl h
  | close => rfl
  | tick now => rfl
  | aside tally feed => rfl
  | elsewhere step =>
    show (s.elsewhere step).taken = s.taken
    unfold elsewhere
    cases step <;> simp only <;> split <;> rfl

theorem taken_subset_run (s : Session R ι) {actions : List (Action R)} (h : .clear ∉ actions) :
    s.taken ⊆ (s.run actions).taken := by
  induction actions generalizing s with
  | nil => exact List.Subset.refl _
  | cons action rest ih =>
    obtain ⟨hne, hrest⟩ := List.ne_and_not_mem_of_not_mem_cons h
    refine List.Subset.trans ?_ (ih (s.act action) hrest)
    rw [taken_act s hne.symm]
    exact List.subset_append_right _ _

/-- The skew of a replica stays as it is. -/
theorem act_skew (ho : Orderly s) (action : Action R) :
    (s.act action).refresher.replica.skew = s.refresher.replica.skew := by
  cases action with
  | enter client => exact (Calm.enter ho client).alike.skew
  | answer i a =>
    show (s.answer i a).refresher.replica.skew = _
    unfold answer
    split <;> rfl
  | poll i =>
    rcases Calm.poll ho i with hcalm | ⟨_, v, _, call, ticket, answer, batch, hpick, hv, ha, hd⟩
    · exact hcalm.alike.skew
    · show (s.poll i).refresher.replica.skew = _
      rw [poll_of_merged hpick hv ha hd]
      exact (Replica.closePull_keeps _ _ _).2.1
  | drop i => exact (Calm.drop s i).alike.skew
  | clear => rfl
  | close => rfl
  | tick now => rfl
  | aside tally feed => rfl
  | elsewhere step => exact (Calm.elsewhere ho step).alike.skew

end Session

/-! ## Every session accounts for what it merged -/

variable [Index R ι]

/-- The watermark and the first-load flag tell of the batches that were merged since the last
clear. -/
structure Accounted (s : Session R ι) : Prop where
  latest : IsGreatest (momentsOf s.taken) s.refresher.replica.watermark.lastModified
  firstLoad : s.refresher.replica.firstLoad = true ↔ s.taken = []

namespace Accounted

variable {s : Session R ι}

omit [Index R ι] in
/-- Nothing was merged into a new replica, or into one that was just cleared. -/
theorem of_nothing (ht : s.taken = []) (hw : s.refresher.replica.watermark = .zero)
    (hf : s.refresher.replica.firstLoad = true) : Accounted s := by
  constructor
  · rw [ht, hw]
    refine ⟨Or.inl rfl, ?_⟩
    rintro t (rfl | ⟨batch, hbatch, -⟩)
    · exact Instant.le_refl _
    · cases hbatch
  · rw [ht, hf]
    exact ⟨fun _ => rfl, fun _ => rfl⟩

theorem act (h : Accounted s) (action : Action R) : Accounted (s.act action) := by
  by_cases hclear : action = .clear
  · subst hclear
    exact of_nothing rfl rfl rfl
  · have htaken := s.taken_act hclear
    rcases hb : s.batch? action with _ | batch
    · rw [hb] at htaken
      have hsteady := Session.act_steady hb hclear
      constructor
      · rw [htaken, hsteady.watermark]
        exact h.latest
      · rw [htaken, hsteady.firstLoad]
        exact h.firstLoad
    · rw [hb] at htaken
      obtain ⟨htakes, -⟩ := Session.act_of_batch hb
      obtain ⟨fetched, hw⟩ := htakes.watermark
      constructor
      · rw [htaken, hw]
        exact isGreatest_advance h.latest
      · rw [htaken, htakes.firstLoad]
        exact ⟨nofun, nofun⟩

theorem run (h : Accounted s) (actions : List (Action R)) : Accounted (s.run actions) := by
  induction actions generalizing s with
  | nil => exact h
  | cons action rest ih => exact ih (h.act action)

end Accounted

/-- The replica of a session with the given skew accounts for what it merged. -/
structure Accounts (skew : Span) (s : Session R ι) : Prop extends Accounted s where
  /-- The watermark does not go back before the next clear. -/
  forward : ∀ later, .clear ∉ later → s.refresher.replica.watermark.lastModified ≤
    (s.run later).refresher.replica.watermark.lastModified
  /-- The next pull reaches back from the watermark by the skew, but not behind the epoch. -/
  bound : skew ≤ 0 → (∀ t ∈ momentsOf s.taken, t.IsOrdinary) →
    ∀ now, s.refresher.replica.closed = false →
      ∃ m ticket, s.refresher.replica.openPull now = some (m, ticket) ∧
        ticket.since.IsOrdinary ∧
        ticket.since.nanos = max 0 (s.refresher.replica.watermark.lastModified.nanos + skew)

namespace Session

variable {s : Session R ι}

theorem run_skew (ho : Orderly s) (actions : List (Action R)) :
    (s.run actions).refresher.replica.skew = s.refresher.replica.skew := by
  induction actions generalizing s with
  | nil => rfl
  | cons action rest ih => exact (ih (ho.act action)).trans (act_skew ho action)

/-- **Watermarks.** In every session the watermark stands at the latest moment that was merged since
the last clear, the next pull is a first load exactly if nothing was merged since then, and the
bound of the next pull is reckoned from the watermark in whole nanoseconds. -/
theorem run_accounts (kind : CacheKind) (skew : Span) (buffer : Nat) (now : Instant)
    (actions : List (Action R)) :
    Accounts skew ((start kind skew buffer now : Session R ι).run actions) := by
  have hstart : Accounted (start kind skew buffer now : Session R ι) := .of_nothing rfl rfl rfl
  have hskew := run_skew (.start kind skew buffer now : Orderly (start kind skew buffer now :
    Session R ι)) actions
  have h := hstart.run actions
  generalize (start kind skew buffer now : Session R ι).run actions = s at h hskew
  refine ⟨h, ?_, ?_⟩
  · intro later hlater
    exact (h.run later).latest.2 (momentsOf_mono (s.taken_subset_run hlater) h.latest.1)
  · intro hle hordinary now hopen
    refine ⟨_, _, if_neg (by rw [hopen]; nofun), ?_⟩
    show (s.refresher.replica.watermark.since s.refresher.replica.skew).IsOrdinary ∧ _
    rw [hskew]
    exact Watermark.since_nanos (hordinary _ h.latest.1) hle

/-- A namespace of the fifth second was merged, and with a skew of two seconds the next pull asks
from the third one on. -/
theorem second_pull_reaches_back :
    let five : Instant := ⟨5, 0, by decide, by decide, by decide⟩
    let actions : List (Action Namespace) :=
      [.enter ⟨"reader", false, false⟩, .answer 0 (.ok [{ name := "a", modified := five }]), .poll 0]
    let s : Session Namespace Exports := (start .namespaces (.seconds (-2)) 4 .epoch).run actions
    ∃ m ticket, s.refresher.replica.openPull .epoch = some (m, ticket) ∧
      ticket.since.nanos = 3000000000 := by
  intro five actions s
  have h : Accounts (.seconds (-2)) s := run_accounts .namespaces (.seconds (-2)) 4 .epoch actions
  have htaken : ∀ batch ∈ s.taken, ∀ r ∈ batch, (Record.modified r).IsOrdinary := by
    decide +kernel
  have hordinary : ∀ t ∈ momentsOf s.taken, t.IsOrdinary := by
    rintro t (rfl | ⟨batch, hbatch, r, hr, rfl⟩)
    · decide
    · exact htaken batch hbatch r hr
  have hlast : s.refresher.replica.watermark.lastModified = five := by decide +kernel
  have hclosed : s.refresher.replica.closed = false := by decide +kernel
  have hthird : max 0 (five.nanos + Span.seconds (-2)) = 3000000000 := by decide
  clear_value s
  obtain ⟨m, ticket, hopen, -, hnanos⟩ := h.bound (by decide) hordinary .epoch hclosed
  rw [hlast, hthird] at hnanos
  exact ⟨m, ticket, hopen, hnanos⟩

end Session

end Desk

end GovernanceCache
