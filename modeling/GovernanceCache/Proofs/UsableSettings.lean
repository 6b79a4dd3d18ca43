import GovernanceCache.Proofs.Deliveries
import GovernanceCache.Proofs.HeldCalls
import GovernanceCache.Proofs.ReplicaPulls
import GovernanceCache.Proofs.WatermarkReach

/-!
# What checked settings are good for

Settings that pass their check have a negative skew and make room for one event at least, and
nothing bounds them on the other side. A manager can be made of them exactly if the skew is a span
of 64-bit milliseconds, and one can subscribe to its caches exactly if an inbox of that size can be
made. Wherever a manager was made, the bound of every pull can be told.

1. Adding a span that is not positive leads back in time, also from inside a leap second
   (`Instant.add?_le`), so the bound of a pull lies between the epoch and the watermark
   (`Watermark.epoch_le_since`, `Watermark.since_le_lastModified`).
2. No operation of a cache changes its skew or the size of its inboxes (`lasting_measures`), and
   neither does one who listens to it (`deals_measures`).
-/

namespace GovernanceCache

/-! ## The bound of a pull -/

namespace Instant

variable {s t : Instant} {span : Int}

theorem le_of_ofNanos? {count : Int} (h : ofNanos? count = some s) (hc : count ≤ t.nanos)
    (hf : count < t.second * 1000000000 + 1000000000) : s ≤ t := by
  obtain ⟨hs, hnanos⟩ := ofNanos?_eq_some h
  unfold IsOrdinary nanosPerSecond at hs
  unfold nanos at hnanos hc
  rw [le_def]
  by_cases hlt : s.second < t.second
  · exact Or.inl hlt
  · exact Or.inr (by omega)

/-- A span that is not positive leads back in time. -/
theorem add?_le (hspan : span ≤ 0) (h : t.add? span = some s) : s ≤ t := by
  have hfraction := t.fraction_lt
  unfold add? nanosPerSecond at h
  split at h
  · refine le_of_ofNanos? h (by omega) ?_
    unfold nanos
    omega
  · have hback : ¬ ((1000000000 : Int) ≤ span ∨ (0 : Int) < span ∧
        (2000000000 : Int) ≤ t.fraction + span) := by omega
    rw [if_neg hback] at h
    split at h
    · have hsecond : (span : Int) ≤ -1000000000 := ‹_›
      refine le_of_ofNanos? h (by omega) ?_
      unfold nanos
      omega
    · unfold ofReading? at h
      split at h
      · rw [← Option.some.inj h, le_def]
        exact Or.inr ⟨rfl, by simp only; omega⟩
      · cases h

end Instant

namespace Watermark

/-- No pull asks for what came before the epoch. -/
theorem epoch_le_since (w : Watermark) (skew : Span) : .epoch ≤ w.since skew := by
  unfold since
  split
  · exact Instant.le_refl _
  · exact Instant.le_max_right _ _

/-- A pull with a skew that is not positive reaches back behind the watermark. -/
theorem since_le_lastModified (w : Watermark) {skew : Int} (hskew : skew ≤ 0) :
    w.since skew ≤ max w.lastModified .epoch := by
  unfold since
  split
  · exact Instant.le_max_right _ _
  · rcases hadd : w.lastModified.add? skew with _ | t
    · rw [Option.getD_none, Instant.max_def, ite_self]
      exact Instant.le_max_right _ _
    · rw [Option.getD_some, Instant.max_def t]
      split
      · exact Instant.le_max_right _ _
      · exact Instant.le_trans (Instant.add?_le hskew hadd) (Instant.le_max_left _ _)

end Watermark

/-! ## What a check tells -/

namespace Settings

variable {s s' : Settings}

/-- Settings pass their check exactly if they have no flaw. -/
theorem check_eq_ok : s.check = .ok () ↔ s.skewSeconds.toInt < 0 ∧ s.updateInterval ≠ 0 ∧
    s.reportInterval ≠ 0 ∧ s.warmUpTimeout ≠ 0 ∧ s.eventBuffer ≠ 0 := by
  unfold check flaw?
  grind

/-- The builder gives back what passes the check. -/
theorem build_eq_ok : s.build = .ok s' ↔ s.check = .ok () ∧ s' = s := by
  unfold build
  rcases s.check with fault | ⟨⟨⟩⟩
  · exact iff_of_false nofun nofun
  · exact ⟨fun h => ⟨rfl, (Except.ok.inj h).symm⟩, fun ⟨_, h⟩ => h ▸ rfl⟩

theorem skew?_of_neg (h : s.skewSeconds.toInt < 0) : s.skew? =
    if -9223372036854775 ≤ s.skewSeconds.toInt then some (.seconds s.skewSeconds.toInt)
    else none := by
  unfold skew?
  refine if_congr ?_ rfl rfl
  omega

end Settings

/-! ## What no operation changes -/

/-- The cache reaches back by this skew, and gives its subscribers inboxes of this size. -/
def Measures (skew : Span) (room : Nat) (k : CacheKind) (c : Cache k) (_ : List Nat) : Prop :=
  c.replica.skew = skew ∧ c.replica.feed.buffer = room

theorem Feed.buffer_publishAll {ε : Type} (feed : Feed ε) (events : List ε) :
    (feed.publishAll events).buffer = feed.buffer := by
  induction events generalizing feed with
  | nil => rfl
  | cons e rest ih => exact ih (feed.publish e).1

theorem Replica.closePull_buffer {R ι : Type} [Record R] [Index R ι] (m : Replica R ι)
    (ticket : Ticket) (answer : Answer R) :
    (m.closePull ticket answer).1.feed.buffer = m.feed.buffer := by
  rcases hv : m.verdict ticket answer with fault | batch
  · rw [closePull_of_error hv]
    unfold giveUp
    split <;> rfl
  · rw [closePull_of_ok hv]
    exact Feed.buffer_publishAll m.feed _

/-- No operation of a cache changes how far it reaches back or how large its inboxes are. -/
theorem lasting_measures (skew : Span) (room : Nat) : Lasting (Measures skew room) where
  perm _ h := h
  enter {k c calls} now h := by
    have he := c.enter_entering now
    generalize c.enter now = entered at he ⊢
    cases he <;> exact h
  settle {k c calls call} ticket answer h := by
    exact ⟨(c.replica.closePull_keeps ticket answer).2.1.trans h.1,
      (c.replica.closePull_buffer ticket answer).trans h.2⟩
  abandon h := h
  share h := h
  clear h := h
  close h := h
  look _ h := h

/-! ## What is done with a manager -/

/-- A step of a manager's course, or of one who listens to one of its caches. -/
inductive Dealing where
  | act (action : Action)
  | listen (k : CacheKind) (step : Listening)

namespace Course

open World

/-- A step of a course, or of one who listens. -/
def deal (s : Course) : Dealing → Course
  | .act action => s.act action
  | .listen k step =>
    let replica := s.world.replica k
    let manager := s.world.manager.withReplica k { replica with feed := replica.feed.listen step }
    { s with world := { s.world with manager } }

/-- Steps are made in turn, some of them by those who listen. -/
def deals (s : Course) (dealings : List Dealing) : Course := dealings.foldl deal s

variable {s : Course} {skew : Span} {room : Nat}

theorem deal_measures (hn : s.Numbered) (h : s.world.Bears (Measures skew room) s.world.held)
    (d : Dealing) :
    (s.deal d).Numbered ∧
      (s.deal d).world.Bears (Measures skew room) (s.deal d).world.held := by
  cases d with
  | act action =>
    exact ⟨hn.step (act_step s action),
      step_lasting (lasting_measures skew room) hn h (act_step s action)⟩
  | listen k step =>
    refine ⟨⟨hn.world.congr rfl rfl, hn.log⟩, fun l => ?_⟩
    by_cases hl : l = k
    · subst hl
      obtain ⟨hskew, hroom⟩ := h l
      show Measures skew room l ((s.world.withCache l _).cache l) _
      rw [cache_withCache_self]
      exact ⟨hskew, (Feed.buffer_listen _ step).trans hroom⟩
    · show Measures skew room l ((s.world.manager.caches.set k _).get l) _
      rw [ByKind.get_set_of_ne _ _ hl]
      exact h l

/-- Whatever is done with a manager, its caches reach back as far as at first, and their inboxes are
as large. -/
theorem deals_measures {manager : Manager}
    (hm : ∀ k, Measures skew room k (manager.cache k) []) (store : Store) (origin : Instant)
    (now : Nat) (dealings : List Dealing) (k : CacheKind) :
    let m := ((outset manager store origin now).deals dealings).world.replica k
    m.skew = skew ∧ m.feed.buffer = room := by
  have key : ∀ (dealings : List Dealing) (s : Course), s.Numbered →
      s.world.Bears (Measures skew room) s.world.held →
      (s.deals dealings).world.Bears (Measures skew room) (s.deals dealings).world.held := by
    intro dealings
    induction dealings with
    | nil => exact fun _ _ h => h
    | cons d rest ih =>
      intro s hn h
      obtain ⟨hn, h⟩ := deal_measures hn h d
      exact ih _ hn h
  exact key dealings _ (outset_numbered manager store origin now) hm k

end Course

/-! ## Usable settings -/

/-- What comes of settings, with a roster of names. -/
structure Settings.Prospects (s : Settings) (roster : Roster) : Prop where
  built : s.build = .ok s
  /-- A manager can be made of them exactly if the skew is a span of 64-bit milliseconds. -/
  made : (Manager.create? s roster).isSome ↔ -9223372036854775 ≤ s.skewSeconds.toInt
  /-- Whatever was done with the manager, one can subscribe to a cache exactly if an inbox of that
  size can be made. -/
  subscribed : ∀ manager, Manager.create? s roster = some manager →
    ∀ (store : Store) (origin : Instant) (now : Nat) (dealings : List Dealing) (k : CacheKind),
      let m := ((Course.outset manager store origin now).deals dealings).world.replica k
      m.subscribe?.isSome ↔ s.eventBuffer.toNat ≤ Feed.largestBuffer
  /-- Whatever was done with the manager, the bound of a pull is told for any watermark. -/
  bounded : ∀ manager, Manager.create? s roster = some manager →
    ∀ (store : Store) (origin : Instant) (now : Nat) (dealings : List Dealing) (k : CacheKind)
      (w : Watermark),
      let m := ((Course.outset manager store origin now).deals dealings).world.replica k
      .epoch ≤ w.since m.skew ∧ w.since m.skew ≤ max w.lastModified .epoch

namespace Settings

variable {s : Settings} {roster : Roster}

/-- What a new manager's caches are made of. -/
theorem measures_of_create? {manager : Manager} (hneg : s.skewSeconds.toInt < 0)
    (hroom : s.eventBuffer ≠ 0) (h : Manager.create? s roster = some manager) :
    ∀ k, Measures (.seconds s.skewSeconds.toInt) s.eventBuffer.toNat k (manager.cache k) [] := by
  obtain ⟨skew, hskew, rfl⟩ := Option.map_eq_some_iff.mp h
  rw [skew?_of_neg hneg] at hskew
  obtain ⟨-, hsome⟩ := Option.ite_none_right_eq_some.mp hskew
  obtain rfl := Option.some.inj hsome
  intro k
  have hpos : 1 ≤ s.eventBuffer.toNat := by
    rw [Nat.one_le_iff_ne_zero]
    exact fun hz => hroom (UInt64.toNat_inj.mp hz)
  show Measures _ _ k ((ByKind.tabulate _).get k) []
  rw [ByKind.get_tabulate]
  exact ⟨rfl, Nat.max_eq_left hpos⟩

/-- Settings that pass their check can be used, unless the skew or the size of the inboxes is out of
range. -/
theorem prospects_of_check (h : s.check = .ok ()) (roster : Roster) : s.Prospects roster := by
  obtain ⟨hneg, -, -, -, hroom⟩ := check_eq_ok.mp h
  refine ⟨build_eq_ok.mpr ⟨h, rfl⟩, ?_, ?_, ?_⟩
  · unfold Manager.create?
    rw [Option.isSome_map, skew?_of_neg hneg]
    split
    · exact iff_of_true rfl ‹_›
    · exact iff_of_false Bool.false_ne_true ‹_›
  · intro manager hm store origin now dealings k m
    obtain ⟨-, hbuffer⟩ := Course.deals_measures (measures_of_create? hneg hroom hm) store origin
      now dealings k
    unfold Replica.subscribe? Feed.subscribe?
    rw [Option.isSome_map, show m.feed.buffer = s.eventBuffer.toNat from hbuffer]
    split
    · exact iff_of_true rfl ‹_›
    · exact iff_of_false Bool.false_ne_true ‹_›
  · intro manager hm store origin now dealings k w m
    obtain ⟨hskew, -⟩ := Course.deals_measures (measures_of_create? hneg hroom hm) store origin
      now dealings k
    have hback : s.skewSeconds.toInt * 1000000000 ≤ 0 := by omega
    rw [show m.skew = .seconds s.skewSeconds.toInt from hskew]
    exact ⟨w.epoch_le_since _, w.since_le_lastModified hback⟩

/-- The usual settings can be used, and both a manager and a subscription come about. -/
theorem usual_settings_usable : ({} : Settings).check = .ok () ∧
    ({} : Settings).Prospects .builtin ∧ (Manager.create? {} .builtin).isSome = true ∧
    ({} : Settings).eventBuffer.toNat ≤ Feed.largestBuffer :=
  have hcheck : ({} : Settings).check = .ok () := rfl
  have hprospects := prospects_of_check hcheck .builtin
  ⟨hcheck, hprospects, hprospects.made.mpr (by decide), by decide⟩

/-- Settings that pass their check may ask for an inbox that cannot be made, or reach back so far
that no manager can be made of them. -/
theorem outsized_settings_unusable :
    (({ eventBuffer := 18446744073709551615 } : Settings).build.isOk = true ∧
      ∃ manager, Manager.create? { eventBuffer := 18446744073709551615 } .builtin = some manager ∧
        (manager.replica .namespaces).subscribe?.isSome = false) ∧
    (({ skewSeconds := -9223372036854775808 } : Settings).build.isOk = true ∧
      (Manager.create? { skewSeconds := -9223372036854775808 } .builtin).isSome = false) :=
  ⟨⟨rfl, _, rfl, rfl⟩, rfl, rfl⟩

end Settings

end GovernanceCache
