import GovernanceCache.Watermark

/-!
# How far a pull reaches back

Ordinary moments, which are not inside a leap second, are ordered by their nanoseconds. The bound of
the next pull lies behind the watermark by the skew, so it does not pass over a moment that lags by
no more than that.
-/

namespace GovernanceCache

namespace Instant

variable {s t : Instant} {count : Int}

theorem le_iff_nanos_le (hs : s.IsOrdinary) (ht : t.IsOrdinary) : s ≤ t ↔ s.nanos ≤ t.nanos := by
  unfold IsOrdinary nanosPerSecond at hs ht
  unfold nanos
  rw [le_def]
  constructor
  · rintro (h | ⟨h₁, h₂⟩) <;> omega
  · intro h
    by_cases hlt : s.second < t.second
    · exact Or.inl hlt
    · exact Or.inr (by omega)

theorem isOrdinary_epoch : epoch.IsOrdinary := by decide

/-- A moment that is counted in nanoseconds is ordinary, and counts as many. -/
theorem ofNanos?_eq_some (h : ofNanos? count = some t) : t.IsOrdinary ∧ t.nanos = count := by
  unfold ofNanos? ofReading? at h
  split at h
  · rw [← Option.some.inj h]
    unfold IsOrdinary nanos nanosPerSecond
    simp only
    omega
  · cases h

/-- A span is added to an ordinary moment by counting. -/
theorem add?_eq_some (ht : t.IsOrdinary) {span : Span} (h : t.add? span = some s) :
    s.IsOrdinary ∧ s.nanos = t.nanos + span := by
  unfold IsOrdinary at ht
  unfold add? at h
  rw [if_pos ht] at h
  exact ofNanos?_eq_some h

end Instant

/-- The watermark lags behind the moment, up to the skew. -/
def Watermark.Reaches (w : Watermark) (skew : Span) (t : Instant) : Prop :=
  w.lastModified = .epoch ∨ w.lastModified.IsOrdinary ∧ w.lastModified.nanos + skew ≤ t.nanos

/-- The next pull asks for everything that the watermark reaches. -/
theorem Watermark.Reaches.since_le {w : Watermark} {skew : Span} {t : Instant}
    (h : w.Reaches skew t) (ht : t.IsOrdinary) (hepoch : 0 ≤ t.nanos) : w.since skew ≤ t := by
  have hle : Instant.epoch ≤ t := by
    rw [Instant.le_iff_nanos_le Instant.isOrdinary_epoch ht]
    exact hepoch
  unfold since isZero
  split
  · exact hle
  · rename_i hne
    obtain ⟨hw, hskew⟩ := h.resolve_left fun heq => hne (beq_iff_eq.mpr heq)
    rw [Instant.max_def]
    split
    · exact hle
    · rcases hadd : w.lastModified.add? skew with _ | u
      · exact hle
      · obtain ⟨hu, hnanos⟩ := Instant.add?_eq_some hw hadd
        rw [Option.getD_some, Instant.le_iff_nanos_le hu ht, hnanos]
        exact hskew

end GovernanceCache
