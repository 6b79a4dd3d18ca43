import GovernanceCache.Instant

/-!
# Watermarks

How far a cache has followed the changes of the store: the largest modification time that it merged,
and the wall-clock time of its last successful pull. Both only move forward until a reset. The next
pull reaches back behind the watermark, so that records committed with a lagging time are not
missed.
-/

namespace GovernanceCache

/-- The progress of a cache. -/
structure Watermark where
  /-- The largest modification time merged so far. -/
  lastModified : Instant
  /-- When the last successful pull began. -/
  lastFetched : Instant
deriving DecidableEq, Repr

namespace Watermark

/-- The watermark of a cache that merged nothing. -/
def zero : Watermark := ⟨.epoch, .epoch⟩

/-- Nothing but the epoch was merged. -/
def isZero (w : Watermark) : Bool := w.lastModified == .epoch

/-- The lower bound of the next pull. It never precedes the epoch, and it is the epoch if nothing
was merged or the bound is out of range. -/
def since (w : Watermark) (skew : Span) : Instant :=
  if w.isZero then .epoch
  else max ((w.lastModified.add? skew).getD .epoch) .epoch

/-- The watermark after a batch with the given largest modification time. -/
def advance (w : Watermark) (batchMax : Option Instant) (fetchedAt : Instant) : Watermark :=
  { lastModified :=
      match batchMax with
      | some t => if w.lastModified < t then t else w.lastModified
      | none => w.lastModified
    lastFetched := if w.lastFetched < fetchedAt then fetchedAt else w.lastFetched }

end Watermark

end GovernanceCache
