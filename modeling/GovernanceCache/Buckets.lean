import GovernanceCache.Change
import GovernanceCache.Record
import Std.Data.ExtTreeMap
import Std.Data.ExtTreeSet

/-!
# Buckets

Keys of records, sorted into buckets by a group that each record belongs to. A bucket that becomes
empty is dropped. Buckets follow the changes of a cache: a record that moves to another group or is
deleted leaves the bucket of the group that it was in.
-/

namespace GovernanceCache

/-- The keys of each group of type `κ`. -/
abbrev Buckets (κ : Type) [Ord κ] [Std.TransOrd κ] : Type :=
  Std.ExtTreeMap κ (Std.ExtTreeSet String)

namespace Buckets

variable {κ : Type} [Ord κ] [Std.TransOrd κ]

/-- Adds a key to the bucket of a group. -/
def add (buckets : Buckets κ) (group : κ) (key : String) : Buckets κ :=
  buckets.alter group fun keys => some ((keys.getD ∅).insert key)

/-- A bucket, unless it is empty. -/
def kept (keys : Std.ExtTreeSet String) : Option (Std.ExtTreeSet String) :=
  if keys.isEmpty then none else some keys

/-- Removes a key from the bucket of a group. -/
def remove (buckets : Buckets κ) (group : κ) (key : String) : Buckets κ :=
  buckets.alter group fun keys => keys.bind fun keys => kept (keys.erase key)

/-- The keys in the bucket of a group, in order. -/
def members (buckets : Buckets κ) (group : κ) : List String :=
  (buckets[group]?.map fun keys => keys.toList).getD []

variable {R : Type} [Record R] [DecidableEq κ]

/-- The replaced record leaves its bucket, unless the new one belongs to the same group. -/
def leave (group : R → κ) (buckets : Buckets κ) (old new : R) : Buckets κ :=
  if Record.valid new && group new == group old then buckets
  else buckets.remove (group old) (Record.key old)

/-- The buckets after a change. -/
def follow (group : R → κ) (buckets : Buckets κ) (change : Change R) : Buckets κ :=
  let buckets := match change.old with
    | some old => leave group buckets old change.new
    | none => buckets
  if Record.valid change.new then buckets.add (group change.new) (Record.key change.new)
  else buckets

end Buckets

end GovernanceCache
