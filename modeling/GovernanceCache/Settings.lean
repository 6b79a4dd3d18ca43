import GovernanceCache.Document.Form
import GovernanceCache.Fault

/-!
# Settings

How often caches are refreshed, how far each pull reaches back, how long the first load may take,
and how many events a subscriber may leave unread.
-/

namespace GovernanceCache

structure Settings where
  /-- The period of the background refresh in milliseconds. -/
  updateInterval : UInt64 := 1000
  /-- The period of the statistics reports in milliseconds. -/
  reportInterval : UInt64 := 1000
  /-- The offset in seconds, to be negative, from which each pull reaches back. -/
  skewSeconds : Int64 := -5
  /-- The limit of each cache's first load in milliseconds. -/
  warmUpTimeout : UInt64 := 30000
  /-- The number of events that a subscriber may leave unread. -/
  eventBuffer : UInt64 := 64
deriving DecidableEq, Repr

namespace Settings

/-- What is wrong with settings. -/
inductive Flaw where
  | skewNotNegative (seconds : Int64)
  | noInterval
  | noWarmUpTime
  | noEventBuffer
deriving DecidableEq, Repr

def Flaw.message : Flaw → String
  | skewNotNegative n => "mtime skew must be negative, got " ++ toString n.toInt ++ "s"
  | noInterval => "update and report intervals must be positive"
  | noWarmUpTime => "warm-up timeout must be positive"
  | noEventBuffer => "event buffer must hold at least one event"

/-- The first flaw of the settings. -/
def flaw? (s : Settings) : Option Flaw :=
  if 0 ≤ s.skewSeconds.toInt then some (.skewNotNegative s.skewSeconds)
  else if s.updateInterval = 0 ∨ s.reportInterval = 0 then some .noInterval
  else if s.warmUpTimeout = 0 then some .noWarmUpTime
  else if s.eventBuffer = 0 then some .noEventBuffer
  else none

/-- Succeeds if the settings have no flaw. -/
def check (s : Settings) : Outcome :=
  match s.flaw? with
  | none => .ok ()
  | some flaw => .error (.configuration flaw.message)

/-- The skew as a span of time, if it is in range: whole milliseconds of 64 bits. -/
def skew? (s : Settings) : Option Span :=
  if -9223372036854775 ≤ s.skewSeconds.toInt ∧ s.skewSeconds.toInt ≤ 9223372036854775 then
    some (Span.seconds s.skewSeconds.toInt)
  else none

/-- A span of seconds and nanoseconds in whole milliseconds, cut off at 64 bits. -/
def wholeMillis (seconds nanos : Nat) : UInt64 :=
  UInt64.ofNat (min (seconds * 1000 + nanos / 1000000) (UInt64.size - 1))

/-- The settings, or the fault of their first flaw. -/
def build (s : Settings) : Except Fault Settings := do
  s.check
  return s

/-! ## Documents -/

/-- The fields of the settings in a document; all of them have defaults. -/
def form : Form Settings :=
  let default : Settings := {}
  ((((mk <$> Form.optional "update_interval_ms" (Reader.word64 "u64") default.updateInterval)
    |>.seq (.optional "report_interval_ms" (.word64 "u64") default.reportInterval))
    |>.seq (.optional "mtime_skew_secs" .signed64 default.skewSeconds))
    |>.seq (.optional "warmup_timeout_ms" (.word64 "u64") default.warmUpTimeout))
    |>.seq (.optional "event_buffer" (.word64 "usize") default.eventBuffer)

def ofDocument? : Reader Settings := form.reader "ManagerConfig"

/-- The settings as a document with all their fields. -/
def toDocument (s : Settings) : Document :=
  .ofFields [("update_interval_ms", .integer s.updateInterval.toNat),
    ("report_interval_ms", .integer s.reportInterval.toNat),
    ("mtime_skew_secs", .integer s.skewSeconds.toInt),
    ("warmup_timeout_ms", .integer s.warmUpTimeout.toNat),
    ("event_buffer", .integer s.eventBuffer.toNat)]

end Settings

end GovernanceCache
