import GovernanceCache.Text.Quoted

/-!
# Faults

What can go wrong between the store and a reader of a cache, and how each fault is worded. A fault
is shared by every caller that joined the same pull.
-/

namespace GovernanceCache

/-- A fault that the store reports. -/
inductive StoreFault where
  | unavailable (message : String)
  | malformed (message : String)
deriving DecidableEq, Repr

def StoreFault.message : StoreFault → String
  | unavailable m => "store unavailable: " ++ m
  | malformed m => "malformed data: " ++ m

/-- A fault of the caches or their manager. -/
inductive Fault where
  /-- The setup is wrong. -/
  | configuration (message : String)
  /-- A read was asked for something it refuses. -/
  | invalidArgument (message : String)
  /-- A pull of the named cache failed in the store. -/
  | store (cache message : String) (source : Option StoreFault)
  /-- A pulled record is malformed, and its whole batch was rejected. -/
  | invalidRecord (cache key reason : String)
  /-- The pull that a caller had joined was dropped. -/
  | refreshAbandoned (cache : String)
  /-- The cache was cleared while the pull ran. -/
  | refreshDiscarded (cache : String)
  /-- An operation took too long. -/
  | timeout (operation : String)
  /-- The cache was never opened. -/
  | notOpened (cache : String)
  /-- The cache was closed. -/
  | closed (cache : String)
  /-- Several independent operations failed. -/
  | multiple (faults : List Fault)
  /-- Something unexpected happened. -/
  | internal (message : String) (source : Option StoreFault)
deriving Repr, Inhabited, BEq

namespace Fault

/-- The fault of a pull that failed in the store. -/
def ofStore (cache : String) (source : StoreFault) : Fault :=
  store cache source.message (some source)

def message : Fault → String
  | configuration m => "configuration error: " ++ m
  | invalidArgument m => "invalid argument: " ++ m
  | store cache m _ => "store error while loading " ++ cache ++ ": " ++ m
  | invalidRecord cache key reason =>
    "invalid record " ++ Text.quoted key ++ " in " ++ cache ++ ": " ++ reason
  | refreshAbandoned cache => "refresh of " ++ cache ++ " was abandoned before completing"
  | refreshDiscarded cache => "refresh of " ++ cache ++ " was discarded by a concurrent clear"
  | timeout operation => "operation timed out: " ++ operation
  | notOpened cache => "cache " ++ cache ++ " is not opened"
  | closed cache => "cache " ++ cache ++ " is closed"
  | multiple faults =>
    toString faults.length ++ " operations failed: " ++ "; ".intercalate (faults.map message)
  | internal m _ => "internal error: " ++ m

/-- The store fault behind a fault. -/
def source? : Fault → Option StoreFault
  | store _ _ source => source
  | internal _ source => source
  | _ => none

def isStore : Fault → Bool
  | store .. => true
  | _ => false

/-- A pull that ends so has failed: the store did, or a record was malformed. -/
def isFailure : Fault → Bool
  | store .. | invalidRecord .. => true
  | _ => false

/-- A clear dropped the pulled batch. -/
def isDiscarded : Fault → Bool
  | refreshDiscarded _ => true
  | _ => false

/-- The result of independent operations from their faults: a single fault stands for itself. -/
def aggregate : List Fault → Except Fault Unit
  | [] => .ok ()
  | [fault] => .error fault
  | faults => .error (multiple faults)

end Fault

abbrev Outcome : Type := Except Fault Unit

namespace Outcome

/-- The refresh failed because a clear dropped its batch. -/
def isDiscarded : Outcome → Bool
  | .error fault => fault.isDiscarded
  | .ok _ => false

end Outcome

end GovernanceCache
