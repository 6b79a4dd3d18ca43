/-!
# Kinds of resources

The closed set of resource kinds, each held by one cache: namespaces, services, service instances,
and five families of governance rules. The position of a kind orders the caches.
-/

namespace GovernanceCache

/-- A family of governance rules. -/
inductive RuleKind where
  | routing
  | rateLimit
  | circuitBreaker
  | faultDetect
  | lane
deriving DecidableEq, Repr

namespace RuleKind

def all : List RuleKind := [routing, rateLimit, circuitBreaker, faultDetect, lane]

/-- The name of a family in documents. -/
def name : RuleKind → String
  | routing => "routing"
  | rateLimit => "rate_limit"
  | circuitBreaker => "circuit_breaker"
  | faultDetect => "fault_detect"
  | lane => "lane"

/-- The family with the given name. -/
def ofName? (name : String) : Option RuleKind := all.find? fun kind => kind.name == name

end RuleKind

/-- A kind of resource. -/
inductive CacheKind where
  | namespaces
  | services
  | instances
  | rules (kind : RuleKind)
deriving DecidableEq, Repr

namespace CacheKind

def all : List CacheKind :=
  [namespaces, services, instances] ++ RuleKind.all.map rules

/-- The name of a cache, which is also the topic of its events. -/
def name : CacheKind → String
  | namespaces => "namespace"
  | services => "service"
  | instances => "instance"
  | rules .routing => "routingRule"
  | rules .rateLimit => "rateLimitRule"
  | rules .circuitBreaker => "circuitBreakerRule"
  | rules .faultDetect => "faultDetectRule"
  | rules .lane => "laneRule"

/-- The position of a kind in the order of the caches. -/
def position : CacheKind → Nat
  | namespaces => 0
  | services => 1
  | instances => 2
  | rules .routing => 3
  | rules .rateLimit => 4
  | rules .circuitBreaker => 5
  | rules .faultDetect => 6
  | rules .lane => 7

/-- The kind with the given cache name. -/
def ofName? (name : String) : Option CacheKind := all.find? fun kind => kind.name == name

end CacheKind

end GovernanceCache
