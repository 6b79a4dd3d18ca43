import GovernanceCache.Kind

/-!
# Families by kind

One value for each kind of resources, of a type that may depend on the kind.
-/

namespace GovernanceCache

/-- One value for each kind. -/
structure ByKind (F : CacheKind → Type) where
  namespaces : F .namespaces
  services : F .services
  instances : F .instances
  routing : F (.rules .routing)
  rateLimit : F (.rules .rateLimit)
  circuitBreaker : F (.rules .circuitBreaker)
  faultDetect : F (.rules .faultDetect)
  lane : F (.rules .lane)

namespace ByKind

variable {F : CacheKind → Type}

def get (b : ByKind F) : (k : CacheKind) → F k
  | .namespaces => b.namespaces
  | .services => b.services
  | .instances => b.instances
  | .rules .routing => b.routing
  | .rules .rateLimit => b.rateLimit
  | .rules .circuitBreaker => b.circuitBreaker
  | .rules .faultDetect => b.faultDetect
  | .rules .lane => b.lane

/-- The values with that of one kind replaced. -/
def set (b : ByKind F) : (k : CacheKind) → F k → ByKind F
  | .namespaces, x => { b with namespaces := x }
  | .services, x => { b with services := x }
  | .instances, x => { b with instances := x }
  | .rules .routing, x => { b with routing := x }
  | .rules .rateLimit, x => { b with rateLimit := x }
  | .rules .circuitBreaker, x => { b with circuitBreaker := x }
  | .rules .faultDetect, x => { b with faultDetect := x }
  | .rules .lane, x => { b with lane := x }

/-- The values of a function. -/
def tabulate (f : (k : CacheKind) → F k) : ByKind F :=
  ⟨f .namespaces, f .services, f .instances, f (.rules .routing), f (.rules .rateLimit),
    f (.rules .circuitBreaker), f (.rules .faultDetect), f (.rules .lane)⟩

def modify (b : ByKind F) (k : CacheKind) (f : F k → F k) : ByKind F := b.set k (f (b.get k))

def map (b : ByKind F) (f : (k : CacheKind) → F k → F k) : ByKind F :=
  tabulate fun k => f k (b.get k)

@[simp] theorem get_tabulate (f : (k : CacheKind) → F k) (k : CacheKind) :
    (tabulate f).get k = f k := by
  rcases k with _ | _ | _ | (_ | _ | _ | _ | _) <;> rfl

@[simp] theorem get_set_self (b : ByKind F) (k : CacheKind) (x : F k) : (b.set k x).get k = x := by
  rcases k with _ | _ | _ | (_ | _ | _ | _ | _) <;> rfl

theorem get_set_of_ne (b : ByKind F) {k l : CacheKind} (x : F k) (h : l ≠ k) :
    (b.set k x).get l = b.get l := by
  rcases k with _ | _ | _ | (_ | _ | _ | _ | _) <;>
    rcases l with _ | _ | _ | (_ | _ | _ | _ | _) <;> first | rfl | exact absurd rfl h

end ByKind

end GovernanceCache
