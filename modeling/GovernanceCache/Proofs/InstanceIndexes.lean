import GovernanceCache.Instances
import GovernanceCache.Proofs.BucketLaws
import GovernanceCache.Proofs.SessionContents

/-!
# Instances are found

Whatever batches a replica of the instances takes in, its index sorts its instances by their
services. So the instances of a service are those that are held and run it, less the isolated ones
if the cache was so configured, in the order of their ids. Options that are refused change nothing.
-/

namespace GovernanceCache

namespace InstanceIndex

/-- The index agrees with the entries. -/
def Agrees (entries : Std.ExtTreeMap String Instance) (index : InstanceIndex) : Prop :=
  index.byService.Sorts Instance.serviceId entries

theorem tracks : Index.Tracks Agrees where
  empty := .empty
  observe hl h hc := h.follow hl hc

end InstanceIndex

namespace Instances

variable {m : Instances} {options : InstanceOptions} {r : Instance} {serviceId : String}

theorem before_of_lt (a b : Instance) (h : a.id < b.id) : before a b = true :=
  decide_eq_true (le_of_lt h)

theorem isDiscoverable_iff :
    isDiscoverable options serviceId r = true ↔
      r.serviceId = serviceId ∧ ¬ (options.excludeIsolated = true ∧ r.isolated = true) := by
  unfold isDiscoverable
  cases options.excludeIsolated <;> simp

/-- The keys of a service come in order, so that nothing is left to sort. -/
theorem ofService_eq (hl : Live m.entries) (options : InstanceOptions) (serviceId : String) :
    (m.ofService options serviceId).2 =
      (m.getAll (m.index.byService.members serviceId)).2.filter
        (isDiscoverable options serviceId) :=
  Replica.mergeSort_getAll hl.keyed (Buckets.members_ordered _ _) before_of_lt _

theorem ofService_perm (hl : Live m.entries) (h : InstanceIndex.Agrees m.entries m.index)
    (options : InstanceOptions) (serviceId : String) :
    (m.ofService options serviceId).2.Perm
      (m.list.filter (isDiscoverable options serviceId)) := by
  rw [ofService_eq hl]
  refine Replica.getAll_filter_perm hl.keyed (Buckets.members_ordered _ _) fun r hr hd => ?_
  exact (h.mem_members hl hr).mpr (isDiscoverable_iff.mp hd).1

theorem mem_ofService (hl : Live m.entries) (h : InstanceIndex.Agrees m.entries m.index) :
    r ∈ (m.ofService options serviceId).2 ↔
      r ∈ m.list ∧ isDiscoverable options serviceId r = true :=
  (ofService_perm hl h options serviceId).mem_iff.trans List.mem_filter

theorem ofService_ordered (hl : Live m.entries) (options : InstanceOptions) (serviceId : String) :
    (m.ofService options serviceId).2.Pairwise fun a b => a.id < b.id := by
  rw [ofService_eq hl]
  exact (Replica.getAll_ordered hl.keyed (Buckets.members_ordered _ _)).filter _

/-- The instances of every service are told exactly. -/
structure Told (m : Instances) (options : InstanceOptions) : Prop where
  live : ∀ r ∈ m.list, r.valid = true
  whole : ∀ (serviceId : String) (r : Instance), r ∈ (m.ofService options serviceId).2 ↔
    r ∈ m.list ∧ r.serviceId = serviceId ∧ ¬ (options.excludeIsolated = true ∧ r.isolated = true)
  /-- In particular each of them is told once. -/
  ordered : ∀ serviceId, (m.ofService options serviceId).2.Pairwise fun a b => a.id < b.id
  counted : ∀ serviceId, (m.countOf options serviceId).2 =
    m.list.countP (isDiscoverable options serviceId)
  listed : ∀ serviceId id : String, m.index.byService.Holds serviceId id ↔
    ∃ r ∈ m.list, r.id = id ∧ r.serviceId = serviceId
  apart : ∀ serviceId other id : String,
    m.index.byService.Holds serviceId id → m.index.byService.Holds other id → serviceId = other
  noneEmpty : m.index.byService.NoneEmpty

theorem Told.of_agrees (hl : Live m.entries) (h : InstanceIndex.Agrees m.entries m.index)
    (options : InstanceOptions) : m.Told options where
  live r hr := hl.of_mem hr
  whole serviceId r := by rw [mem_ofService hl h, isDiscoverable_iff]
  ordered := ofService_ordered hl options
  counted serviceId := by
    rw [List.countP_eq_length_filter]
    exact (ofService_perm hl h options serviceId).length_eq
  listed serviceId id := h.holds_iff hl
  apart serviceId other id := h.unique
  noneEmpty := h.noneEmpty

/-! ## Configuring the cache while it runs -/

/-- The replica in a session, and the options that the cache has. -/
structure Configured where
  session : Desk.Session Instance InstanceIndex
  options : InstanceOptions := {}

/-- A step of the session, or options for the cache. -/
inductive Configured.Step where
  | act (action : Desk.Action Instance)
  | configure (options : Options)

namespace Configured

/-- The cache is given options; those that it refuses change nothing. -/
def configure (s : Configured) (options : Options) : Configured :=
  match InstanceOptions.ofOptions? options with
  | .ok options => { s with options }
  | .error _ => s

/-- The cache after one more step. -/
def step (s : Configured) : Step → Configured
  | .act action => { s with session := s.session.act action }
  | .configure options => s.configure options

/-- The cache after the steps. -/
def run (s : Configured) (steps : List Step) : Configured := steps.foldl step s

/-- The action of a step in the session. -/
def Step.action? : Step → Option (Desk.Action Instance)
  | .act action => some action
  | .configure _ => none

/-- The options that a step sets. -/
def Step.accepted? : Step → Option InstanceOptions
  | .act _ => none
  | .configure options => (InstanceOptions.ofOptions? options).toOption

variable {s : Configured} {given : Options} {o : InstanceOptions} {fault : Fault}

theorem configure_of_ok (h : InstanceOptions.ofOptions? given = .ok o) :
    s.configure given = { s with options := o } := by
  unfold configure; rw [h]

theorem configure_of_error (h : InstanceOptions.ofOptions? given = .error fault) :
    s.configure given = s := by
  unfold configure; rw [h]

theorem configure_session (s : Configured) (given : Options) :
    (s.configure given).session = s.session := by
  rcases h : InstanceOptions.ofOptions? given with fault | o
  · rw [configure_of_error h]
  · rw [configure_of_ok h]

theorem run_session (s : Configured) (steps : List Step) :
    (s.run steps).session = s.session.run (steps.filterMap Step.action?) := by
  induction steps generalizing s with
  | nil => rfl
  | cons step rest ih =>
    show ((s.step step).run rest).session = _
    rw [ih]
    cases step with
    | act action => rfl
    | configure given =>
      show (s.configure given).session.run _ = _
      rw [configure_session]
      rfl

theorem run_options (s : Configured) (steps : List Step) :
    (s.run steps).options = ((steps.filterMap Step.accepted?).getLast?).getD s.options := by
  induction steps generalizing s with
  | nil => rfl
  | cons step rest ih =>
    show ((s.step step).run rest).options = _
    rw [ih]
    cases step with
    | act action => rfl
    | configure given =>
      show (_ : Option InstanceOptions).getD (s.configure given).options = _
      rcases h : InstanceOptions.ofOptions? given with fault | o
      · have haccepted : (Step.configure given).accepted? = none := by
          show (InstanceOptions.ofOptions? given).toOption = none
          rw [h]
          rfl
        rw [List.filterMap_cons_none haccepted, configure_of_error h]
      · have haccepted : (Step.configure given).accepted? = some o := by
          show (InstanceOptions.ofOptions? given).toOption = some o
          rw [h]
          rfl
        rw [List.filterMap_cons_some haccepted, configure_of_ok h, List.getLast?_cons]
        rfl

/-- **Instances are found.** Whatever happens to a cache and whatever options it is given meanwhile,
it has the last ones that it took, and tells the instances of every service exactly. -/
theorem run_told (kind : CacheKind) (skew : Span) (buffer : Nat) (now : Instant)
    (steps : List Step) :
    let s : Configured := run { session := .start kind skew buffer now } steps
    s.options = ((steps.filterMap Step.accepted?).getLast?).getD {} ∧
      Instances.Told s.session.refresher.replica s.options := by
  intro s
  refine ⟨run_options _ steps, ?_⟩
  obtain ⟨hl, h⟩ := InstanceIndex.tracks.run kind skew buffer now (steps.filterMap Step.action?)
  have hs : s.session = _ := run_session { session := .start kind skew buffer now } steps
  rw [hs]
  exact .of_agrees hl h s.options

end Configured

end Instances

end GovernanceCache
