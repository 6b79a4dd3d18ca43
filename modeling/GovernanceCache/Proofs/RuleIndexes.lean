import GovernanceCache.Proofs.BucketLaws
import GovernanceCache.Proofs.SessionContents
import GovernanceCache.Rules

/-!
# Rules are found

Whatever batches a replica of rules takes in, its index sorts its rules, enabled or not, by their
targets. A service is asked for by two buckets, its own and that of the wildcard, which are one if
the wildcard itself is asked for. Either way the rules that apply to it are found, each once and in
the order of their ids.
-/

namespace GovernanceCache

namespace RuleIndex

/-- The index agrees with the entries. -/
def Agrees (entries : Std.ExtTreeMap String Rule) (index : RuleIndex) : Prop :=
  index.byTarget.Sorts Rule.target entries

theorem tracks : Index.Tracks Agrees where
  empty := .empty
  observe hl h hc := h.follow hl hc

end RuleIndex

namespace Rules

variable {m : Rules} {r : Rule} {service : QualifiedName} {id : String}

theorem before_of_lt (a b : Rule) (h : a.id < b.id) : before a b = true :=
  decide_eq_true (le_of_lt h)

theorem applies_iff :
    applies service r = true ↔ r.enabled = true ∧ r.namespaceName = service.namespaceName ∧
      (r.service = service.name ∨ r.service = exportAll) := by
  simp [applies, and_assoc]

/-- A rule that applies targets the service or the wildcard in its namespace. -/
theorem applies_target (h : applies service r = true) :
    r.target = service ∨ r.target = { service with name := exportAll } := by
  obtain ⟨-, hnamespace, hservice⟩ := applies_iff.mp h
  obtain ⟨namespaceName, name⟩ := service
  simp only [Rule.target, QualifiedName.mk.injEq]
  exact hservice.imp (⟨hnamespace, ·⟩) (⟨hnamespace, ·⟩)

/-! ## The keys that are asked for -/

theorem mem_targeting :
    id ∈ m.targeting service ↔ m.index.byTarget.Holds service id ∨
      m.index.byTarget.Holds { service with name := exportAll } id := by
  unfold targeting
  simp only [Std.ExtTreeSet.mem_toList, Std.ExtTreeSet.mem_insertMany_list,
    Std.ExtTreeSet.mem_ofList, List.contains_iff_mem, Buckets.mem_members]

theorem targeting_ordered (m : Rules) (service : QualifiedName) :
    (m.targeting service).Pairwise fun a b => a < b :=
  (Std.ExtTreeSet.ordered_toList).imp compare_lt_iff_lt.mp

/-! ## The rules that are found -/

theorem ofService_eq (hl : Live m.entries) (service : QualifiedName) :
    (m.ofService service).2 = (m.getAll (m.targeting service)).2.filter (applies service) :=
  Replica.mergeSort_getAll hl.keyed (targeting_ordered m service) before_of_lt _

theorem ofService_perm (hl : Live m.entries) (h : RuleIndex.Agrees m.entries m.index)
    (service : QualifiedName) :
    (m.ofService service).2.Perm (m.list.filter (applies service)) := by
  rw [ofService_eq hl]
  refine Replica.getAll_filter_perm hl.keyed (targeting_ordered m service) fun r hr happ => ?_
  rw [mem_targeting, ← Buckets.mem_members, ← Buckets.mem_members, h.mem_members hl hr,
    h.mem_members hl hr]
  exact applies_target happ

theorem mem_ofService (hl : Live m.entries) (h : RuleIndex.Agrees m.entries m.index) :
    r ∈ (m.ofService service).2 ↔ r ∈ m.list ∧ applies service r = true :=
  (ofService_perm hl h service).mem_iff.trans List.mem_filter

/-- The rules of every service are told exactly. -/
structure Told (m : Rules) : Prop where
  live : ∀ r ∈ m.list, r.valid = true
  whole : ∀ (service : QualifiedName) (r : Rule), r ∈ (m.ofService service).2 ↔
    r ∈ m.list ∧ r.enabled = true ∧ r.namespaceName = service.namespaceName ∧
      (r.service = service.name ∨ r.service = exportAll)
  /-- In particular each of them is told once. -/
  ordered : ∀ service, (m.ofService service).2.Pairwise fun a b => a.id < b.id
  listed : ∀ (target : QualifiedName) (id : String), m.index.byTarget.Holds target id ↔
    ∃ r ∈ m.list, r.id = id ∧ r.target = target
  apart : ∀ (target other : QualifiedName) (id : String),
    m.index.byTarget.Holds target id → m.index.byTarget.Holds other id → target = other
  noneEmpty : m.index.byTarget.NoneEmpty

theorem Told.of_agrees (hl : Live m.entries) (h : RuleIndex.Agrees m.entries m.index) :
    m.Told where
  live r hr := hl.of_mem hr
  whole service r := by rw [mem_ofService hl h, applies_iff]
  ordered service := by
    rw [ofService_eq hl]
    exact (Replica.getAll_ordered hl.keyed (targeting_ordered m service)).filter _
  listed target id := h.holds_iff hl
  apart target other id := h.unique
  noneEmpty := h.noneEmpty

end Rules

/-- **Rules are found.** In every session the rules that apply to any service, the wildcard too, are
told exactly, and the index holds every rule under its target alone. -/
theorem Desk.Session.run_targeted (kind : CacheKind) (skew : Span) (buffer : Nat) (now : Instant)
    (actions : List (Desk.Action Rule)) :
    let m : Rules := ((Desk.Session.start kind skew buffer now :
      Desk.Session Rule RuleIndex).run actions).refresher.replica
    m.Told := by
  intro m
  obtain ⟨hl, h⟩ := RuleIndex.tracks.run kind skew buffer now actions
  exact .of_agrees hl h

end GovernanceCache
