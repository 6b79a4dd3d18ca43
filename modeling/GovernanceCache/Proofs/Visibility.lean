import GovernanceCache.Proofs.ServiceIndexes

/-!
# Who sees what

The export targets that the replica of the namespaces keeps are those of its entries, whatever
batches it takes in (`Exports.tracks`). So the three ways to ask for visibility, of a namespace, of
all namespaces and of all services, agree with the namespaces and services that are held.
-/

namespace GovernanceCache

namespace Exports

variable {entries : Std.ExtTreeMap String Namespace} {e : Exports} {c : Change Namespace}

/-- The export targets of a namespace, unless it has none. -/
def ofEntry (entry : Option Namespace) : Option (Std.ExtTreeSet String) :=
  (entry.map Namespace.exports).filter fun targets => !targets.isEmpty

theorem ofEntry_some (r : Namespace) :
    ofEntry (some r) = if r.exports.isEmpty then none else some r.exports := by
  unfold ofEntry
  rw [Option.map_some, Option.filter_some]
  cases r.exports.isEmpty <;> rfl

/-- The targets are those of the entries. -/
def Follows (entries : Std.ExtTreeMap String Namespace) (e : Exports) : Prop :=
  ∀ name : String, e.targets[name]? = ofEntry entries[name]?

theorem follow_getElem? (hc : c.Fits entries) (name : String) :
    (e.follow c).targets[name]? =
      if c.key = name then ofEntry ((some c.new).filter Record.valid) else e.targets[name]? := by
  obtain ⟨kind, old, new⟩ := c
  have hlive : (if new.exports.isEmpty then (⟨e.targets.erase new.name⟩ : Exports)
      else ⟨e.targets.insert new.name new.exports⟩).targets[name]? =
      if new.name = name then ofEntry (some new) else e.targets[name]? := by
    rw [ofEntry_some]
    split
    · rw [getElem?_erase_eq]
    · rw [getElem?_insert_eq]
  unfold Change.Fits at hc
  cases kind with
  | created =>
    have hv : Record.valid new = true := hc.2.2
    simp only [Option.filter_some, hv, if_true]
    exact hlive
  | updated =>
    obtain ⟨_, _, _, hv⟩ := hc
    simp only [Option.filter_some, hv, if_true]
    exact hlive
  | deleted =>
    obtain ⟨_, _, _, hv⟩ := hc
    simp only [Option.filter_some, hv, Bool.false_eq_true, if_false]
    exact getElem?_erase_eq e.targets new.name name

theorem Follows.getElem?_eq_some (h : Follows entries e) {name : String}
    {targets : Std.ExtTreeSet String} :
    e.targets[name]? = some targets ↔
      ∃ r, entries[name]? = some r ∧ r.exports.isEmpty = false ∧ r.exports = targets := by
  rw [h name]
  cases entries[name]? with
  | none => simp [ofEntry]
  | some r => simp [ofEntry_some]

theorem tracks : Index.Tracks Follows where
  empty name := by simp [Index.empty, ofEntry]
  observe {entries e c} _ h hc := by
    intro name
    show (e.follow c).targets[name]? = _
    rw [follow_getElem? hc, replay_getElem? hc, h name]
    split <;> rfl

theorem covers_iff {targets : Std.ExtTreeSet String} {viewer : String} :
    covers targets viewer = true ↔ viewer ∈ targets ∨ exportAll ∈ targets := by
  unfold covers
  simp

end Exports

namespace Namespaces

variable {m : Namespaces} {viewer exporter x : String}

/-- A namespace that is held exports to the viewer or to everyone. -/
def ExportsTo (m : Namespaces) (exporter viewer : String) : Prop :=
  ∃ r ∈ m.list, r.name = exporter ∧ (viewer ∈ r.exports ∨ exportAll ∈ r.exports)

theorem covered_iff (hl : Live m.entries) (h : Exports.Follows m.entries m.index) :
    (∃ targets, m.index.targets[exporter]? = some targets ∧ Exports.covers targets viewer = true) ↔
      m.ExportsTo exporter viewer := by
  unfold ExportsTo
  constructor
  · rintro ⟨targets, htargets, hcovers⟩
    obtain ⟨r, hr, -, rfl⟩ := h.getElem?_eq_some.mp htargets
    exact ⟨r, hl.keyed.mem_of_getElem? hr, hl.keyed exporter r hr, Exports.covers_iff.mp hcovers⟩
  · rintro ⟨r, hr, rfl, hcovers⟩
    have hr : m.entries[r.name]? = some r := hl.keyed.mem_values.mp hr
    refine ⟨r.exports, h.getElem?_eq_some.mpr ⟨r, hr, ?_, rfl⟩, Exports.covers_iff.mpr hcovers⟩
    -- what covers a viewer is not empty
    rw [Std.ExtTreeSet.isEmpty_eq_false_iff]
    intro hempty
    rw [hempty] at hcovers
    simp at hcovers

theorem isVisible_iff (hl : Live m.entries) (h : Exports.Follows m.entries m.index) :
    m.isVisible viewer exporter = true ↔ viewer = exporter ∨ m.ExportsTo exporter viewer := by
  rw [← covered_iff hl h]
  unfold isVisible
  cases m.index.targets[exporter]? <;> simp

theorem mem_visible (hl : Live m.entries) (h : Exports.Follows m.entries m.index) :
    x ∈ m.visible viewer ↔ x = viewer ∨ m.ExportsTo x viewer := by
  rw [← covered_iff hl h]
  unfold visible
  simp only
  rw [Std.ExtTreeSet.mem_toList, Std.ExtTreeSet.mem_insert, Std.ExtTreeSet.mem_ofList,
    compare_eq_iff_eq, List.contains_iff_mem, List.mem_filterMap, eq_comm]
  refine or_congr Iff.rfl ?_
  constructor
  · rintro ⟨⟨name, targets⟩, hmem, hif⟩
    split at hif
    · rename_i hcovers
      obtain rfl := Option.some.inj hif
      exact ⟨targets, Std.ExtTreeMap.mem_toList_iff_getElem?_eq_some.mp hmem, hcovers⟩
    · cases hif
  · rintro ⟨targets, htargets, hcovers⟩
    refine ⟨(x, targets), ?_, if_pos hcovers⟩
    exact Std.ExtTreeMap.mem_toList_iff_getElem?_eq_some.mpr htargets

theorem visible_ordered (m : Namespaces) (viewer : String) :
    (m.visible viewer).Pairwise fun a b => a < b :=
  (Std.ExtTreeSet.ordered_toList).imp compare_lt_iff_lt.mp

end Namespaces

namespace Services

variable {m : Services} {namespaces : Namespaces} {viewer : String} {r : Service}

theorem mem_visible (hl : Live namespaces.entries)
    (h : Exports.Follows namespaces.entries namespaces.index) :
    r ∈ m.visible namespaces viewer ↔
      r ∈ m.list ∧ (viewer ∈ r.exports ∨ exportAll ∈ r.exports ∨
        r.namespaceName ∈ namespaces.visible viewer) := by
  unfold visible isVisibleTo
  rw [mem_sort, List.mem_filter, Bool.or_eq_true, Bool.or_eq_true, beq_iff_eq, Exports.covers_iff,
    Namespaces.isVisible_iff hl h, Namespaces.mem_visible hl h, @eq_comm _ viewer]
  tauto

end Services

/-- What is visible of the namespaces is what those that are held export. -/
structure Namespaces.ShowExports (m : Namespaces) : Prop where
  live : ∀ r ∈ m.list, r.valid = true
  isVisible : ∀ viewer exporter : String,
    m.isVisible viewer exporter = true ↔ viewer = exporter ∨ m.ExportsTo exporter viewer
  visible : ∀ viewer x : String, x ∈ m.visible viewer ↔ x = viewer ∨ m.ExportsTo x viewer
  ordered : ∀ viewer, (m.visible viewer).Pairwise fun a b => a < b

/-- What is visible of the services are those that are held and export to the viewer, themselves or
by a namespace that the viewer sees. -/
structure Services.ShowVisible (m : Services) (namespaces : Namespaces) : Prop where
  live : ∀ r ∈ m.list, r.valid = true
  visible : ∀ (viewer : String) (r : Service), r ∈ m.visible namespaces viewer ↔
    r ∈ m.list ∧ (viewer ∈ r.exports ∨ exportAll ∈ r.exports ∨
      r.namespaceName ∈ namespaces.visible viewer)
  once : ∀ viewer, (m.visible namespaces viewer).Nodup
  ordered : ∀ viewer, (m.visible namespaces viewer).Pairwise fun a b =>
    a.namespaceName < b.namespaceName ∨ a.namespaceName = b.namespaceName ∧ a.name ≤ b.name

/-- **Visibility.** In whatever states two sessions leave the namespaces and the services, a viewer
sees what is exported to it. -/
theorem Desk.Session.run_visibility (kind kind' : CacheKind) (skew skew' : Span)
    (buffer buffer' : Nat) (now now' : Instant) (actions : List (Desk.Action Namespace))
    (actions' : List (Desk.Action Service)) :
    let namespaces : Namespaces := ((Desk.Session.start kind skew buffer now :
      Desk.Session Namespace Exports).run actions).refresher.replica
    let services : Services := ((Desk.Session.start kind' skew' buffer' now' :
      Desk.Session Service ServiceIndex).run actions').refresher.replica
    namespaces.ShowExports ∧ services.ShowVisible namespaces := by
  intro namespaces services
  obtain ⟨hl, h⟩ := Exports.tracks.run kind skew buffer now actions
  obtain ⟨hl', -⟩ := ServiceIndex.tracks.run kind' skew' buffer' now' actions'
  refine ⟨⟨?_, ?_, ?_, ?_⟩, ⟨?_, ?_, ?_, ?_⟩⟩
  · exact fun r hr => hl.of_mem hr
  · exact fun viewer exporter => Namespaces.isVisible_iff hl h
  · exact fun viewer x => Namespaces.mem_visible hl h
  · exact fun viewer => namespaces.visible_ordered viewer
  · exact fun r hr => hl'.of_mem hr
  · exact fun viewer r => Services.mem_visible hl h
  · exact fun viewer => Services.sort_nodup.mpr (hl'.values_nodup.filter _)
  · exact fun viewer => Services.sort_ordered _

end GovernanceCache
