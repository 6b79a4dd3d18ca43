import GovernanceCache.Manager
import GovernanceCache.Proofs.InstanceIndexes
import GovernanceCache.Proofs.RevisionLaws
import GovernanceCache.Proofs.RuleIndexes
import GovernanceCache.Proofs.Visibility

/-!
# Replicas agree on revisions

Two managers may have filled their caches in different ways. If these hold the same records in the
end, apart from the times of modification, the managers tell the same revisions.

1. What is told of a replica is a permutation of those of its records that pass a test. Tests and
   parts do not look at the times, so the parts told of two replicas that hold the same are
   permutations of each other (`HoldsAlike.told`).
2. A revision does not depend on the order of its parts.
-/

namespace GovernanceCache

variable {R ι : Type} [Record R]

/-- The record without its time of modification. -/
def Record.timeless (r : R) : R := Record.withModified .epoch r

/-- What does not look at the times is the same for records that differ in nothing else. -/
theorem Record.eq_of_timeless {α : Type} {f : R → α} (hf : ∀ r, f (timeless r) = f r) {r r' : R}
    (h : timeless r' = timeless r) : f r' = f r := by
  rw [← hf r', h, hf r]

/-! ## Replicas that hold the same -/

/-- Both hold the same records, apart from the times of modification. -/
def Replica.HoldsAlike (m m' : Replica R ι) : Prop :=
  (m.list.map Record.timeless).Perm (m'.list.map Record.timeless)

namespace Replica.HoldsAlike

variable {m m' : Replica R ι} {r : R}

theorem symm (h : m.HoldsAlike m') : m'.HoldsAlike m := List.Perm.symm h

theorem exists_mem (h : m.HoldsAlike m') (hr : r ∈ m.list) :
    ∃ r' ∈ m'.list, Record.timeless r' = Record.timeless r :=
  List.mem_map.mp ((List.Perm.mem_iff h).mp (List.mem_map_of_mem hr))

/-- What is told of the records that pass a test, in any order, if neither the test nor what is told
looks at the times. -/
theorem told {α : Type} (h : m.HoldsAlike m') {p : R → Bool} {f : R → α} {found found' : List R}
    (hfound : found.Perm (m.list.filter p)) (hfound' : found'.Perm (m'.list.filter p))
    (hp : ∀ r, p (Record.timeless r) = p r) (hf : ∀ r, f (Record.timeless r) = f r) :
    (found.map f).Perm (found'.map f) := by
  have hsame : ∀ records : List R,
      ((records.map Record.timeless).filter p).map f = (records.filter p).map f := by
    intro records
    have hp : p ∘ Record.timeless = p := funext hp
    have hf : f ∘ Record.timeless = f := funext hf
    rw [List.filter_map, List.map_map, hp, hf]
  have htold : ((m.list.filter p).map f).Perm ((m'.list.filter p).map f) := by
    rw [← hsame m.list, ← hsame m'.list]
    exact (h.filter p).map f
  exact (hfound.map f).trans (htold.trans (hfound'.map f).symm)

end Replica.HoldsAlike

/-! ## Instances and rules -/

theorem Instances.revisionOf_alike {m m' : Instances} (hl : Live m.entries)
    (h : InstanceIndex.Agrees m.entries m.index) (hl' : Live m'.entries)
    (h' : InstanceIndex.Agrees m'.entries m'.index) (halike : m.HoldsAlike m')
    (options : InstanceOptions) (serviceId : String) :
    (m.revisionOf options serviceId).2 = (m'.revisionOf options serviceId).2 := by
  have hfound := ofService_perm hl h options serviceId
  have hfound' := ofService_perm hl' h' options serviceId
  exact Revision.ofRecords_perm (halike.told hfound hfound' (fun _ => rfl) fun _ => rfl)

theorem Instances.discover_eq (m : Instances) (options : InstanceOptions)
    (serviceId client : String) :
    (m.discover options serviceId client).2 =
      if client = (m.revisionOf options serviceId).2.text then
        .unchanged (m.revisionOf options serviceId).2
      else .changed (m.revisionOf options serviceId).2 (m.ofService options serviceId).2 := by
  have h : (m.revisionOf options serviceId).2.text ≠ "" := Revision.compose_text_ne _
  exact Versioned.resolve_eq h client fun _ => (m.ofService options serviceId).2

theorem Rules.revisionOf_alike {m m' : Rules} (hl : Live m.entries)
    (h : RuleIndex.Agrees m.entries m.index) (hl' : Live m'.entries)
    (h' : RuleIndex.Agrees m'.entries m'.index) (halike : m.HoldsAlike m')
    (service : QualifiedName) :
    (m.revisionOf service).2 = (m'.revisionOf service).2 := by
  have hfound := ofService_perm hl h service
  have hfound' := ofService_perm hl' h' service
  exact Revision.ofRecords_perm (halike.told hfound hfound' (fun _ => rfl) fun _ => rfl)

theorem Rules.fetch_eq (m : Rules) (service : QualifiedName) (client : String) :
    (m.fetch service client).2 =
      if client = (m.revisionOf service).2.text then .unchanged (m.revisionOf service).2
      else .changed (m.revisionOf service).2 (m.ofService service).2 := by
  have h : (m.revisionOf service).2.text ≠ "" := Revision.compose_text_ne _
  exact Versioned.resolve_eq h client fun _ => (m.ofService service).2

/-! ## Services -/

theorem Namespaces.ExportsTo.alike {m m' : Namespaces} {exporter viewer : String}
    (halike : m.HoldsAlike m') (h : m.ExportsTo exporter viewer) :
    m'.ExportsTo exporter viewer := by
  obtain ⟨r, hr, hname, hexports⟩ := h
  obtain ⟨r', hr', hsame⟩ := halike.exists_mem hr
  have hname' : r'.name = r.name := Record.eq_of_timeless (fun _ => rfl) hsame
  have hexports' : r'.exports = r.exports := Record.eq_of_timeless (fun _ => rfl) hsame
  exact ⟨r', hr', hname'.trans hname, hexports' ▸ hexports⟩

theorem Namespaces.isVisible_alike {m m' : Namespaces} (hl : Live m.entries)
    (h : Exports.Follows m.entries m.index) (hl' : Live m'.entries)
    (h' : Exports.Follows m'.entries m'.index) (halike : m.HoldsAlike m')
    (viewer exporter : String) : m.isVisible viewer exporter = m'.isVisible viewer exporter := by
  rw [Bool.eq_iff_iff, isVisible_iff hl h, isVisible_iff hl' h']
  exact or_congr Iff.rfl ⟨.alike halike, .alike halike.symm⟩

namespace Services

variable {m m' : Services} {namespaces namespaces' : Namespaces} {viewer : String}
  {q : QualifiedName} {r : Service}

/-- What is told of the visible services, if it does not look at the times. -/
theorem visible_alike {α : Type} (halike : m.HoldsAlike m')
    (hsees : ∀ exporter,
      namespaces.isVisible viewer exporter = namespaces'.isVisible viewer exporter)
    {f : Service → α} (hf : ∀ r, f (Record.timeless r) = f r) :
    ((m.visible namespaces viewer).map f).Perm ((m'.visible namespaces' viewer).map f) := by
  have hsame : (fun r => isVisibleTo namespaces' r viewer) =
      fun r => isVisibleTo namespaces r viewer := by
    funext r
    unfold isVisibleTo
    rw [hsees]
  unfold visible
  rw [hsame]
  exact halike.told (List.mergeSort_perm _ _) (List.mergeSort_perm _ _) (fun _ => rfl) hf

theorem visibleRevision_alike (halike : m.HoldsAlike m')
    (hsees : ∀ exporter,
      namespaces.isVisible viewer exporter = namespaces'.isVisible viewer exporter) :
    m.visibleRevision namespaces viewer = m'.visibleRevision namespaces' viewer :=
  Revision.ofRecords_perm (visible_alike halike hsees fun _ => rfl)

theorem exists_named? (hl : Live m.entries)
    (h : ServiceIndex.Reaches [] m.entries m.index.byName) (hl' : Live m'.entries)
    (h' : ServiceIndex.Reaches [] m'.entries m'.index.byName) (halike : m.HoldsAlike m')
    (hr : (m.named? q).2 = some r) :
    ∃ r', (m'.named? q).2 = some r' ∧ Record.timeless r' = Record.timeless r := by
  obtain ⟨hmem, rfl⟩ := (named?_eq_some hl h).mp hr
  obtain ⟨r', hr', hsame⟩ := halike.exists_mem hmem
  refine ⟨r', (named?_eq_some hl' h').mpr ⟨hr', ?_⟩, hsame⟩
  exact Record.eq_of_timeless (fun _ => rfl) hsame

/-- The services of a name are alike, or neither replica finds one. -/
theorem named?_alike (hl : Live m.entries)
    (h : ServiceIndex.Reaches [] m.entries m.index.byName) (hl' : Live m'.entries)
    (h' : ServiceIndex.Reaches [] m'.entries m'.index.byName) (halike : m.HoldsAlike m')
    (q : QualifiedName) :
    (m.named? q).2.map Record.timeless = (m'.named? q).2.map Record.timeless := by
  rcases hr : (m.named? q).2 with _ | r
  · rcases hr' : (m'.named? q).2 with _ | r'
    · rfl
    · obtain ⟨r, hsome, -⟩ := exists_named? hl' h' hl h halike.symm hr'
      rw [hr] at hsome
      cases hsome
  · obtain ⟨r', hr', hsame⟩ := exists_named? hl h hl' h' halike hr
    rw [hr', Option.map_some, Option.map_some, hsame]

/-- Looking a service up leaves alone what is visible. -/
theorem visible_named? (m : Services) (q : QualifiedName) (namespaces : Namespaces)
    (viewer : String) : (m.named? q).1.visible namespaces viewer = m.visible namespaces viewer := by
  unfold named?
  split <;> rfl

end Services

/-! ## Managers -/

/-- What became of a replica since it was made. -/
structure History (R : Type) where
  kind : CacheKind
  skew : Span
  buffer : Nat
  began : Instant
  actions : List (Desk.Action R)

/-- The session in which the history ends. -/
def History.session [Index R ι] (h : History R) : Desk.Session R ι :=
  (Desk.Session.start h.kind h.skew h.buffer h.began).run h.actions

namespace Manager

variable {a b : Manager}

/-- The caches of the manager are as their histories left them, and no two services shared a name
after any batch. -/
structure Recalls (m : Manager) (histories : (k : CacheKind) → History k.Row) : Prop where
  replica : ∀ k, m.replica k = (histories k).session.refresher.replica
  namesApart : ((histories .services).session : Desk.Session Service ServiceIndex).NamesApart

/-- The parts of a discovery revision: the revision of the instances of the service, and a part for
every service that its namespace sees. -/
def discoveryParts (m : Manager) (name : QualifiedName) (service : Service) : List String :=
  let own := (Instances.revisionOf (m.replica .instances) m.instanceOptions service.id).2
  let seen := Services.visible (m.replica .services) (m.replica .namespaces) name.namespaceName
  ("instances:" ++ own.text) :: seen.map servicePart

theorem discoveryRevision_eq (m : Manager) (name : QualifiedName) :
    (m.discoveryRevision name).2 = (Services.named? (m.replica .services) name).2.map
      fun service => .compose (m.discoveryParts name service) := by
  unfold discoveryRevision read
  rcases hr : Services.named? (m.replica .services) name with ⟨found, _ | service⟩
  · simp only [hr, Option.map_none]
  · have hseen := Services.visible_named? (m.replica .services) name (m.replica .namespaces)
      name.namespaceName
    rw [hr] at hseen
    simp only [hr, Option.map_some]
    unfold discoveryParts
    rw [← hseen]
    rfl

/-- The service that is found may differ in its time, and what is composed may come in another
order. -/
theorem discoveryRevision_alike {name : QualifiedName}
    (hnamed : (Services.named? (a.replica .services) name).2.map Record.timeless =
      (Services.named? (b.replica .services) name).2.map Record.timeless)
    (hparts : ∀ service, (a.discoveryParts name service).Perm (b.discoveryParts name service)) :
    (a.discoveryRevision name).2 = (b.discoveryRevision name).2 := by
  have hcomposed : (fun service => Revision.compose (a.discoveryParts name service)) =
      fun service => Revision.compose (b.discoveryParts name service) :=
    funext fun service => Revision.compose_perm (hparts service)
  -- only the key of the service goes into the parts
  have htimeless : ∀ found : Option Service,
      found.map (fun service => Revision.compose (b.discoveryParts name service)) =
        (found.map Record.timeless).map fun service =>
          Revision.compose (b.discoveryParts name service) := by
    intro found
    rw [Option.map_map]
    rfl
  rw [discoveryRevision_eq, discoveryRevision_eq, hcomposed, htimeless, hnamed, ← htimeless]

section

variable {m : Manager} {histories histories' : (k : CacheKind) → History k.Row}

theorem Recalls.tracked (h : m.Recalls histories) (k : CacheKind)
    {P : Std.ExtTreeMap String k.Row → k.Lookup → Prop} (ht : Index.Tracks P) :
    Live (m.replica k).entries ∧ P (m.replica k).entries (m.replica k).index := by
  rw [h.replica k]
  exact ht.run ..

theorem Recalls.reaches (h : m.Recalls histories) :
    ServiceIndex.Reaches [] (m.replica .services).entries (m.replica .services).index.byName := by
  rw [h.replica .services]
  exact Desk.Session.run_reaches _ _ _ _ _ h.namesApart

/-- Both managers tell the same revisions, whatever they are asked for. -/
structure SameRevisions (a b : Manager) : Prop where
  instances : ∀ serviceId,
    (Instances.revisionOf (a.replica .instances) a.instanceOptions serviceId).2 =
      (Instances.revisionOf (b.replica .instances) b.instanceOptions serviceId).2
  rules : ∀ kind service,
    (Rules.revisionOf (a.replica (.rules kind)) service).2 =
      (Rules.revisionOf (b.replica (.rules kind)) service).2
  visible : ∀ viewer,
    Services.visibleRevision (a.replica .services) (a.replica .namespaces) viewer =
      Services.visibleRevision (b.replica .services) (b.replica .namespaces) viewer
  discovery : ∀ name, (a.discoveryRevision name).2 = (b.discoveryRevision name).2

/-- A client that gives the current revision is told that nothing changed; every other client, and
that of the empty revision is one of them, is told the whole list. -/
structure AnswersByRevision (m : Manager) : Prop where
  instances : ∀ serviceId client : String,
    let i : Instances := m.replica .instances
    let current := (i.revisionOf m.instanceOptions serviceId).2
    current.text ≠ "" ∧ (i.discover m.instanceOptions serviceId client).2 =
      if client = current.text then .unchanged current
      else .changed current (i.ofService m.instanceOptions serviceId).2
  rules : ∀ (kind : RuleKind) (service : QualifiedName) (client : String),
    let r : Rules := m.replica (.rules kind)
    let current := (r.revisionOf service).2
    current.text ≠ "" ∧ (r.fetch service client).2 =
      if client = current.text then .unchanged current
      else .changed current (r.ofService service).2

theorem answersByRevision (m : Manager) : m.AnswersByRevision where
  instances _ _ := ⟨Revision.compose_text_ne _, Instances.discover_eq ..⟩
  rules _ _ _ := ⟨Revision.compose_text_ne _, Rules.fetch_eq ..⟩

/-- **Replicas agree.** Two managers with the same options whose caches hold the same records in the
end, apart from their times, tell the same revisions, however they came by the records. -/
theorem agree_on_revisions (ha : a.Recalls histories) (hb : b.Recalls histories')
    (hoptions : a.instanceOptions = b.instanceOptions)
    (halike : ∀ k, (a.replica k).HoldsAlike (b.replica k)) :
    a.SameRevisions b ∧ a.AnswersByRevision ∧ b.AnswersByRevision := by
  have hsees : ∀ viewer exporter,
      Namespaces.isVisible (a.replica .namespaces) viewer exporter =
        Namespaces.isVisible (b.replica .namespaces) viewer exporter := by
    obtain ⟨hl, h⟩ := ha.tracked .namespaces Exports.tracks
    obtain ⟨hl', h'⟩ := hb.tracked .namespaces Exports.tracks
    exact Namespaces.isVisible_alike hl h hl' h' (halike .namespaces)
  have hinstances : ∀ serviceId,
      (Instances.revisionOf (a.replica .instances) a.instanceOptions serviceId).2 =
        (Instances.revisionOf (b.replica .instances) b.instanceOptions serviceId).2 := by
    obtain ⟨hl, h⟩ := ha.tracked .instances InstanceIndex.tracks
    obtain ⟨hl', h'⟩ := hb.tracked .instances InstanceIndex.tracks
    rw [← hoptions]
    exact Instances.revisionOf_alike hl h hl' h' (halike .instances) _
  refine ⟨⟨hinstances, ?_, ?_, ?_⟩, a.answersByRevision, b.answersByRevision⟩
  · intro kind service
    obtain ⟨hl, h⟩ := ha.tracked (.rules kind) RuleIndex.tracks
    obtain ⟨hl', h'⟩ := hb.tracked (.rules kind) RuleIndex.tracks
    exact Rules.revisionOf_alike hl h hl' h' (halike (.rules kind)) service
  · exact fun viewer => Services.visibleRevision_alike (halike .services) (hsees viewer)
  · intro name
    obtain ⟨hl, -⟩ := ha.tracked .services ServiceIndex.tracks
    obtain ⟨hl', -⟩ := hb.tracked .services ServiceIndex.tracks
    refine discoveryRevision_alike ?_ fun service => ?_
    · exact Services.named?_alike hl ha.reaches hl' hb.reaches (halike .services) name
    · unfold discoveryParts
      rw [hinstances]
      exact (Services.visible_alike (halike .services) (hsees _) fun _ => rfl).cons _

end

/-- One manager pulls two services at once. Another one is cleared during its first pull, and then
pulls later versions one by one in the other order. Both tell the same of what a client of one of
the services discovers. -/
theorem split_pulls_agree :
    let one : Instant := ⟨1, 0, by decide, by decide, by decide⟩
    let two : Instant := ⟨2, 0, by decide, by decide, by decide⟩
    let service (id name : String) (modified : Instant) : Service :=
      { id, name, namespaceName := "shop", modified }
    let enter : Desk.Action Service := .enter ⟨"reader", false, false⟩
    let history (actions : List (Desk.Action Service)) : (k : CacheKind) → History k.Row
      | .services => ⟨.services, .seconds (-2), 4, .epoch, actions⟩
      | k => ⟨k, .seconds (-2), 4, .epoch, []⟩
    let manager (actions : List (Desk.Action Service)) : Manager :=
      { settings := {}
        roster := .builtin
        caches := .tabulate fun k => (history actions k).session.refresher }
    let atOnce : List (Desk.Action Service) :=
      [enter, .answer 0 (.ok [service "a" "cart" one, service "b" "till" one]), .poll 0]
    let split : List (Desk.Action Service) :=
      [enter, .answer 0 (.ok [service "b" "door" one]), .clear, .poll 0,
        enter, .answer 0 (.ok [service "b" "till" two]), .poll 0,
        enter, .answer 0 (.ok [service "a" "cart" two]), .poll 0]
    (manager atOnce).Recalls (history atOnce) ∧ (manager split).Recalls (history split) ∧
      (∀ k, ((manager atOnce).replica k).HoldsAlike ((manager split).replica k)) ∧
      ((manager atOnce).discoveryRevision ⟨"shop", "cart"⟩).2.isSome = true ∧
      ((manager atOnce).discoveryRevision ⟨"shop", "cart"⟩).2 =
        ((manager split).discoveryRevision ⟨"shop", "cart"⟩).2 := by
  intro one two service enter history manager atOnce split
  have hlist : Replica.list ((manager atOnce).replica .services) =
      [service "a" "cart" one, service "b" "till" one] := by
    cbv
  have hlist' : Replica.list ((manager split).replica .services) =
      [service "a" "cart" two, service "b" "till" two] := by
    cbv
  have hrecalls : ∀ actions : List (Desk.Action Service),
      ((history actions .services).session : Desk.Session Service ServiceIndex).NamesApart →
        (manager actions).Recalls (history actions) := by
    intro actions hapart
    refine ⟨fun k => ?_, hapart⟩
    show ((ByKind.tabulate fun k => (history actions k).session.refresher).get k).replica = _
    rw [ByKind.get_tabulate]
  have ha : (manager atOnce).Recalls (history atOnce) := by
    refine hrecalls atOnce (.of_names [[⟨"shop", "cart"⟩, ⟨"shop", "till"⟩]] ?_ (by decide))
    cbv
  have hb : (manager split).Recalls (history split) := by
    refine hrecalls split (.of_names [[⟨"shop", "cart"⟩, ⟨"shop", "till"⟩], [⟨"shop", "till"⟩]] ?_
      (by decide))
    cbv
  have hothers : ∀ k, k ≠ .services → history atOnce k = history split k := by
    rintro (_ | _ | _ | kind) hk
    · rfl
    · exact absurd rfl hk
    · rfl
    · rfl
  have halike : ∀ k, ((manager atOnce).replica k).HoldsAlike ((manager split).replica k) := by
    intro k
    by_cases hk : k = .services
    · subst hk
      refine .of_eq ?_
      show (Replica.list ((manager atOnce).replica .services)).map Record.timeless =
        (Replica.list ((manager split).replica .services)).map Record.timeless
      rw [hlist, hlist']
      rfl
    · rw [ha.replica k, hb.replica k, hothers k hk]
      exact .refl _
  have hnamed : (Services.named? ((manager atOnce).replica .services) ⟨"shop", "cart"⟩).2 =
      some (service "a" "cart" one) := by
    have hlive := (ha.tracked .services ServiceIndex.tracks).1
    refine (Services.named?_eq_some hlive ha.reaches).mpr ⟨?_, rfl⟩
    rw [hlist]
    exact List.mem_cons_self
  refine ⟨ha, hb, halike, ?_, ?_⟩
  · rw [discoveryRevision_eq, hnamed]
    rfl
  · exact (agree_on_revisions ha hb rfl halike).1.discovery _

end Manager

end GovernanceCache
