import GovernanceCache.Proofs.BatchOutcome
import GovernanceCache.Proofs.Visibility

/-!
# Queries find everything once

A query answers with a page of the records that it wants, in order. The pages at the offsets 0,
`limit`, `2 * limit` and so on make up all of these records, and none of them comes twice.

1. Pages of one list, cut one after another, make up the list (`Page.flatMap_slice`).
2. A query for the services of a namespace reads only those that the index leads to. It finds what
   it would find among all services (`Services.found_perm`), and in the same order if no two
   services share a name (`Services.found_eq`).
-/

namespace GovernanceCache

/-! ## Filters -/

/-- A pattern is passed by the name that it is, and if it ends in a star by every name that goes on
where the star stands. -/
def Passes (pattern name : String) : Prop :=
  name = pattern ∨ ∃ start rest, pattern = start ++ "*" ∧ name = start ++ rest

theorem matchesPattern_iff {pattern name : String} :
    matchesPattern pattern name = true ↔ Passes pattern name := by
  unfold matchesPattern Passes
  split
  · rename_i hlast
    obtain ⟨start, hstart⟩ := List.getLast?_eq_some_iff.mp hlast
    rw [hstart, List.dropLast_concat, List.isPrefixOf_iff_prefix]
    constructor
    · rintro ⟨rest, hrest⟩
      refine Or.inr ⟨.ofList start, .ofList rest, ?_, ?_⟩
      · rw [← String.toList_inj, String.toList_append, String.toList_ofList]
        exact hstart
      · rw [← String.toList_inj, String.toList_append, String.toList_ofList, String.toList_ofList]
        exact hrest.symm
    · rintro (rfl | ⟨start', rest, rfl, rfl⟩)
      · rw [hstart]
        exact List.prefix_append _ _
      · rw [String.toList_append] at hstart ⊢
        rw [(List.append_inj_left' hstart rfl).symm]
        exact List.prefix_append _ _
  · rename_i hlast
    rw [beq_iff_eq]
    constructor
    · exact fun h => Or.inl h.symm
    · rintro (rfl | ⟨start, rest, rfl, -⟩)
      · rfl
      · refine absurd ?_ hlast
        rw [String.toList_append]
        exact List.getLast?_concat

/-- What a query for namespaces wants. -/
structure NamespaceQuery.Wants (q : NamespaceQuery) (r : Namespace) : Prop where
  name : ∀ pattern ∈ q.name, Passes pattern r.name
  owner : ∀ owner ∈ q.owner, owner ∈ r.owners

theorem NamespaceQuery.accepts_iff {q : NamespaceQuery} {r : Namespace} :
    q.accepts r = true ↔ q.Wants r := by
  unfold accepts
  rw [Bool.and_eq_true, Option.all_eq_true, Option.all_eq_true]
  simp only [matchesPattern_iff, Std.ExtTreeSet.contains_iff_mem]
  exact ⟨fun ⟨hname, howner⟩ => ⟨hname, howner⟩, fun ⟨hname, howner⟩ => ⟨hname, howner⟩⟩

instance (q : NamespaceQuery) : DecidablePred q.Wants :=
  fun _ => decidable_of_iff _ NamespaceQuery.accepts_iff

/-- What a query for services wants. -/
structure ServiceQuery.Wants (q : ServiceQuery) (r : Service) : Prop where
  namespaceName : ∀ namespaceName ∈ q.namespaceName, r.namespaceName = namespaceName
  name : ∀ pattern ∈ q.name, Passes pattern r.name

/-- A service passes the filters of a query. -/
def ServiceQuery.accepts (q : ServiceQuery) (r : Service) : Bool :=
  q.namespaceName.all (fun namespaceName => r.namespaceName == namespaceName) &&
    q.name.all (fun pattern => matchesPattern pattern r.name)

theorem ServiceQuery.accepts_iff {q : ServiceQuery} {r : Service} :
    q.accepts r = true ↔ q.Wants r := by
  unfold accepts
  rw [Bool.and_eq_true, Option.all_eq_true, Option.all_eq_true]
  simp only [matchesPattern_iff, beq_iff_eq]
  exact ⟨fun ⟨hspace, hname⟩ => ⟨hspace, hname⟩, fun ⟨hspace, hname⟩ => ⟨hspace, hname⟩⟩

instance (q : ServiceQuery) : DecidablePred q.Wants :=
  fun _ => decidable_of_iff _ ServiceQuery.accepts_iff

theorem filter_eq_of_iff {α : Type} {p : α → Bool} {P : α → Prop} [DecidablePred P]
    (h : ∀ {a}, p a = true ↔ P a) (l : List α) : l.filter p = l.filter (P ·) :=
  List.filter_congr fun _ _ => Bool.eq_iff_iff.mpr (h.trans decide_eq_true_iff.symm)

/-! ## Pages -/

section

variable {α : Type} {answer : Nat → Nat → Except Fault (Page α)} {found wanted : List α}
  {precedes : α → α → Prop} {limit : Nat}

theorem checkLimit_of_le (h : 1 ≤ limit) (h' : limit ≤ maxQueryLimit) : checkLimit limit = .ok () :=
  if_neg (by omega)

/-- Pages that are cut one after another make up the list, as far as they go. -/
theorem Page.flatMap_slice (found : List α) (limit count : Nat) :
    (List.range count).flatMap (fun i => (Page.slice found (i * limit) limit).items) =
      found.take (count * limit) := by
  induction count with
  | zero => rw [Nat.zero_mul, List.take_zero]; rfl
  | succ count ih =>
    rw [List.range_succ, List.flatMap_append, ih, Nat.succ_mul, List.take_add]
    exact congrArg _ (List.flatMap_singleton _ _)

/-- The first pages, read one after another. -/
def readPages (answer : Nat → Except Fault (Page α)) (limit count : Nat) :
    Except Fault (List (Page α)) :=
  (List.range count).mapM fun i => answer (i * limit)

theorem readPages_of_slice {answer : Nat → Except Fault (Page α)}
    (h : ∀ offset, answer offset = .ok (.slice found offset limit)) (count : Nat) :
    ∃ pages, readPages answer limit count = .ok pages ∧
      pages.flatMap Page.items = found.take (count * limit) := by
  refine ⟨(List.range count).map fun i => .slice found (i * limit) limit, ?_, ?_⟩
  · unfold readPages
    simp only [h]
    exact List.mapM_pure
  · rw [List.flatMap_map]
    exact Page.flatMap_slice found limit count

/-- A query, for whatever limit and offset, is answered with a page of what it wants, in order. -/
structure Answered (answer : Nat → Nat → Except Fault (Page α)) (wanted : List α)
    (precedes : α → α → Prop) : Prop where
  /-- Limits that are out of bounds are refused. -/
  refused : ∀ limit offset, limit < 1 ∨ 100 < limit → answer limit offset =
    .error (.invalidArgument ("limit must be between 1 and 100, got " ++ toString limit))
  /-- All answers are pages of one list, which the pages that are read in turn make up. -/
  paged : ∃ found, found.Perm wanted ∧ found.Pairwise precedes ∧
    ∀ limit, 1 ≤ limit → limit ≤ 100 →
      (∀ offset, answer limit offset = .ok ⟨wanted.length, (found.drop offset).take limit⟩) ∧
      ∀ count, wanted.length ≤ count * limit → ∃ pages,
        readPages (answer limit) limit count = .ok pages ∧ pages.flatMap Page.items = found

theorem Answered.of_slice (hperm : found.Perm wanted) (hordered : found.Pairwise precedes)
    (h : ∀ limit offset, answer limit offset =
      (checkLimit limit).map fun _ => .slice found offset limit) :
    Answered answer wanted precedes := by
  constructor
  · intro limit offset hlimit
    rw [h]
    have hcheck : checkLimit limit =
        .error (.invalidArgument ("limit must be between 1 and 100, got " ++ toString limit)) :=
      if_pos (hlimit.imp_left (by omega))
    rw [hcheck]
    rfl
  · refine ⟨found, hperm, hordered, ?_⟩
    intro limit hpos hmax
    have hslice : ∀ offset, answer limit offset = .ok (.slice found offset limit) := by
      intro offset
      rw [h, checkLimit_of_le hpos hmax]
      rfl
    rw [← hperm.length_eq]
    refine ⟨hslice, ?_⟩
    intro count hcount
    obtain ⟨pages, hpages, hitems⟩ := readPages_of_slice hslice count
    exact ⟨pages, hpages, by rw [hitems, List.take_of_length_le hcount]⟩

end

/-! ## Namespaces -/

namespace Namespaces

variable {m : Namespaces} {a b c : Namespace}

theorem before_iff : before a b = true ↔
    b.modified < a.modified ∨ a.modified = b.modified ∧ a.name ≤ b.name := by
  simp [before]

theorem before_trans (a b c : Namespace) (hab : before a b = true) (hbc : before b c = true) :
    before a c = true := by
  rw [before_iff] at hab hbc ⊢
  exact Instant.thenName_trans (fun s t => t < s) (fun h h' => Instant.lt_trans h' h) hab hbc

theorem before_total (a b : Namespace) : (before a b || before b a) = true := by
  rw [Bool.or_eq_true, before_iff, before_iff]
  refine Instant.thenName_total (fun s t => t < s) (fun s t => ?_) _ _ _ _
  rw [@eq_comm _ s]
  exact Instant.lt_trichotomy t s

/-- Newer namespaces come first, and equally new ones by name. -/
def Precedes (a b : Namespace) : Prop :=
  b.modified < a.modified ∨ a.modified = b.modified ∧ a.name < b.name

theorem found_perm (m : Namespaces) (q : NamespaceQuery) :
    (m.found q).Perm (m.list.filter (q.Wants ·)) := by
  rw [← filter_eq_of_iff NamespaceQuery.accepts_iff]
  exact List.mergeSort_perm _ _

/-- No two namespaces share a name, so that the order leaves none undecided. -/
theorem found_ordered (hk : Keyed m.entries) (q : NamespaceQuery) :
    (m.found q).Pairwise Precedes := by
  have hnames : (m.found q).Pairwise fun a b => a.name ≠ b.name :=
    ((m.found_perm q).pairwise_iff fun h => h.symm).mpr (hk.values_distinct.filter _)
  refine ((List.pairwise_mergeSort before_trans before_total _).and hnames).imp ?_
  rintro a b ⟨hbefore, hne⟩
  exact (before_iff.mp hbefore).imp_right fun ⟨heq, hle⟩ => ⟨heq, lt_of_le_of_ne hle hne⟩

theorem query_eq (m : Namespaces) (q : NamespaceQuery) :
    m.query q = (checkLimit q.limit).map fun _ => .slice (m.found q) q.offset q.limit := by
  unfold query
  rcases checkLimit q.limit <;> rfl

/-- Every query for namespaces is answered from the namespaces that are held. -/
structure AnswersQueries (m : Namespaces) : Prop where
  live : ∀ r ∈ m.list, r.valid = true
  answered : ∀ q : NamespaceQuery, Answered (fun limit offset => m.query { q with limit, offset })
    (m.list.filter (q.Wants ·)) Precedes

theorem answersQueries (hl : Live m.entries) : m.AnswersQueries where
  live _ hr := hl.of_mem hr
  answered q := .of_slice (m.found_perm q) (found_ordered hl.keyed q) fun limit offset =>
    m.query_eq { q with limit, offset }

end Namespaces

/-! ## Services -/

theorem Replica.getAll_keeps {R ι : Type} (m : Replica R ι) (keys : List String) :
    ∃ tally, (m.getAll keys).1 = { m with tally } := by
  unfold getAll
  generalize ([] : List R) = found
  induction keys generalizing m found with
  | nil => exact ⟨m.tally, rfl⟩
  | cons key rest ih => exact ih (m.get key).1 _

namespace Services

variable {m : Services} {a b : Service} {services services' : List Service}

theorem qualifiedName_eq_of_before (hab : before a b = true) (hba : before b a = true) :
    a.qualifiedName = b.qualifiedName :=
  Std.LawfulEqCmp.eq_of_compare (Std.OrientedCmp.isLE_antisymm hab hba)

/-- Services that do not share names have one order. -/
theorem eq_of_ordered (h : services.Perm services')
    (hnames : (services'.map Service.qualifiedName).Nodup)
    (ho : services.Pairwise fun a b => before a b = true)
    (ho' : services'.Pairwise fun a b => before a b = true) : services = services' := by
  refine h.eq_of_pairwise ?_ ho ho'
  intro a b ha hb hab hba
  exact List.inj_on_of_nodup_map hnames (h.mem_iff.mp ha) hb (qualifiedName_eq_of_before hab hba)

theorem sort_before (services : List Service) :
    (sort services).Pairwise fun a b => before a b = true :=
  (sort_ordered services).imp before_iff.mpr

/-- The index leads to the services of a namespace. -/
theorem ofNamespace_perm (hl : Live m.entries)
    (h : m.index.byNamespace.Sorts Service.namespaceName m.entries) (namespaceName : String) :
    (m.ofNamespace namespaceName).2.Perm
      (m.list.filter fun r => r.namespaceName == namespaceName) := by
  refine (List.mergeSort_perm _ before).trans ?_
  refine Replica.getAll_filter_perm hl.keyed (Buckets.members_ordered _ _) ?_
  exact fun r hr hname => (h.mem_members hl hr).mpr (beq_iff_eq.mp hname)

theorem found_perm (hl : Live m.entries)
    (h : m.index.byNamespace.Sorts Service.namespaceName m.entries) (q : ServiceQuery) :
    (m.found q).2.Perm (m.list.filter (q.Wants ·)) := by
  rw [← filter_eq_of_iff ServiceQuery.accepts_iff]
  obtain ⟨_ | namespaceName, name, offset, limit⟩ := q
  · exact List.mergeSort_perm _ before
  · refine (List.mergeSort_perm _ before).trans ?_
    refine ((ofNamespace_perm hl h namespaceName).filter _).trans (.of_eq ?_)
    rw [List.filter_filter]
    exact List.filter_congr fun r _ => Bool.and_comm _ _

theorem found_eq (hl : Live m.entries)
    (h : m.index.byNamespace.Sorts Service.namespaceName m.entries)
    (hnames : (m.list.map Service.qualifiedName).Nodup) (q : ServiceQuery) :
    (m.found q).2 = m.all.filter (q.Wants ·) := by
  have hall : m.all.Perm m.list := List.mergeSort_perm _ _
  have hperm : (m.found q).2.Perm (m.all.filter (q.Wants ·)) :=
    (found_perm hl h q).trans (hall.filter _).symm
  refine eq_of_ordered hperm ?_ (sort_before _) ((sort_before _).filter _)
  exact (((hall.map _).nodup_iff).mpr hnames).sublist (List.filter_sublist.map _)

theorem query_keeps (m : Services) (q : ServiceQuery) :
    ∃ tally, (m.query q).1 = { m with tally } := by
  unfold query
  split
  · exact ⟨m.tally, rfl⟩
  · unfold found
    rcases q.namespaceName with _ | namespaceName
    · exact ⟨m.tally, rfl⟩
    · exact m.getAll_keeps _

theorem query_eq (m : Services) (q : ServiceQuery) :
    (m.query q).2 = (checkLimit q.limit).map fun _ => .slice (m.found q).2 q.offset q.limit := by
  unfold query
  rcases checkLimit q.limit <;> rfl

/-- Every query for services is answered from the services that are held. -/
structure AnswersQueries (m : Services) : Prop where
  live : ∀ r ∈ m.list, r.valid = true
  answered : ∀ q : ServiceQuery, Answered (fun limit offset => (m.query { q with limit, offset }).2)
    (m.list.filter (q.Wants ·)) fun a b =>
      a.namespaceName < b.namespaceName ∨ a.namespaceName = b.namespaceName ∧ a.name ≤ b.name
  /-- If no two services share a name, the answer is a page of what a scan of all services in order
  would find, whether or not the query names a namespace. -/
  scanned : (m.list.map Service.qualifiedName).Nodup → ∀ q : ServiceQuery,
    1 ≤ q.limit → q.limit ≤ 100 →
      (m.query q).2 = .ok (.slice (m.all.filter (q.Wants ·)) q.offset q.limit)
  /-- A query is only counted. -/
  kept : ∀ q, ∃ tally, (m.query q).1 = { m with tally }

theorem answersQueries (hl : Live m.entries)
    (h : m.index.byNamespace.Sorts Service.namespaceName m.entries) : m.AnswersQueries where
  live _ hr := hl.of_mem hr
  answered q := .of_slice (found_perm hl h q) (sort_ordered _) fun limit offset =>
    m.query_eq { q with limit, offset }
  scanned hnames q hpos hmax := by
    rw [query_eq, checkLimit_of_le hpos hmax, found_eq hl h hnames]
    rfl
  kept := m.query_keeps

end Services

/-- **Queries.** In whatever states two sessions leave the namespaces and the services, every query
is answered with a page of the records that it wants, and its pages make up all of them. -/
theorem Desk.Session.run_queries (kind kind' : CacheKind) (skew skew' : Span)
    (buffer buffer' : Nat) (now now' : Instant) (actions : List (Desk.Action Namespace))
    (actions' : List (Desk.Action Service)) :
    let namespaces : Namespaces := ((Desk.Session.start kind skew buffer now :
      Desk.Session Namespace Exports).run actions).refresher.replica
    let services : Services := ((Desk.Session.start kind' skew' buffer' now' :
      Desk.Session Service ServiceIndex).run actions').refresher.replica
    namespaces.AnswersQueries ∧ services.AnswersQueries := by
  obtain ⟨hl, -⟩ := Exports.tracks.run kind skew buffer now actions
  obtain ⟨hl', h'⟩ := ServiceIndex.tracks.run kind' skew' buffer' now' actions'
  exact ⟨Namespaces.answersQueries hl, Services.answersQueries hl' h'.sorts⟩

/-- Of three services of one namespace two pass the pattern, and the second page has the second one
of them by name. -/
theorem Desk.Session.second_page_found :
    let service (id name namespaceName : String) : Service := { id, name, namespaceName }
    let actions : List (Desk.Action Service) :=
      [.enter ⟨"reader", false, false⟩,
        .answer 0 (.ok [service "a" "cart" "shop", service "b" "till" "shop",
          service "c" "card" "shop", service "d" "card" "bank"]), .poll 0]
    let m : Services := ((Desk.Session.start .services (.seconds (-2)) 4 .epoch :
      Desk.Session Service ServiceIndex).run actions).refresher.replica
    (m.query { namespaceName := some "shop", name := some "ca*", offset := 1, limit := 1 }).2 =
      .ok ⟨2, [service "a" "cart" "shop"]⟩ := by
  intro service actions m
  have hlist : m.list = [service "a" "cart" "shop", service "b" "till" "shop",
      service "c" "card" "shop", service "d" "card" "bank"] := by
    cbv
  have h := (Desk.Session.run_queries .namespaces .services (.seconds (-2)) (.seconds (-2)) 4 4
    .epoch .epoch [] actions).2
  have hnames : (m.list.map Service.qualifiedName).Nodup := by
    rw [hlist]
    decide
  rw [h.scanned hnames _ (by decide) (by decide)]
  unfold Services.all
  rw [hlist]
  cbv

end GovernanceCache
