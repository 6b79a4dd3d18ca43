import GovernanceCache.OpenRequest
import GovernanceCache.Proofs.FilledForms
import GovernanceCache.Proofs.WrittenInstants
import GovernanceCache.Record.Instance
import GovernanceCache.Record.Namespace
import GovernanceCache.Record.Rule
import GovernanceCache.Record.Service
import GovernanceCache.Settings

/-!
# Records that are read back

Namespaces, services, instances, rules, requests and settings are read back from the documents that
they are written as, with or without the fields that are as in a new record (`documents_read_back`).

1. Each scalar and collection is read as it was written (`Reader`).
2. The entries of a record are its fields as they are written; the form of the record restores it
   from them, and takes the same values for absent fields as a new record has (`form_restores`).
3. The body of a rule and the options of a request may hold any document, and are read as they are.
-/

namespace GovernanceCache

/-! ## Scalars and collections -/

namespace Reader

theorem integer_eq_ok {n low high : Int} (name : String) (hlow : low ≤ n) (hhigh : n ≤ high) :
    integer name low high (.integer n) = .ok n := if_pos ⟨hlow, hhigh⟩

theorem word16_integer (n : UInt16) : word16 (.integer n.toNat) = .ok n := by
  have := n.toNat_lt
  unfold word16
  rw [integer_eq_ok _ (by omega) (by simp only [UInt16.size]; omega)]
  exact congrArg Except.ok UInt16.ofNat_toNat

theorem word32_integer (n : UInt32) : word32 (.integer n.toNat) = .ok n := by
  have := n.toNat_lt
  unfold word32
  rw [integer_eq_ok _ (by omega) (by simp only [UInt32.size]; omega)]
  exact congrArg Except.ok UInt32.ofNat_toNat

theorem word64_integer (name : String) (n : UInt64) : word64 name (.integer n.toNat) = .ok n := by
  have := n.toNat_lt
  unfold word64
  rw [integer_eq_ok _ (by omega) (by simp only [UInt64.size]; omega)]
  exact congrArg Except.ok UInt64.ofNat_toNat

theorem signed64_integer (n : Int64) : signed64 (.integer n.toInt) = .ok n := by
  unfold signed64
  rw [integer_eq_ok _ n.minValue_le_toInt n.toInt_le]
  exact congrArg Except.ok n.ofInt_toInt

theorem instant_text {t : Instant} (h : t.IsLegible) : instant (.text t.toText) = .ok t := by
  unfold instant
  dsimp only
  rw [Instant.ofText?_toText h]
  rfl

/-- A list is read item by item. -/
theorem mapM_eq_ok {α β : Type} (f : β → Except DocumentFault α) (g : α → β)
    (h : ∀ a, f (g a) = .ok a) (items : List α) : (items.map g).mapM f = .ok items := by
  induction items with
  | nil => rfl
  | cons a rest ih =>
    rw [List.map_cons, List.mapM_cons, h, ih]
    rfl

theorem textList_texts (values : List String) : textList (.texts values) = .ok values :=
  mapM_eq_ok text Document.text (fun _ => rfl) values

theorem textSet_texts (s : Std.ExtTreeSet String) : textSet (.texts s.toList) = .ok s := by
  unfold textSet
  rw [textList_texts]
  refine congrArg Except.ok (Std.ExtTreeSet.ext_mem fun k => ?_)
  rw [Std.ExtTreeSet.mem_ofList, List.contains_iff_mem, Std.ExtTreeSet.mem_toList]

theorem ofList_toList (m : Std.ExtTreeMap String String) : Std.ExtTreeMap.ofList m.toList = m := by
  refine Std.ExtTreeMap.ext_getElem? fun k => ?_
  rcases h : m[k]? with _ | v
  · refine Std.ExtTreeMap.getElem?_ofList_of_contains_eq_false ?_
    rw [Bool.eq_false_iff, Ne, List.contains_iff_mem, List.mem_map]
    rintro ⟨⟨_, v⟩, hmem, rfl⟩
    rw [Std.ExtTreeMap.mem_toList_iff_getElem?_eq_some.mp hmem] at h
    cases h
  · exact Std.ExtTreeMap.getElem?_ofList_of_mem Std.ReflCmp.compare_self
      Std.ExtTreeMap.distinct_keys_toList
      (Std.ExtTreeMap.mem_toList_iff_getElem?_eq_some.mpr h)

theorem textMap_textMap (m : Std.ExtTreeMap String String) :
    textMap (.textMap m.toList) = .ok m := by
  show (List.mapM _ (m.toList.map fun e => (e.1, Document.text e.2)) >>= fun read =>
    Except.ok (Std.ExtTreeMap.ofList read compare)) = .ok m
  rw [mapM_eq_ok]
  · exact congrArg Except.ok (ofList_toList m)
  · exact fun _ => rfl

theorem variant_name (kind : RuleKind) :
    variant (RuleKind.all.map fun kind => (kind.name, kind)) (.text kind.name) = .ok kind := by
  cases kind <;> rfl

end Reader

/-! ## The records -/

open Form (Entry Restores IsReadBack)

/-- The fields of a namespace; those may be left out that are as in a new namespace. -/
def Namespace.entries (r : Namespace) : List Entry :=
  let made : Namespace := { name := r.name }
  [⟨"name", .text r.name, False⟩, ⟨"comment", .text r.comment, r.comment = made.comment⟩,
    ⟨"owners", .texts r.owners.toList, r.owners = made.owners⟩,
    ⟨"service_export_to", .texts r.exports.toList, r.exports = made.exports⟩,
    ⟨"revision", .text r.revision, r.revision = made.revision⟩,
    ⟨"valid", .boolean r.valid, False⟩, ⟨"modify_time", .text r.modified.toText, False⟩]

theorem Namespace.form_restores {r : Namespace} (h : r.modified.IsLegible) :
    form.Restores r.entries r :=
  ((((((Restores.map mk (.required rfl)
    |>.seq (.optional rfl))
    |>.seq (.optional (Reader.textSet_texts r.owners)))
    |>.seq (.optional (Reader.textSet_texts r.exports)))
    |>.seq (.optional rfl))
    |>.seq (.required rfl))
    |>.seq (.required (Reader.instant_text h)))

/-- The fields of a service; those may be left out that are as in a new service. -/
def Service.entries (r : Service) : List Entry :=
  let made : Service := { id := r.id, name := r.name, namespaceName := r.namespaceName }
  [⟨"id", .text r.id, False⟩, ⟨"name", .text r.name, False⟩,
    ⟨"namespace", .text r.namespaceName, False⟩,
    ⟨"export_to", .texts r.exports.toList, r.exports = made.exports⟩,
    ⟨"metadata", .textMap r.metadata.toList, r.metadata = made.metadata⟩,
    ⟨"revision", .text r.revision, r.revision = made.revision⟩,
    ⟨"valid", .boolean r.valid, False⟩, ⟨"modify_time", .text r.modified.toText, False⟩]

theorem Service.form_restores {r : Service} (h : r.modified.IsLegible) :
    form.Restores r.entries r :=
  (((((((Restores.map mk (.required rfl)
    |>.seq (.required rfl))
    |>.seq (.required rfl))
    |>.seq (.optional (Reader.textSet_texts r.exports)))
    |>.seq (.optional (Reader.textMap_textMap r.metadata)))
    |>.seq (.optional rfl))
    |>.seq (.required rfl))
    |>.seq (.required (Reader.instant_text h)))

/-- The fields of an instance; those may be left out that are as in a new instance. -/
def Instance.entries (r : Instance) : List Entry :=
  let made : Instance :=
    { id := r.id, serviceId := r.serviceId, host := r.host, tcpPort := r.tcpPort }
  [⟨"id", .text r.id, False⟩, ⟨"service_id", .text r.serviceId, False⟩,
    ⟨"host", .text r.host, False⟩, ⟨"port", .integer r.tcpPort.toNat, False⟩,
    ⟨"weight", .integer r.weight.toNat, r.weight = made.weight⟩,
    ⟨"healthy", .boolean r.healthy, r.healthy = made.healthy⟩,
    ⟨"isolate", .boolean r.isolated, r.isolated = made.isolated⟩,
    ⟨"metadata", .textMap r.metadata.toList, r.metadata = made.metadata⟩,
    ⟨"revision", .text r.revision, r.revision = made.revision⟩,
    ⟨"valid", .boolean r.valid, False⟩, ⟨"modify_time", .text r.modified.toText, False⟩]

theorem Instance.form_restores {r : Instance} (h : r.modified.IsLegible) :
    form.Restores r.entries r :=
  ((((((((((Restores.map mk (.required rfl)
    |>.seq (.required rfl))
    |>.seq (.required rfl))
    |>.seq (.required (Reader.word16_integer r.tcpPort)))
    |>.seq (.optional (Reader.word32_integer r.weight)))
    |>.seq (.optional rfl))
    |>.seq (.optional rfl))
    |>.seq (.optional (Reader.textMap_textMap r.metadata)))
    |>.seq (.optional rfl))
    |>.seq (.required rfl))
    |>.seq (.required (Reader.instant_text h)))

/-- The fields of a rule; those may be left out that are as in a new rule. -/
def Rule.entries (r : Rule) : List Entry :=
  let made : Rule :=
    { id := r.id, kind := r.kind, namespaceName := r.namespaceName, service := r.service }
  [⟨"id", .text r.id, False⟩, ⟨"kind", .text r.kind.name, False⟩,
    ⟨"name", .text r.name, r.name = made.name⟩, ⟨"namespace", .text r.namespaceName, False⟩,
    ⟨"service", .text r.service, False⟩,
    ⟨"enable", .boolean r.enabled, r.enabled = made.enabled⟩,
    ⟨"body", r.body, r.body = made.body⟩,
    ⟨"revision", .text r.revision, r.revision = made.revision⟩,
    ⟨"valid", .boolean r.valid, False⟩, ⟨"modify_time", .text r.modified.toText, False⟩]

theorem Rule.form_restores {r : Rule} (h : r.modified.IsLegible) : form.Restores r.entries r :=
  (((((((((Restores.map mk (.required rfl)
    |>.seq (.required (Reader.variant_name r.kind)))
    |>.seq (.optional rfl))
    |>.seq (.required rfl))
    |>.seq (.required rfl))
    |>.seq (.optional rfl))
    |>.seq (.optional rfl))
    |>.seq (.optional rfl))
    |>.seq (.required rfl))
    |>.seq (.required (Reader.instant_text h)))

/-- The fields of a request; its options may be left out if it has none. -/
def OpenRequest.entries (request : OpenRequest) : List Entry :=
  let made : OpenRequest := { name := request.name }
  [⟨"name", .text request.name, False⟩,
    ⟨"options", .object request.options, request.options = made.options⟩]

theorem OpenRequest.form_restores (request : OpenRequest) :
    form.Restores request.entries request :=
  Restores.map mk (.required rfl) |>.seq (.optional rfl)

/-- The fields of settings; those may be left out that are as usual. -/
def Settings.entries (s : Settings) : List Entry :=
  let usual : Settings := {}
  [⟨"update_interval_ms", .integer s.updateInterval.toNat,
      s.updateInterval = usual.updateInterval⟩,
    ⟨"report_interval_ms", .integer s.reportInterval.toNat,
      s.reportInterval = usual.reportInterval⟩,
    ⟨"mtime_skew_secs", .integer s.skewSeconds.toInt, s.skewSeconds = usual.skewSeconds⟩,
    ⟨"warmup_timeout_ms", .integer s.warmUpTimeout.toNat, s.warmUpTimeout = usual.warmUpTimeout⟩,
    ⟨"event_buffer", .integer s.eventBuffer.toNat, s.eventBuffer = usual.eventBuffer⟩]

theorem Settings.form_restores (s : Settings) : form.Restores s.entries s :=
  ((((Restores.map mk (.optional (Reader.word64_integer _ s.updateInterval))
    |>.seq (.optional (Reader.word64_integer _ s.reportInterval)))
    |>.seq (.optional (Reader.signed64_integer s.skewSeconds)))
    |>.seq (.optional (Reader.word64_integer _ s.warmUpTimeout)))
    |>.seq (.optional (Reader.word64_integer _ s.eventBuffer)))

/-! ## Reading back -/

/-- The values that are written as documents are read back from them. -/
structure ReadsBack : Prop where
  namespaces : ∀ r : Namespace, r.modified.IsLegible →
    IsReadBack Namespace.ofDocument? r.toDocument r.entries r
  services : ∀ r : Service, r.modified.IsLegible →
    IsReadBack Service.ofDocument? r.toDocument r.entries r
  instances : ∀ r : Instance, r.modified.IsLegible →
    IsReadBack Instance.ofDocument? r.toDocument r.entries r
  rules : ∀ r : Rule, r.modified.IsLegible →
    IsReadBack Rule.ofDocument? r.toDocument r.entries r
  requests : ∀ request : OpenRequest,
    IsReadBack OpenRequest.ofDocument? request.toDocument request.entries request
  settings : ∀ s : Settings, IsReadBack Settings.ofDocument? s.toDocument s.entries s
  /-- An instant is read back from its own text if it is legible, and only then. -/
  instants : ∀ t : Instant, Instant.ofText? t.toText = .ok t ↔ t.IsLegible
  /-- Every instant is legible that was read from a text. -/
  legible : ∀ text t, Instant.ofText? text = .ok t → t.IsLegible

theorem documents_read_back : ReadsBack where
  namespaces _ h := (Namespace.form_restores h).isReadBack (by decide) _
  services _ h := (Service.form_restores h).isReadBack (by decide) _
  instances _ h := (Instance.form_restores h).isReadBack (by decide) _
  rules _ h := (Rule.form_restores h).isReadBack (by decide) _
  requests request := request.form_restores.isReadBack (by decide) _
  settings s := s.form_restores.isReadBack (by decide) _
  instants := Instant.ofText?_toText_iff
  legible _ _ := Instant.legible_of_ofText?

/-- A rule from a leap second that is as new but for its body. -/
def leapRule : Rule :=
  { id := "r1", kind := .lane, namespaceName := "shop", service := "*",
    body := .object [("limit", .integer 5)],
    modified := ⟨59, 1500000000, by decide, by decide, by decide⟩ }

theorem leapRule_read_back :
    leapRule.modified.IsLegible ∧ Rule.ofDocument? leapRule.toDocument = .ok leapRule ∧
      Rule.ofDocument? (leapRule.toDocument.without ["name", "enable", "revision"]) =
        .ok leapRule := by
  have hlegible : leapRule.modified.IsLegible := by decide
  have hdocument := documents_read_back.rules leapRule hlegible
  have hwhole := hdocument [] (by simp)
  rw [Document.without_nil] at hwhole
  refine ⟨hlegible, hwhole, hdocument _ ?_⟩
  simp [Rule.entries, leapRule]

end GovernanceCache
