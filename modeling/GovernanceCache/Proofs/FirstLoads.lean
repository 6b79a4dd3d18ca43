import GovernanceCache.Proofs.WorldCourse

/-!
# First loads

A start loads all of its kinds at once. Each load is concluded once: it ends with a result, or is
dropped when it is late. The start waits on as long as one of them is not.

1. `Loads` says what a round of first loads does and tells, when they begin (`beginWarmUps_loads`)
   and when they are polled (`pollWarmUps_loads`).
2. How the loads stand is what the log tells of them (`Stands`), and a round keeps this
   (`Loads.advance`).
3. The results of a start are what its loads were concluded with (`Stands.results`).
-/

namespace GovernanceCache.World

variable {w : World} {task deadline : Nat} {k : CacheKind} {kinds : List CacheKind}
  {log told : List Occurrence} {e : Occurrence} {warmUps : WarmUps}

/-! ## What the log tells of a load -/

/-- The first load of a kind has ended with the result, or was dropped, which counts as a fault. -/
def Concluded (log : List Occurrence) (task : Nat) (k : CacheKind) (result : Outcome) : Prop :=
  .loaded task k result ∈ log ∨
    (result = .error (warmUpTimeout k) ∧ ∃ moment, .late task k moment ∈ log)

/-- The first load of a kind runs: it belongs to a start that has not ended, and was not
concluded. -/
structure Pending (log : List Occurrence) (task : Nat) (k : CacheKind) : Prop where
  begun : ∃ kinds called, .warming task kinds called ∈ log ∧ k ∈ kinds
  unclosed : ∀ e ∈ log, ¬ Closes task k e
  unended : ∀ reply, .ended task reply ∉ log

/-- How first loads stand: each with its result, if it has ended. -/
abbrev Standing : Type := List (CacheKind × Option Outcome)

/-- The result of a first load, if it has ended. -/
def resultOf? {k : CacheKind} : WarmUp k → Option Outcome
  | .loading _ => none
  | .ended result => some result

/-- How first loads stand. -/
def standing (warmUps : WarmUps) : Standing := warmUps.map fun u => (u.1, resultOf? u.2)

/-- First loads stand as the log tells. -/
def Stands (log : List Occurrence) (task : Nat) (loads : Standing) : Prop :=
  ∀ load ∈ loads, match load.2 with
    | none => ∀ e ∈ log, ¬ Closes task load.1 e
    | some result => Concluded log task load.1 result

theorem kinds_standing (warmUps : WarmUps) : (standing warmUps).map Prod.fst = kindsOf warmUps := by
  unfold standing kindsOf
  rw [List.map_map]
  rfl

theorem Closes.kind_eq {l : CacheKind} (h : Closes task k e) (h' : Closes task l e) : l = k := by
  rcases h with ⟨_, rfl⟩ | ⟨_, rfl⟩ <;> rcases h' with ⟨_, heq⟩ | ⟨_, heq⟩ <;> cases heq <;> rfl

theorem Concluded.append {result : Outcome} (h : Concluded log task k result)
    (told : List Occurrence) : Concluded (told ++ log) task k result := by
  rcases h with h | ⟨heq, moment, h⟩
  · exact Or.inl (List.mem_append_right _ h)
  · exact Or.inr ⟨heq, moment, List.mem_append_right _ h⟩

/-! ## Rounds of loads -/

/-- What a round of first loads can do and tell. -/
inductive Loads (task deadline : Nat) : Standing → List Occurrence → Standing → Prop where
  | nil : Loads task deadline [] [] []
  /-- Nothing happens to a load. -/
  | stay (load : CacheKind × Option Outcome) {loads loads' : Standing} {told : List Occurrence}
    (h : Loads task deadline loads told loads') :
    Loads task deadline (load :: loads) told (load :: loads')
  | loaded (k : CacheKind) (result : Outcome) {loads loads' : Standing} {told : List Occurrence}
    (h : Loads task deadline loads told loads') :
    Loads task deadline ((k, none) :: loads) (told ++ [.loaded task k result])
      ((k, some result) :: loads')
  | late (k : CacheKind) (moment : Nat) (hlate : deadline ≤ moment) {loads loads' : Standing}
    {told : List Occurrence} (h : Loads task deadline loads told loads') :
    Loads task deadline ((k, none) :: loads) (told ++ [.late task k moment])
      ((k, some (.error (warmUpTimeout k))) :: loads')

/-- The load of a kind goes on once its caller stands so. -/
theorem Loads.expire {loads loads' : Standing} (h : Loads task deadline loads told loads')
    (w w' : World) (hn : w'.now = w.now) (k : CacheKind) (next : Refreshing k ⊕ Refreshed) :
    Loads task deadline ((k, none) :: loads) (told ++ w.tellLoad task deadline k next)
      ((k, resultOf? (w'.expire k deadline (warmUpOf next)).2) :: loads') := by
  cases next with
  | inl r =>
    simp only [tellLoad, warmUpOf, World.expire, hn]
    split
    · exact .late k w.now ‹_› h
    · rw [List.append_nil]
      exact .stay (k, none) h
  | inr refreshed => exact .loaded k refreshed.result h

theorem beginWarmUps_loads (w : World) (task deadline : Nat) (kinds : List CacheKind) :
    Loads task deadline (kinds.map fun k => (k, none)) (w.tellBegun task deadline kinds)
      (standing (w.beginWarmUps deadline kinds).2) := by
  induction kinds generalizing w with
  | nil => exact .nil
  | cons k rest ih =>
    exact (ih _).expire w (w.beginRefreshing k true).1 (beginRefreshing_touches w k true).now k _

/-- A load that runs is polled and then dropped if it is late. -/
theorem pollWarmUp_loading (w : World) (k : CacheKind) (deadline : Nat) (r : Refreshing k) :
    (w.pollWarmUp k deadline (.loading r)).2.1 = ((w.pollRefreshing k r).1.expire k deadline
      (warmUpOf ((w.pollRefreshing k r).2.getD (.inl r)))).2 := by
  unfold pollWarmUp
  rcases hp : w.pollRefreshing k r with ⟨w₁, _ | next⟩ <;> simp only [hp] <;> rfl

theorem pollWarmUps_loads (w : World) (task deadline : Nat) (warmUps : WarmUps) :
    Loads task deadline (standing warmUps) (w.tellPolled task deadline warmUps)
      (standing (w.pollWarmUps deadline warmUps).2.1) := by
  induction warmUps generalizing w with
  | nil => exact .nil
  | cons warmUp rest ih =>
    rcases warmUp with ⟨k, r | result⟩
    · have hpoll := (ih (w.pollWarmUp k deadline (.loading r)).1).expire w (w.pollRefreshing k r).1
        (pollRefreshing_touches w k r).now k ((w.pollRefreshing k r).2.getD (.inl r))
      rw [← pollWarmUp_loading] at hpoll
      exact hpoll
    · exact .stay (k, some result) (ih _)

namespace Loads

variable {loads loads' : Standing}

theorem kinds_eq (h : Loads task deadline loads told loads') :
    loads'.map Prod.fst = loads.map Prod.fst := by
  induction h with
  | nil => rfl
  | stay load _ ih => exact congrArg (load.1 :: ·) ih
  | loaded k _ _ ih => exact congrArg (k :: ·) ih
  | late k _ _ _ ih => exact congrArg (k :: ·) ih

/-- A round tells of loads that it concludes, and of nothing else. -/
theorem closes (h : Loads task deadline loads told loads') (he : e ∈ told) :
    ∃ k ∈ loads.map Prod.fst, Closes task k e := by
  induction h with
  | nil => cases he
  | stay _ _ ih =>
    obtain ⟨k, hk, hc⟩ := ih he
    exact ⟨k, List.mem_cons_of_mem _ hk, hc⟩
  | loaded k result _ ih =>
    rcases List.mem_append.mp he with he | he
    · obtain ⟨l, hl, hc⟩ := ih he
      exact ⟨l, List.mem_cons_of_mem _ hl, hc⟩
    · exact ⟨k, List.mem_cons_self, Or.inl ⟨result, List.mem_singleton.mp he⟩⟩
  | late k moment _ _ ih =>
    rcases List.mem_append.mp he with he | he
    · obtain ⟨l, hl, hc⟩ := ih he
      exact ⟨l, List.mem_cons_of_mem _ hl, hc⟩
    · exact ⟨k, List.mem_cons_self, Or.inr ⟨moment, List.mem_singleton.mp he⟩⟩

end Loads

/-! ## What a round keeps -/

/-- What may be told of first loads: one that runs is concluded, and is late once the limit is
over. -/
def LoadLaw (limit : Nat) (earlier : List Occurrence) : Occurrence → Prop
  | .loaded task k _ => Pending earlier task k
  | .late task k moment => Pending earlier task k ∧
    ∀ kinds called, .warming task kinds called ∈ earlier → called + limit ≤ moment
  | _ => True

theorem Stands.append {loads : Standing} (h : Stands log task loads)
    (ht : ∀ e ∈ told, ∀ k ∈ loads.map Prod.fst, ¬ Closes task k e) :
    Stands (told ++ log) task loads := by
  rintro ⟨k, _ | result⟩ hload
  · intro e he
    rcases List.mem_append.mp he with he | he
    · exact ht e he k (List.mem_map_of_mem hload)
    · exact h _ hload e he
  · exact Concluded.append (h _ hload) told

/-- The loads of a start are underway: they are its own, in the time that it gave them. -/
structure Underway (law : List Occurrence → Occurrence → Prop) (limit deadline : Nat)
    (log : List Occurrence) (task : Nat) (loads : Standing) : Prop where
  nodup : (loads.map Prod.fst).Nodup
  begun : ∀ k ∈ loads.map Prod.fst, ∃ kinds called, .warming task kinds called ∈ log ∧ k ∈ kinds
  timed : ∀ kinds called, .warming task kinds called ∈ log → called + limit = deadline
  unended : ∀ reply, .ended task reply ∉ log
  stands : Stands log task loads
  lawful : Chronicle law log

namespace Underway

variable {law : List Occurrence → Occurrence → Prop} {limit : Nat} {loads loads' : Standing}
  {load : CacheKind × Option Outcome}

theorem tail (h : Underway law limit deadline log task (load :: loads)) :
    Underway law limit deadline log task loads :=
  { h with
    nodup := (List.nodup_cons.mp h.nodup).2
    begun := fun k hk => h.begun k (List.mem_cons_of_mem _ hk)
    stands := fun l hl => h.stands l (List.mem_cons_of_mem _ hl) }

/-- A load that runs is concluded. -/
theorem close (h : Underway law limit deadline log task ((k, none) :: loads))
    (hc : Closes task k e) (hlaw : law log e) :
    Underway law limit deadline (e :: log) task loads := by
  have htask := task_of_closes hc
  refine ⟨h.tail.nodup, ?_, ?_, ?_, ?_, hlaw, h.lawful⟩
  · intro l hl
    obtain ⟨kinds, called, hw, hmem⟩ := h.tail.begun l hl
    exact ⟨kinds, called, List.mem_cons_of_mem _ hw, hmem⟩
  · intro kinds called hw
    rcases List.mem_cons.mp hw with rfl | hw
    · rcases hc with ⟨_, heq⟩ | ⟨_, heq⟩ <;> cases heq
    · exact h.timed kinds called hw
  · intro reply he
    rcases List.mem_cons.mp he with rfl | he
    · rcases hc with ⟨_, heq⟩ | ⟨_, heq⟩ <;> cases heq
    · exact h.unended reply he
  · refine @Stands.append task log [e] loads h.tail.stands ?_
    intro e' he l hl hcl
    rw [List.mem_singleton.mp he] at hcl
    have hne := (List.nodup_cons.mp h.nodup).1
    exact hne (hc.kind_eq hcl ▸ hl)

theorem pending (h : Underway law limit deadline log task ((k, none) :: loads)) :
    Pending log task k :=
  ⟨h.begun k List.mem_cons_self, h.stands _ List.mem_cons_self, h.unended⟩

end Underway

/-- A round keeps the law, and the loads stand as the log then tells. -/
theorem Loads.advance {law : List Occurrence → Occurrence → Prop} {limit : Nat}
    (hlaw : ∀ earlier k e, Closes task k e → LoadLaw limit earlier e → law earlier e)
    {loads loads' : Standing} (h : Loads task deadline loads told loads')
    (hu : Underway law limit deadline log task loads) :
    Chronicle law (told ++ log) ∧ Stands (told ++ log) task loads' := by
  induction h generalizing log with
  | nil => exact ⟨hu.lawful, nofun⟩
  | @stay load loads loads' told hrest ih =>
    obtain ⟨hlog, hstands⟩ := ih hu.tail
    have hsame : Stands log task [load] := fun l hl =>
      hu.stands l (List.mem_singleton.mp hl ▸ List.mem_cons_self)
    have hhead : Stands (told ++ log) task [load] := by
      refine hsame.append ?_
      intro e he k hk hc
      obtain ⟨l, hl, hcl⟩ := hrest.closes he
      have hk : k = load.1 := List.mem_singleton.mp hk
      rw [hc.kind_eq hcl, hk] at hl
      exact (List.nodup_cons.mp hu.nodup).1 hl
    refine ⟨hlog, ?_⟩
    intro l hl
    rcases List.mem_cons.mp hl with rfl | hl
    · exact hhead _ List.mem_cons_self
    · exact hstands l hl
  | loaded k result hrest ih =>
    have hc : Closes task k (.loaded task k result) := Or.inl ⟨result, rfl⟩
    obtain ⟨hlog, hstands⟩ := ih (hu.close hc (hlaw log k _ hc hu.pending))
    rw [List.append_assoc, List.singleton_append]
    refine ⟨hlog, ?_⟩
    intro l hl
    rcases List.mem_cons.mp hl with rfl | hl
    · exact Or.inl (List.mem_append_right _ List.mem_cons_self)
    · exact hstands l hl
  | late k moment hlate hrest ih =>
    have hc : Closes task k (.late task k moment) := Or.inr ⟨moment, rfl⟩
    have hload : LoadLaw limit log (.late task k moment) := by
      refine ⟨hu.pending, ?_⟩
      intro kinds called hw
      rw [hu.timed kinds called hw]
      exact hlate
    obtain ⟨hlog, hstands⟩ := ih (hu.close hc (hlaw log k _ hc hload))
    rw [List.append_assoc, List.singleton_append]
    refine ⟨hlog, ?_⟩
    intro l hl
    rcases List.mem_cons.mp hl with rfl | hl
    · exact Or.inr ⟨rfl, moment, List.mem_append_right _ List.mem_cons_self⟩
    · exact hstands l hl

/-! ## Results -/

theorem warmUpResults?_cons (u : (k : CacheKind) × WarmUp k) (rest : WarmUps) :
    warmUpResults? (u :: rest) =
      (resultOf? u.2).bind fun result => (warmUpResults? rest).map (result :: ·) := by
  rcases u with ⟨k, r | result⟩
  · exact List.mapM_cons
  · have hcons : warmUpResults? (⟨k, .ended result⟩ :: rest) =
        (warmUpResults? rest).bind fun later => some (result :: later) := List.mapM_cons
    rw [hcons]
    cases warmUpResults? rest <;> rfl

/-- The results of a start are what its loads were concluded with. -/
theorem Stands.results {results : List Outcome} (h : Stands log task (standing warmUps))
    (hr : warmUpResults? warmUps = some results) :
    List.Forall₂ (Concluded log task) (kindsOf warmUps) results := by
  induction warmUps generalizing results with
  | nil =>
    cases hr
    exact .nil
  | cons u rest ih =>
    rw [warmUpResults?_cons] at hr
    obtain ⟨result, hu, hr⟩ := Option.bind_eq_some_iff.mp hr
    obtain ⟨later, hrest, rfl⟩ := Option.map_eq_some_iff.mp hr
    have hhead := h (u.1, resultOf? u.2) List.mem_cons_self
    rw [hu] at hhead
    exact .cons hhead (ih (fun load hl => h load (List.mem_cons_of_mem _ hl)) hrest)

/-- A start waits on only if one of its loads runs. -/
theorem loading_of_results (hr : warmUpResults? warmUps = none) :
    ∃ k, (k, none) ∈ standing warmUps := by
  induction warmUps with
  | nil => cases hr
  | cons u rest ih =>
    rw [warmUpResults?_cons] at hr
    rcases hu : resultOf? u.2 with _ | result
    · exact ⟨u.1, hu ▸ List.mem_cons_self⟩
    · rw [hu, Option.bind_some, Option.map_eq_none_iff] at hr
      exact (ih hr).imp fun k hk => List.mem_cons_of_mem _ hk

theorem faultsOf_eq_nil {results : List Outcome} :
    faultsOf results = [] ↔ ∀ r ∈ results, r = .ok () := by
  unfold faultsOf
  rw [List.filterMap_eq_nil_iff]
  refine forall₂_congr fun r _ => ?_
  cases r with
  | ok => exact iff_of_true rfl rfl
  | error fault => exact iff_of_false nofun nofun

theorem aggregate_eq_ok {faults : List Fault} :
    Fault.aggregate faults = .ok () ↔ faults = [] := by
  match faults with
  | [] => exact iff_of_true rfl rfl
  | [_] => exact iff_of_false nofun nofun
  | _ :: _ :: _ => exact iff_of_false nofun nofun

end GovernanceCache.World
