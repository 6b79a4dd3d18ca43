import GovernanceCache.Proofs.FirstLoads
import GovernanceCache.Proofs.Openings

/-!
# The ledger of starts

What the log may tell of the starts of a manager. A start occupies the manager while it loads its
kinds, and for good once it has succeeded; whoever comes meanwhile is refused. It ends with the
faults of the loads that failed. Only a start that succeeds brings refresh loops, one for each of
its kinds.

`Ledger` goes along with the mark that the manager keeps: it stays with what concerns no start
(`Ledger.aside`), and is carried over the beginning of a start (`Ledger.warm`), its failure
(`Ledger.fail`) and its success (`Ledger.succeed`).
-/

namespace GovernanceCache

open World

/-- What holds of everything told, whatever was told before it, holds of the whole chronicle. -/
theorem Chronicle.append {ε : Type} {law : List ε → ε → Prop} {told log : List ε}
    (h : Chronicle law log) (ht : ∀ e ∈ told, ∀ between, law (between ++ log) e) :
    Chronicle law (told ++ log) := by
  induction told with
  | nil => exact h
  | cons e rest ih =>
    exact ⟨ht e List.mem_cons_self rest, ih fun e he => ht e (List.mem_cons_of_mem _ he)⟩

/-! ## The law -/

/-- The start loads its kinds and has not ended, or it has succeeded. -/
def Occupies (log : List Occurrence) (task : Nat) : Prop :=
  ∃ kinds called, .warming task kinds called ∈ log ∧
    ((∀ reply, .ended task reply ∉ log) ∨ .ended task (.outcome (.ok ())) ∈ log)

/-- The start of these kinds has succeeded. -/
def Succeeded (log : List Occurrence) (task : Nat) (kinds : List CacheKind) : Prop :=
  ∃ called, .warming task kinds called ∈ log ∧ .ended task (.outcome (.ok ())) ∈ log

/-- The start of these kinds sums the results of their loads up: it succeeds exactly if all of them
did, and fails with the faults of the others in their order. -/
def SumsUp (log : List Occurrence) (task : Nat) (kinds : List CacheKind) (reply : Reply) : Prop :=
  ∃ results, List.Forall₂ (Concluded log task) kinds results ∧
    reply = .outcome (Fault.aggregate (faultsOf results)) ∧
    (reply = .outcome (.ok ()) ↔ ∀ result ∈ results, result = .ok ())

/-- What may happen after the earlier occurrences, for a roster and a limit of first loads. -/
def StartLaw (roster : Roster) (limit : Nat) (earlier : List Occurrence) : Occurrence → Prop
  | .asked task _ => ∀ e ∈ earlier, e.task? ≠ some task
  | .refused task => earlier.head? = some (.asked task .start) ∧ ∃ other, Occupies earlier other
  | .warming task kinds _ => earlier.head? = some (.asked task .start) ∧
    (∀ other, ¬ Occupies earlier other) ∧
    kinds = CacheKind.all.filter fun k => k ∈ openedKinds roster earlier
  | .loaded task k result => LoadLaw limit earlier (.loaded task k result)
  | .late task k moment => LoadLaw limit earlier (.late task k moment)
  | .ended task reply => (∀ other, .ended task other ∉ earlier) ∧
    (.refused task ∈ earlier → reply = .outcome (.error alreadyStarted)) ∧
    ∀ kinds called, .warming task kinds called ∈ earlier → SumsUp earlier task kinds reply
  | .spawned _ k => ∃ task kinds, Succeeded earlier task kinds ∧ k ∈ kinds
  | .opened _ | .updating .. | .dropped _ => True

/-- The kind of a loop that came. -/
def Occurrence.loop? : Occurrence → Option CacheKind
  | .spawned _ k => some k
  | _ => none

/-- The kinds of the loops that came, in turn. -/
def loopKinds (log : List Occurrence) : List CacheKind := (log.filterMap Occurrence.loop?).reverse

variable {roster : Roster} {limit task : Nat} {kinds : List CacheKind} {called : Nat}
  {log told : List Occurrence} {e : Occurrence} {mark : Bool} {reply : Reply}

theorem Succeeded.occupies (h : Succeeded log task kinds) : Occupies log task := by
  obtain ⟨called, hw, he⟩ := h
  exact ⟨kinds, called, hw, Or.inr he⟩

/-- A start that has begun was asked for. -/
theorem asked_of_warming (h : Chronicle (StartLaw roster limit) log)
    (hw : .warming task kinds called ∈ log) : .asked task .start ∈ log := by
  obtain ⟨later, earlier, rfl⟩ := List.append_of_mem hw
  obtain ⟨hhead, -⟩ := h.law_of_split
  exact List.mem_append_right _ (List.mem_cons_of_mem _ (List.mem_of_head? hhead))

/-- A start begins once. -/
theorem warming_unique (h : Chronicle (StartLaw roster limit) log) {kinds' : List CacheKind}
    {called' : Nat} (hw : .warming task kinds called ∈ log)
    (hw' : .warming task kinds' called' ∈ log) : kinds = kinds' ∧ called = called' := by
  -- Before a start begins nothing is told of its task but that it was asked for.
  have key : ∀ {earlier : List Occurrence} {ks ls : List CacheKind} {c d : Nat},
      Chronicle (StartLaw roster limit) (.warming task ks c :: earlier) →
      .warming task ls d ∉ earlier := by
    rintro earlier ks ls c d ⟨⟨hhead, -⟩, hrest⟩ hmem
    cases earlier with
    | nil => cases hhead
    | cons first rest =>
      cases hhead
      rcases List.mem_cons.mp hmem with heq | hmem
      · cases heq
      · exact hrest.1 _ hmem rfl
  induction log with
  | nil => cases hw
  | cons e earlier ih =>
    rcases List.mem_cons.mp hw with heq | hmem <;> rcases List.mem_cons.mp hw' with heq' | hmem'
    · cases heq.trans heq'.symm
      exact ⟨rfl, rfl⟩
    · exact absurd hmem' (key (heq ▸ h))
    · exact absurd hmem (key (heq' ▸ h))
    · exact ih h.2 hmem hmem'

/-- The kinds of a start are scheduled ones in their order. -/
theorem nodup_of_warming (h : Chronicle (StartLaw roster limit) log)
    (hw : .warming task kinds called ∈ log) : kinds.Nodup := by
  obtain ⟨later, earlier, rfl⟩ := List.append_of_mem hw
  obtain ⟨-, -, rfl⟩ := h.law_of_split
  exact List.Pairwise.filter _ (by decide : CacheKind.all.Nodup)

/-! ## What moves the ledger -/

/-- The occurrence concerns neither who occupies the manager nor the loops. -/
def IsAside (log : List Occurrence) : Occurrence → Prop
  | .warming .. | .spawned .. => False
  | .ended task _ => ∀ kinds called, .warming task kinds called ∉ log
  | _ => True

/-- The mark of the manager goes along with the log. -/
structure Ledger (roster : Roster) (limit : Nat) (log : List Occurrence) (mark : Bool) : Prop where
  lawful : Chronicle (StartLaw roster limit) log
  marked : mark = true ↔ ∃ task, Occupies log task
  sole : ∀ task other, Occupies log task → Occupies log other → task = other
  loops : (∃ task kinds, Succeeded log task kinds ∧ loopKinds log = kinds) ∨
    (∀ task kinds, ¬ Succeeded log task kinds) ∧ loopKinds log = []

theorem warming_cons_aside (ha : IsAside log e) :
    .warming task kinds called ∈ e :: log ↔ .warming task kinds called ∈ log := by
  refine ⟨fun h => ?_, List.mem_cons_of_mem _⟩
  rcases List.mem_cons.mp h with rfl | h
  · exact ha.elim
  · exact h

/-- The end of a start is not aside. -/
theorem ended_cons_aside (ha : IsAside log e) (hw : .warming task kinds called ∈ log) :
    .ended task reply ∈ e :: log ↔ .ended task reply ∈ log := by
  refine ⟨fun h => ?_, List.mem_cons_of_mem _⟩
  rcases List.mem_cons.mp h with rfl | h
  · exact absurd hw (ha kinds called)
  · exact h

theorem occupies_cons_aside (ha : IsAside log e) :
    Occupies (e :: log) task ↔ Occupies log task := by
  constructor <;> rintro ⟨kinds, called, hw, hend⟩ <;> refine ⟨kinds, called, ?_, ?_⟩
  · exact (warming_cons_aside ha).mp hw
  · have hw := (warming_cons_aside ha).mp hw
    refine hend.imp (fun hn reply he => hn reply ?_) (ended_cons_aside ha hw).mp
    exact (ended_cons_aside ha hw).mpr he
  · exact (warming_cons_aside ha).mpr hw
  · refine hend.imp (fun hn reply he => hn reply ?_) (ended_cons_aside ha hw).mpr
    exact (ended_cons_aside ha hw).mp he

theorem succeeded_cons_aside (ha : IsAside log e) :
    Succeeded (e :: log) task kinds ↔ Succeeded log task kinds := by
  constructor <;> rintro ⟨called, hw, hend⟩ <;> refine ⟨called, ?_, ?_⟩
  · exact (warming_cons_aside ha).mp hw
  · exact (ended_cons_aside ha ((warming_cons_aside ha).mp hw)).mp hend
  · exact (warming_cons_aside ha).mpr hw
  · exact (ended_cons_aside ha hw).mpr hend

theorem loopKinds_cons_aside (ha : IsAside log e) : loopKinds (e :: log) = loopKinds log := by
  unfold loopKinds
  cases e <;> first | exact ha.elim | rfl

theorem loopKinds_spawnings (id : Nat) (kinds : List CacheKind) (log : List Occurrence) :
    loopKinds (spawnings id kinds ++ log) = loopKinds log ++ kinds := by
  have hnew : ((spawnings id kinds).filterMap Occurrence.loop?).reverse = kinds := by
    induction kinds generalizing id with
    | nil => rfl
    | cons k rest ih =>
      rw [spawnings, List.filterMap_append, List.reverse_append, ih]
      rfl
  unfold loopKinds
  rw [List.filterMap_append, List.reverse_append, hnew]

namespace Ledger

theorem aside (h : Ledger roster limit log mark) (ha : IsAside log e)
    (hlaw : StartLaw roster limit log e) : Ledger roster limit (e :: log) mark := by
  refine ⟨⟨hlaw, h.lawful⟩, ?_, ?_, ?_⟩
  · simp only [occupies_cons_aside ha]
    exact h.marked
  · simp only [occupies_cons_aside ha]
    exact h.sole
  · simp only [succeeded_cons_aside ha, loopKinds_cons_aside ha]
    exact h.loops

/-- First loads are concluded. -/
theorem closes (h : Ledger roster limit log mark) (hc : ∀ e ∈ told, ∃ k, Closes task k e)
    (hlaw : Chronicle (StartLaw roster limit) (told ++ log)) :
    Ledger roster limit (told ++ log) mark := by
  induction told with
  | nil => exact h
  | cons e rest ih =>
    have hrest := ih (fun e he => hc e (List.mem_cons_of_mem _ he)) hlaw.2
    refine hrest.aside ?_ hlaw.1
    obtain ⟨k, ⟨_, rfl⟩ | ⟨_, rfl⟩⟩ := hc e List.mem_cons_self <;> trivial

/-- A start begins to load its kinds. -/
theorem warm (h : Ledger roster limit log false)
    (hlaw : StartLaw roster limit log (.warming task kinds called))
    (hend : ∀ reply, .ended task reply ∉ log) :
    Ledger roster limit (.warming task kinds called :: log) true := by
  have hfree := hlaw.2.1
  have honly : ∀ other, Occupies (.warming task kinds called :: log) other → other = task := by
    rintro other ⟨ks, c, hw, ho⟩
    rcases List.mem_cons.mp hw with heq | hw
    · cases heq
      rfl
    · refine absurd ⟨ks, c, hw, ?_⟩ (hfree other)
      refine ho.imp (fun hn reply he => hn reply (List.mem_cons_of_mem _ he)) fun he => ?_
      exact (List.mem_cons.mp he).resolve_left nofun
  have hoccupied : Occupies (.warming task kinds called :: log) task := by
    refine ⟨kinds, called, List.mem_cons_self, Or.inl fun reply he => ?_⟩
    exact hend reply ((List.mem_cons.mp he).resolve_left nofun)
  refine ⟨⟨hlaw, h.lawful⟩, iff_of_true rfl ⟨task, hoccupied⟩, ?_, Or.inr ⟨?_, ?_⟩⟩
  · exact fun t t' ht ht' => (honly t ht).trans (honly t' ht').symm
  · intro other ks hs
    obtain rfl := honly other hs.occupies
    obtain ⟨c, -, he⟩ := hs
    exact hend _ ((List.mem_cons.mp he).resolve_left nofun)
  · rcases h.loops with ⟨t, ks, hs, -⟩ | ⟨-, hnil⟩
    · exact absurd hs.occupies (hfree t)
    · exact hnil

/-- The one who occupies the manager has not succeeded yet: nobody has. -/
theorem unsuccessful (h : Ledger roster limit log mark) (ho : Occupies log task)
    (hend : ∀ reply, .ended task reply ∉ log) :
    (∀ other kinds, ¬ Succeeded log other kinds) ∧ loopKinds log = [] := by
  rcases h.loops with ⟨other, ks, hs, -⟩ | hnone
  · obtain ⟨c, hw, he⟩ := hs
    have heq := h.sole other task ⟨ks, c, hw, Or.inr he⟩ ho
    exact absurd (heq ▸ he) (hend _)
  · exact hnone

/-- A start fails. -/
theorem fail (h : Ledger roster limit log mark) (ho : Occupies log task)
    (hend : ∀ reply, .ended task reply ∉ log)
    (hlaw : StartLaw roster limit log (.ended task reply)) (hne : reply ≠ .outcome (.ok ())) :
    Ledger roster limit (.ended task reply :: log) false := by
  have hfree : ∀ other, ¬ Occupies (.ended task reply :: log) other := by
    rintro other ⟨ks, c, hw, hn⟩
    have hw := (List.mem_cons.mp hw).resolve_left nofun
    have hold : Occupies log other := by
      refine ⟨ks, c, hw, hn.imp (fun hn r he => hn r (List.mem_cons_of_mem _ he)) fun he => ?_⟩
      refine (List.mem_cons.mp he).resolve_left fun heq => ?_
      cases heq
      exact hne rfl
    obtain rfl := h.sole other task hold ho
    rcases hn with hn | he
    · exact hn reply List.mem_cons_self
    · rcases List.mem_cons.mp he with heq | he
      · cases heq
        exact hne rfl
      · exact hend _ he
  refine ⟨⟨hlaw, h.lawful⟩, iff_of_false Bool.false_ne_true fun ⟨t, ht⟩ => hfree t ht, ?_,
    Or.inr ⟨fun t ks hs => hfree t hs.occupies, ?_⟩⟩
  · exact fun t t' ht => absurd ht (hfree t)
  · exact (h.unsuccessful ho hend).2

/-- A start succeeds, and brings the loops of its kinds. -/
theorem succeed (h : Ledger roster limit log mark) (hw : .warming task kinds called ∈ log)
    (hend : ∀ reply, .ended task reply ∉ log)
    (hlaw : StartLaw roster limit log (.ended task (.outcome (.ok ())))) (id : Nat) :
    Ledger roster limit
      (spawnings id kinds ++ .ended task (.outcome (.ok ())) :: log) true := by
  have ho : Occupies log task := ⟨kinds, called, hw, Or.inl hend⟩
  have hspawned : ∀ {e}, e ∈ spawnings id kinds → ∃ i k, e = .spawned i k ∧ k ∈ kinds := by
    intro e he
    obtain ⟨i, k, heq, -, -, hk⟩ := mem_spawnings he
    exact ⟨i, k, heq, hk⟩
  have hold : ∀ {e : Occurrence}, e.loop? = none →
      (e ∈ spawnings id kinds ++ .ended task (.outcome (.ok ())) :: log ↔
        e = .ended task (.outcome (.ok ())) ∨ e ∈ log) := by
    intro e hne
    rw [List.mem_append, List.mem_cons]
    refine or_iff_right fun he => ?_
    obtain ⟨i, k, rfl, -⟩ := hspawned he
    cases hne
  have hsuccess : ∀ between, Succeeded
      (between ++ .ended task (.outcome (.ok ())) :: log) task kinds := fun between =>
    ⟨called, List.mem_append_right _ (List.mem_cons_of_mem _ hw),
      List.mem_append_right _ List.mem_cons_self⟩
  have honly : ∀ other, Occupies
      (spawnings id kinds ++ .ended task (.outcome (.ok ())) :: log) other → other = task := by
    rintro other ⟨ks, c, hw', hn⟩
    by_contra hne
    have hw' := ((hold rfl).mp hw').resolve_left nofun
    refine hne (h.sole other task ⟨ks, c, hw', ?_⟩ ho)
    refine hn.imp (fun hn r he => hn r ((hold rfl).mpr (Or.inr he))) fun he => ?_
    refine ((hold rfl).mp he).resolve_left fun heq => ?_
    cases heq
    exact hne rfl
  refine ⟨?_, iff_of_true rfl ⟨task, (hsuccess _).occupies⟩, ?_,
    Or.inl ⟨task, kinds, hsuccess _, ?_⟩⟩
  · refine Chronicle.append ⟨hlaw, h.lawful⟩ ?_
    intro e he between
    obtain ⟨i, k, rfl, hk⟩ := hspawned he
    exact ⟨task, kinds, hsuccess between, hk⟩
  · exact fun t t' ht ht' => (honly t ht).trans (honly t' ht').symm
  · rw [loopKinds_spawnings]
    have hnil := (h.unsuccessful ho hend).2
    show loopKinds log ++ kinds = kinds
    rw [hnil, List.nil_append]

end Ledger

end GovernanceCache
