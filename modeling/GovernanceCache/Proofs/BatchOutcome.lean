import GovernanceCache.Proofs.Replaying
import GovernanceCache.Proofs.ReplicaPulls
import GovernanceCache.Record.Namespace
import Mathlib

/-!
# What a batch comes to

Of the records that a batch has of a key one prevails: the last one among the newest. It alone
decides what becomes of the entry of the key and what is told of it. What is told comes in the order
of the records that prevail, in whatever order these are found.

1. `newestFor` finds the record that prevails (`newestFor_eq_some`).
2. The records that prevail have one order (`sort_eq_arrange`).
3. Each of them is judged by the entry as it was before the batch (`merge_changes`), and it tells a
   change if and only if the entry moves (`changeOf?_eq_some`).

Mathlib is imported whole for the equations by which `cbv` evaluates the run at the end.
-/

namespace GovernanceCache

/-! ## The order of records -/

namespace Instant

variable {s t u : Instant}

theorem le_antisymm (h : s ≤ t) (h' : t ≤ s) : s = t := by
  rw [le_def] at h h'
  cases s
  cases t
  simp only [mk.injEq] at h h' ⊢
  omega

theorem lt_trans (h : s < t) (h' : t < u) : s < u := by
  rw [lt_def] at h h' ⊢
  omega

theorem lt_asymm (h : s < t) : ¬ t < s := by
  rw [lt_def] at h ⊢
  omega

theorem lt_trichotomy (s t : Instant) : s < t ∨ s = t ∨ t < s := by
  by_cases h : s < t
  · exact Or.inl h
  · by_cases h' : t < s
    · exact Or.inr (Or.inr h')
    · exact Or.inr (Or.inl (le_antisymm (not_lt.mp h') (not_lt.mp h)))

/-! Records are ordered by time, forwards or backwards, and those of one time by name. -/

variable {x y z : String}

theorem thenName_trans (lt : Instant → Instant → Prop)
    (htrans : ∀ {s t u}, lt s t → lt t u → lt s u) (h : lt s t ∨ s = t ∧ x ≤ y)
    (h' : lt t u ∨ t = u ∧ y ≤ z) : lt s u ∨ s = u ∧ x ≤ z := by
  rcases h with h | ⟨rfl, h⟩
  · rcases h' with h' | ⟨rfl, -⟩
    · exact Or.inl (htrans h h')
    · exact Or.inl h
  · exact h'.imp_right fun ⟨heq, h'⟩ => ⟨heq, h.trans h'⟩

theorem thenName_total (lt : Instant → Instant → Prop) (htotal : ∀ s t, lt s t ∨ s = t ∨ lt t s)
    (s t : Instant) (x y : String) :
    (lt s t ∨ s = t ∧ x ≤ y) ∨ (lt t s ∨ t = s ∧ y ≤ x) := by
  rcases htotal s t with hlt | rfl | hgt
  · exact Or.inl (Or.inl hlt)
  · exact (le_total x y).imp (Or.inr ⟨rfl, ·⟩) (Or.inr ⟨rfl, ·⟩)
  · exact Or.inr (Or.inl hgt)

end Instant

variable {R ι : Type} [Record R] {key : String} {a b r s : R} {batch records : List R}
  {old : Option R} {c : Change R} {entries : Std.ExtTreeMap String R}

namespace Record

theorem before_iff : before a b = true ↔
    modified a < modified b ∨ modified a = modified b ∧ Record.key a ≤ Record.key b := by
  simp [before]

theorem before_trans (a b c : R) (hab : before a b = true) (hbc : before b c = true) :
    before a c = true := by
  rw [before_iff] at hab hbc ⊢
  exact Instant.thenName_trans (· < ·) Instant.lt_trans hab hbc

theorem before_total (a b : R) : (before a b || before b a) = true := by
  rw [Bool.or_eq_true, before_iff, before_iff]
  exact Instant.thenName_total (· < ·) Instant.lt_trichotomy _ _ _ _

theorem key_eq_of_before (hab : before a b = true) (hba : before b a = true) :
    Record.key a = Record.key b := by
  rw [before_iff] at hab hba
  rcases hab with hlt | ⟨heq, hle⟩
  · rcases hba with hgt | ⟨heq, -⟩
    · exact absurd hgt (Instant.lt_asymm hlt)
    · rw [heq] at hlt
      exact absurd hlt (Instant.lt_asymm hlt)
  · rcases hba with hgt | ⟨-, hge⟩
    · rw [heq] at hgt
      exact absurd hgt (Instant.lt_asymm hgt)
    · exact le_antisymm hle hge

theorem sort_ordered (records : List R) : (sort records).Pairwise fun a b => before a b = true :=
  List.pairwise_mergeSort before_trans before_total records

/-- Records with different keys come one strictly before the other. -/
def Precedes (a b : R) : Prop :=
  modified a < modified b ∨ modified a = modified b ∧ Record.key a < Record.key b

theorem precedes_of_before (h : before a b = true) (hne : Record.key a ≠ Record.key b) :
    Precedes a b :=
  (before_iff.mp h).imp_right fun ⟨heq, hle⟩ => ⟨heq, lt_of_le_of_ne hle hne⟩

end Record

/-! ## The record that prevails -/

/-- The record is the last one among the newest that the batch has of the key. -/
def Prevails (key : String) (batch : List R) (r : R) : Prop :=
  Record.key r = key ∧ ∃ earlier later, batch = earlier ++ r :: later ∧
    (∀ s ∈ earlier, Record.key s = key → Record.modified s ≤ Record.modified r) ∧
    ∀ s ∈ later, Record.key s = key → Record.modified s < Record.modified r

theorem newestFor_concat (key : String) (batch : List R) (s : R) :
    newestFor key (batch ++ [s]) =
      if Record.key s = key then some (newer (newestFor key batch) s) else newestFor key batch := by
  unfold newestFor
  rw [List.filter_append, List.foldl_append]
  by_cases hkey : Record.key s = key
  · simp [hkey]
  · simp [hkey]

theorem newestFor_eq_none : newestFor key batch = none ↔ ∀ s ∈ batch, Record.key s ≠ key := by
  constructor
  · rintro h s hs rfl
    have hsome := newestFor_isSome hs
    rw [h] at hsome
    cases hsome
  · intro h
    rcases hn : newestFor key batch with _ | r
    · rfl
    · obtain ⟨hr, hkey⟩ := newestFor_mem hn
      exact absurd hkey (h r hr)

theorem Prevails.concat (h : Prevails key batch r)
    (hs : Record.key s = key → Record.modified s < Record.modified r) :
    Prevails key (batch ++ [s]) r := by
  obtain ⟨hkey, earlier, later, rfl, hearlier, hlater⟩ := h
  refine ⟨hkey, earlier, later ++ [s], by simp, hearlier, ?_⟩
  intro t ht
  rcases List.mem_append.mp ht with ht | ht
  · exact hlater t ht
  · rw [List.mem_singleton.mp ht]
    exact hs

theorem prevails_of_newestFor (h : newestFor key batch = some r) : Prevails key batch r := by
  induction batch using List.reverseRecOn generalizing r with
  | nil => cases h
  | append_singleton batch s ih =>
    rw [newestFor_concat] at h
    by_cases hkey : Record.key s = key
    · rw [if_pos hkey] at h
      obtain rfl := Option.some.inj h
      unfold newer
      split
      · rename_i t hn
        split
        · rename_i hlt
          exact (ih hn).concat fun _ => hlt
        · rename_i hle
          refine ⟨hkey, batch, [], rfl, ?_, nofun⟩
          rintro u hu rfl
          exact Instant.le_trans (le_newestFor hu hn) (Instant.not_lt.mp hle)
      · rename_i hn
        have hnone := newestFor_eq_none.mp hn
        exact ⟨hkey, batch, [], rfl, fun u hu heq => absurd heq (hnone u hu), nofun⟩
    · rw [if_neg hkey] at h
      exact (ih h).concat fun heq => absurd heq hkey

theorem newestFor_of_prevails (h : Prevails key batch r) : newestFor key batch = some r := by
  obtain ⟨hkey, earlier, later, rfl, hearlier, hlater⟩ := h
  induction later using List.reverseRecOn with
  | nil =>
    rw [newestFor_concat, if_pos hkey]
    unfold newer
    split
    · rename_i t hn
      obtain ⟨ht, htkey⟩ := newestFor_mem hn
      rw [if_neg (Instant.not_lt.mpr (hearlier t ht htkey))]
    · rfl
  | append_singleton later s ih =>
    have hrest := ih fun t ht => hlater t (List.mem_append_left _ ht)
    rw [← List.cons_append, ← List.append_assoc, newestFor_concat, hrest]
    split
    · rename_i hs
      have hlt := hlater s (List.mem_append_right _ List.mem_cons_self) hs
      show some (if Record.modified s < Record.modified r then r else s) = some r
      rw [if_pos hlt]
    · rfl

/-- What counts of a key in a batch is the record that prevails. -/
theorem newestFor_eq_some : newestFor key batch = some r ↔ Prevails key batch r :=
  ⟨prevails_of_newestFor, newestFor_of_prevails⟩

theorem exists_prevails (hs : s ∈ batch) : ∃! r, Prevails (Record.key s) batch r := by
  obtain ⟨r, hr⟩ := Option.isSome_iff_exists.mp (newestFor_isSome hs)
  refine ⟨r, newestFor_eq_some.mp hr, ?_⟩
  intro r' hr'
  rw [← newestFor_eq_some, hr] at hr'
  exact (Option.some.inj hr').symm

theorem mem_arrange_iff : r ∈ arrange batch ↔ Prevails (Record.key r) batch r :=
  mem_arrange.trans newestFor_eq_some

theorem arrange_ordered (batch : List R) : (arrange batch).Pairwise Record.Precedes :=
  (Record.sort_ordered _).imp₂ (fun _ _ => Record.precedes_of_before) (arrange_distinct batch)

/-- In whatever order the records that prevail are found, they are applied in one. -/
theorem sort_eq_arrange (hd : records.Nodup)
    (h : ∀ r, r ∈ records ↔ Prevails (Record.key r) batch r) :
    Record.sort records = arrange batch := by
  have hnodup : (arrange batch).Nodup :=
    (arrange_distinct batch).imp fun hne heq => hne (congrArg Record.key heq)
  have hmem : ∀ r, r ∈ Record.sort records ↔ r ∈ arrange batch := by
    intro r
    rw [mem_arrange_iff, ← h]
    exact List.mem_mergeSort
  refine List.Perm.eq_of_pairwise ?_ (Record.sort_ordered records) (Record.sort_ordered _) ?_
  · intro a b ha hb hab hba
    have ha := mem_arrange.mp ((hmem a).mp ha)
    rw [Record.key_eq_of_before hab hba, mem_arrange.mp hb] at ha
    exact (Option.some.inj ha).symm
  · refine (List.perm_ext_iff_of_nodup ?_ hnodup).mpr hmem
    exact (List.mergeSort_perm _ _).nodup_iff.mpr hd

/-! ## What is told of an entry -/

/-- An entry was created, replaced or removed. -/
def ChangeKind.Moves (kind : ChangeKind) (before after : Option R) : Prop :=
  match kind with
  | .created => before = none ∧ after ≠ none
  | .updated => before ≠ none ∧ after ≠ none ∧ before ≠ after
  | .deleted => before ≠ none ∧ after = none

omit [Record R] in
theorem ChangeKind.exists_moves {before after : Option R} :
    (∃ kind : ChangeKind, kind.Moves before after) ↔ after ≠ before := by
  constructor
  · rintro ⟨kind, h⟩
    cases kind with
    | created => exact fun heq => h.2 (heq.trans h.1)
    | updated => exact h.2.2.symm
    | deleted => exact fun heq => h.1 (heq.symm.trans h.2)
  · intro h
    rcases before with _ | a
    · exact ⟨.created, rfl, h⟩
    · rcases after with _ | b
      · exact ⟨.deleted, nofun, rfl⟩
      · exact ⟨.updated, nofun, nofun, h.symm⟩

/-- What a record makes of the entry of its key. -/
def changeOf? (old : Option R) (r : R) : Option (Change R) :=
  match old, Record.valid r with
  | some s, true => if Record.sameVersion s r then none else some ⟨.updated, some s, r⟩
  | none, true => some ⟨.created, none, r⟩
  | some s, false => some ⟨.deleted, some s, r⟩
  | none, false => none

theorem sameVersion_refl (r : R) : Record.sameVersion r r = true := by
  simp [Record.sameVersion]

/-- A record tells a change if and only if the entry of its key moves by it. -/
theorem changeOf?_eq_some : changeOf? old r = some c ↔
    old = c.old ∧ r = c.new ∧ c.kind.Moves old (entryAfter old r) := by
  obtain ⟨kind, was, new⟩ := c
  unfold changeOf? entryAfter
  rcases old with _ | s <;> rcases hv : Record.valid r with _ | _
  · cases kind <;> simp [ChangeKind.Moves]
  · cases kind <;> simp [ChangeKind.Moves]
  · cases kind <;> simp [ChangeKind.Moves]
  · by_cases hsame : Record.sameVersion s r = true
    · cases kind <;> simp [ChangeKind.Moves, hsame]
    · have hne : s ≠ r := by
        rintro rfl
        exact hsame (sameVersion_refl s)
      cases kind <;> simp [ChangeKind.Moves, hsame, hne]

theorem apply_changes (m : Merged R) (r : R) :
    (m.apply r).changes = m.changes ++ (changeOf? m.entries[Record.key r]? r).toList := by
  unfold Merged.apply changeOf?
  rcases m.entries[Record.key r]? with _ | s <;> rcases Record.valid r with _ | _
  · simp
  · simp
  · simp
  · simp only
    split <;> simp

theorem foldl_apply_changes (hd : records.Pairwise fun a b => Record.key a ≠ Record.key b)
    (m : Merged R) :
    (records.foldl Merged.apply m).changes =
      m.changes ++ records.filterMap fun r => changeOf? m.entries[Record.key r]? r := by
  induction records generalizing m with
  | nil => exact (List.append_nil _).symm
  | cons r rest ih =>
    obtain ⟨hr, hd⟩ := List.pairwise_cons.mp hd
    -- the other keys have their entries still as they were
    have hrest : (rest.filterMap fun s => changeOf? (m.apply r).entries[Record.key s]? s) =
        rest.filterMap fun s => changeOf? m.entries[Record.key s]? s := by
      refine List.filterMap_congr fun s hs => ?_
      rw [apply_getElem?, if_neg (hr s hs)]
    rw [List.foldl_cons, ih hd, hrest, apply_changes, List.append_assoc, List.filterMap_cons]
    cases changeOf? m.entries[Record.key r]? r <;> rfl

/-- **What a batch tells.** Each record that prevails is judged by the entry as it was before. -/
theorem merge_changes (entries : Std.ExtTreeMap String R) (batch : List R) :
    (merge entries batch).changes =
      (arrange batch).filterMap fun r => changeOf? entries[Record.key r]? r :=
  foldl_apply_changes (arrange_distinct batch) _

theorem merge_getElem?_of_prevails (entries : Std.ExtTreeMap String R) (h : Prevails key batch r) :
    (merge entries batch).entries[key]? = entryAfter entries[key]? r := by
  rw [merge_getElem?, newestFor_eq_some.mpr h]

theorem merge_getElem?_of_absent (entries : Std.ExtTreeMap String R)
    (h : ∀ s ∈ batch, Record.key s ≠ key) :
    (merge entries batch).entries[key]? = entries[key]? := by
  rw [merge_getElem?, newestFor_eq_none.mpr h]

theorem mem_changes : c ∈ (merge entries batch).changes ↔
    Prevails c.key batch c.new ∧ c.old = entries[c.key]? ∧
      c.kind.Moves entries[c.key]? (merge entries batch).entries[c.key]? := by
  rw [merge_changes, List.mem_filterMap]
  constructor
  · rintro ⟨r, hr, hc⟩
    obtain ⟨hold, rfl, hmoves⟩ := changeOf?_eq_some.mp hc
    have hr : Prevails c.key batch c.new := mem_arrange_iff.mp hr
    refine ⟨hr, hold.symm, ?_⟩
    rw [merge_getElem?_of_prevails entries hr]
    exact hmoves
  · rintro ⟨hr, hold, hmoves⟩
    rw [merge_getElem?_of_prevails entries hr] at hmoves
    exact ⟨c.new, mem_arrange_iff.mpr hr, changeOf?_eq_some.mpr ⟨hold.symm, rfl, hmoves⟩⟩

theorem changes_ordered (entries : Std.ExtTreeMap String R) (batch : List R) :
    (merge entries batch).changes.Pairwise fun a b => Record.Precedes a.new b.new := by
  rw [merge_changes, List.pairwise_filterMap]
  refine (arrange_ordered batch).imp ?_
  intro r s hrs c hc d hd
  obtain ⟨-, rfl, -⟩ := changeOf?_eq_some.mp hc
  obtain ⟨-, rfl, -⟩ := changeOf?_eq_some.mp hd
  exact hrs

/-- There is a change of a key if and only if its entry is another one. -/
theorem exists_change : (∃ c ∈ (merge entries batch).changes, c.key = key) ↔
    (merge entries batch).entries[key]? ≠ entries[key]? := by
  rw [← ChangeKind.exists_moves]
  constructor
  · rintro ⟨c, hc, rfl⟩
    exact ⟨c.kind, (mem_changes.mp hc).2.2⟩
  · rintro ⟨kind, hmoves⟩
    rcases hn : newestFor key batch with _ | r
    · have hsame := merge_getElem?_of_absent entries (newestFor_eq_none.mp hn)
      exact absurd hsame (ChangeKind.exists_moves.mp ⟨kind, hmoves⟩)
    · have hr := newestFor_eq_some.mp hn
      obtain rfl := hr.1
      exact ⟨⟨kind, entries[Record.key r]?, r⟩, mem_changes.mpr ⟨hr, rfl, hmoves⟩, rfl⟩

/-- The latest time of a batch is the largest one of all its records. -/
theorem latestTime_eq_some {t : Instant} : latestTime batch = some t ↔
    (∃ r ∈ batch, Record.modified r = t) ∧ ∀ r ∈ batch, Record.modified r ≤ t := by
  constructor
  · intro h
    refine ⟨latestTime_mem h, fun r hr => ?_⟩
    obtain ⟨u, hu, hle⟩ := le_latestTime hr
    rw [h] at hu
    rw [Option.some.inj hu]
    exact hle
  · rintro ⟨⟨r, hr, rfl⟩, hmax⟩
    obtain ⟨u, hu, hle⟩ := le_latestTime hr
    obtain ⟨s, hs, rfl⟩ := latestTime_mem hu
    rw [hu, Instant.le_antisymm hle (hmax s hs)]

/-! ## Closing a pull -/

namespace Replica

/-- What a replica makes of a batch, and what it tells of it. -/
structure Settles [Index R ι] (m : Replica R ι) (ticket : Ticket) (batch : List R)
    (m' : Replica R ι) (told : List (Change R)) : Prop where
  /-- Of the records of a key exactly one prevails. -/
  decided : ∀ s ∈ batch, ∃! r, Prevails (Record.key s) batch r
  /-- A live one becomes the entry of the key, -/
  taken : ∀ (key : String) (r : R), Prevails key batch r → Record.valid r = true →
    (∀ old, m.entries[key]? = some old →
      ¬ (Record.modified old = Record.modified r ∧ Record.revision old = Record.revision r)) →
    m'.entries[key]? = some r
  /-- unless the entry is the same version, which is kept. -/
  kept : ∀ (key : String) (r old : R), Prevails key batch r → Record.valid r = true →
    m.entries[key]? = some old → Record.modified old = Record.modified r →
    Record.revision old = Record.revision r → m'.entries[key]? = some old
  /-- A soft delete that prevails leaves no entry. -/
  gone : ∀ (key : String) (r : R), Prevails key batch r → Record.valid r = false →
    m'.entries[key]? = none
  spared : ∀ key : String, (∀ s ∈ batch, Record.key s ≠ key) → m'.entries[key]? = m.entries[key]?
  /-- The order in which the records that prevail are found does not matter. -/
  anyOrder : ∀ records : List R, records.Nodup →
    (∀ r, r ∈ records ↔ Prevails (Record.key r) batch r) →
    ((Record.sort records).foldl Merged.apply { entries := m.entries }).entries = m'.entries ∧
      ((Record.sort records).foldl Merged.apply { entries := m.entries }).changes = told
  /-- A change tells of a record that prevails, of the entry that it found and of how that moved. -/
  told_iff : ∀ c : Change R, c ∈ told ↔ Prevails c.key batch c.new ∧ c.old = m.entries[c.key]? ∧
    c.kind.Moves m.entries[c.key]? m'.entries[c.key]?
  /-- There is a change of every key whose entry was created, replaced or removed, -/
  moved : ∀ key : String, (∃ c ∈ told, c.key = key) ↔ m'.entries[key]? ≠ m.entries[key]?
  /-- one of each, -/
  once : told.Pairwise fun a b => a.key ≠ b.key
  /-- in the order of their times, then of their keys. -/
  ordered : told.Pairwise fun a b => Record.Precedes a.new b.new
  index : m'.index = Index.observeAll m.index told
  feed : m'.feed = told.foldl (fun feed c => (feed.publish c).1) m.feed
  latest : ∀ t, latestTime batch = some t ↔
    (∃ r ∈ batch, Record.modified r = t) ∧ ∀ r ∈ batch, Record.modified r ≤ t
  watermark : m'.watermark = m.watermark.advance (latestTime batch) ticket.openedAt

theorem entryAfter_of_same {old : R} (hv : Record.valid r = true)
    (htime : Record.modified old = Record.modified r)
    (hrev : Record.revision old = Record.revision r) : entryAfter (some old) r = some old := by
  simp [entryAfter, hv, Record.sameVersion, htime, hrev]

theorem entryAfter_of_other (hv : Record.valid r = true)
    (h : ∀ s, old = some s →
      ¬ (Record.modified s = Record.modified r ∧ Record.revision s = Record.revision r)) :
    entryAfter old r = some r := by
  rcases old with _ | s
  · simp [entryAfter, hv]
  · simp [entryAfter, hv, Record.sameVersion, h s rfl]

theorem entryAfter_of_dead (hv : Record.valid r = false) : entryAfter old r = none := by
  simp [entryAfter, hv]

variable [Index R ι]

/-- **Merging a batch.** Whatever entries a replica has, a sound batch that closes a pull in time
settles them key by key, and the index and the subscribers are told the same changes. -/
theorem closePull_settles (m : Replica R ι) (ticket : Ticket) (batch : List R)
    (hsound : ∀ r ∈ batch, Record.defect? r = none) (hopen : m.closed = false)
    (hgeneration : m.generation = ticket.generation) :
    ∃ told, (m.closePull ticket (.ok batch)).2 = .ok told ∧
      m.Settles ticket batch (m.closePull ticket (.ok batch)).1 told := by
  rw [closePull_of_ok (verdict_eq_ok.mpr ⟨rfl, defect?_eq_none.mpr hsound, hopen, hgeneration⟩)]
  refine ⟨(merge m.entries batch).changes, rfl, ?_⟩
  exact {
    decided := fun s hs => exists_prevails hs
    taken := fun key r hr hv h =>
      (merge_getElem?_of_prevails m.entries hr).trans (entryAfter_of_other hv h)
    kept := by
      intro key r old hr hv hold htime hrev
      refine (merge_getElem?_of_prevails m.entries hr).trans ?_
      rw [hold, entryAfter_of_same hv htime hrev]
    gone := fun key r hr hv =>
      (merge_getElem?_of_prevails m.entries hr).trans (entryAfter_of_dead hv)
    spared := fun key h => merge_getElem?_of_absent m.entries h
    anyOrder := by
      intro records hd h
      rw [sort_eq_arrange hd h]
      exact ⟨rfl, rfl⟩
    told_iff := fun c => mem_changes
    moved := fun key => exists_change
    once := (merge_replays m.entries batch).2.2
    ordered := changes_ordered m.entries batch
    index := rfl
    feed := rfl
    latest := fun t => latestTime_eq_some
    watermark := rfl }

/-- Of two equally new versions the last one counts, the version that is held is kept whatever else
the batch says of it, and of two soft deletes only that of a known key is told. -/
theorem mixed_batch_settled :
    let one : Instant := ⟨1, 0, by decide, by decide, by decide⟩
    let two : Instant := ⟨2, 0, by decide, by decide, by decide⟩
    let three : Instant := ⟨3, 0, by decide, by decide, by decide⟩
    let held : Namespace := { name := "held", revision := "r", modified := one }
    let doomed : Namespace := { name := "doomed", modified := one }
    let buried : Namespace := { doomed with valid := false, modified := three }
    let first : Namespace := { name := "new", revision := "x", modified := two }
    let last : Namespace := { name := "new", revision := "y", modified := two }
    let batch := [{ held with comment := "again" }, buried, first,
      { name := "unknown", valid := false, modified := one }, last]
    let m : Replica Namespace (Journal Namespace) :=
      { create .namespaces (.seconds (-2)) 4 with
        entries := .ofList [("held", held), ("doomed", doomed)] }
    let ticket : Ticket := ⟨.epoch, true, 0, three⟩
    (∀ r ∈ batch, Record.defect? r = none) ∧
      m.Settles ticket batch (m.closePull ticket (.ok batch)).1
        [⟨.created, none, last⟩, ⟨.deleted, some doomed, buried⟩] := by
  intro one two three held doomed buried first last batch m ticket
  have hsound : ∀ r ∈ batch, Record.defect? r = none := by decide
  have hresult : (m.closePull ticket (.ok batch)).2 =
      .ok [⟨.created, none, last⟩, ⟨.deleted, some doomed, buried⟩] := by cbv
  obtain ⟨told, htold, h⟩ := closePull_settles m ticket batch hsound rfl rfl
  rw [hresult] at htold
  obtain rfl := Except.ok.inj htold
  exact ⟨hsound, h⟩

end Replica

end GovernanceCache
