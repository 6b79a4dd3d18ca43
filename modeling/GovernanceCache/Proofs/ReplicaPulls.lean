import GovernanceCache.Replica

/-!
# Pulls of a replica

How a replica opens a pull, and the two ways in which it closes one: it absorbs the batch, which it
does only in the generation of the ticket, or it stays alike.
-/

namespace GovernanceCache

variable {R ι : Type}

/-- The replica after steps that touch neither its entries nor its progress. -/
structure Replica.Alike (m m' : Replica R ι) : Prop where
  kind : m'.kind = m.kind
  skew : m'.skew = m.skew
  entries : m'.entries = m.entries
  watermark : m'.watermark = m.watermark
  firstLoad : m'.firstLoad = m.firstLoad
  generation : m'.generation = m.generation

namespace Replica

variable {m m' : Replica R ι} {now : Instant} {ticket : Ticket} {batch : List R} {fault : Fault}
  {answer : Answer R}

theorem Alike.trans {m₁ m₂ m₃ : Replica R ι} (h₁ : m₁.Alike m₂) (h₂ : m₂.Alike m₃) :
    m₁.Alike m₃ := by
  obtain ⟨a₁, a₂, a₃, a₄, a₅, a₆⟩ := h₁
  obtain ⟨b₁, b₂, b₃, b₄, b₅, b₆⟩ := h₂
  exact ⟨b₁.trans a₁, b₂.trans a₂, b₃.trans a₃, b₄.trans a₄, b₅.trans a₅, b₆.trans a₆⟩

/-- A ticket is computed from the replica as it is. -/
theorem takeTicket_alike (m : Replica R ι) (now : Instant) : m.Alike (m.takeTicket now).1 :=
  ⟨rfl, rfl, rfl, rfl, rfl, rfl⟩

theorem openPull_eq_some (h : m.openPull now = some (m', ticket)) :
    m.Alike m' ∧ ticket.since = m.watermark.since m.skew ∧ ticket.firstLoad = m.firstLoad ∧
      ticket.generation = m.generation := by
  unfold openPull at h
  split at h
  · cases h
  · cases h
    exact ⟨m.takeTicket_alike now, rfl, rfl, rfl⟩

theorem giveUp_alike (m : Replica R ι) (fault : Fault) : m.Alike (m.giveUp fault) := by
  unfold giveUp
  split <;> exact ⟨rfl, rfl, rfl, rfl, rfl, rfl⟩

theorem countMerged_alike (m : Replica R ι) (changes : List (Change R)) :
    m.Alike (m.countMerged changes) := ⟨rfl, rfl, rfl, rfl, rfl, rfl⟩

theorem finishPull_alike (m : Replica R ι) (size : Nat) : m.Alike (m.finishPull size) :=
  ⟨rfl, rfl, rfl, rfl, rfl, rfl⟩

theorem publish_alike (m : Replica R ι) (changes : List (Change R)) :
    m.Alike (m.publish changes) :=
  (m.countMerged_alike changes).trans (finishPull_alike _ _)

section

variable [Record R]

theorem defect?_eq_none : defect? batch = none ↔ ∀ r ∈ batch, Record.defect? r = none := by
  unfold defect?
  simp

/-- A pull merges exactly if the store answered with sound records, and the replica was neither
closed nor cleared since the pull was opened. -/
theorem verdict_eq_ok : m.verdict ticket answer = .ok batch ↔
    answer = .ok batch ∧ defect? batch = none ∧ m.closed = false ∧
      m.generation = ticket.generation := by
  unfold verdict
  constructor
  · intro h
    split at h
    · cases h
    · split at h
      · cases h
      · rename_i hsound
        split at h
        · cases h
        · rename_i hopen
          split at h
          · rename_i hgen
            cases h
            exact ⟨rfl, hsound, Bool.eq_false_iff.mpr hopen, hgen⟩
          · cases h
  · rintro ⟨rfl, hsound, hopen, hgen⟩
    simp only [hsound, hopen, hgen, if_true]
    rfl

variable [Index R ι]

/-- A pull that ends well merges its batch and publishes it. -/
theorem closePull_of_ok (h : m.verdict ticket answer = .ok batch) :
    m.closePull ticket answer =
      ((m.mergeBatch ticket batch).1.publish (merge m.entries batch).changes,
        .ok (merge m.entries batch).changes) := by
  unfold closePull
  rw [h]
  rfl

theorem closePull_of_error (h : m.verdict ticket answer = .error fault) :
    m.closePull ticket answer = (m.giveUp fault, .error fault) := by
  unfold closePull
  rw [h]

/-- However a pull closes, the replica keeps its kind, its skew and its generation. -/
theorem closePull_keeps (m : Replica R ι) (ticket : Ticket) (answer : Answer R) :
    (m.closePull ticket answer).1.kind = m.kind ∧ (m.closePull ticket answer).1.skew = m.skew ∧
      (m.closePull ticket answer).1.generation = m.generation := by
  rcases hv : m.verdict ticket answer with fault | batch
  · rw [closePull_of_error hv]
    have halike := m.giveUp_alike fault
    exact ⟨halike.kind, halike.skew, halike.generation⟩
  · rw [closePull_of_ok hv]
    exact ⟨rfl, rfl, rfl⟩

end

end Replica

end GovernanceCache
