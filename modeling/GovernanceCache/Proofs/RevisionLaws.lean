import GovernanceCache.Revision
import Mathlib.Data.String.Basic

/-!
# What revisions depend on

A composed revision depends on its parts but not on their order (`compose_perm`), and it is a text
of sixteen characters (`compose_length`). So it is held exactly by the clients that give its text
(`Versioned.resolve_eq`).
-/

namespace GovernanceCache

namespace Revision

variable {parts parts' : List String} {records records' : List (String × String)}
  {client : String} {r : Revision}

/-! ## Order -/

theorem sortParts_ordered (parts : List String) :
    (sortParts parts).Pairwise fun a b => decide (a ≤ b) = true := by
  refine List.pairwise_mergeSort ?_ ?_ parts
  · intro a b c hab hbc
    exact decide_eq_true ((of_decide_eq_true hab).trans (of_decide_eq_true hbc))
  · intro a b
    rw [Bool.or_eq_true, decide_eq_true_iff, decide_eq_true_iff]
    exact le_total a b

theorem sortParts_perm (h : parts.Perm parts') : sortParts parts = sortParts parts' := by
  refine List.Perm.eq_of_pairwise ?_ (sortParts_ordered parts) (sortParts_ordered parts') ?_
  · intro a b _ _ hab hba
    exact le_antisymm (of_decide_eq_true hab) (of_decide_eq_true hba)
  · exact (List.mergeSort_perm parts _).trans (h.trans (List.mergeSort_perm parts' _).symm)

theorem hashedBytes_perm (h : parts.Perm parts') : hashedBytes parts = hashedBytes parts' := by
  unfold hashedBytes
  rw [sortParts_perm h]

theorem compose_perm (h : parts.Perm parts') : compose parts = compose parts' := by
  unfold compose
  rw [hashedBytes_perm h]

theorem ofRecords_perm (h : records.Perm records') : ofRecords records = ofRecords records' :=
  compose_perm (h.map _)

/-! ## Length -/

theorem hex16_length (n : UInt64) : (hex16 n).length = 16 := by
  have hle : (Nat.toDigits 16 n.toNat).length ≤ 16 := by
    rw [Nat.length_toDigits_le_iff (by decide) (by decide)]
    exact n.toNat_lt
  unfold hex16
  rw [String.length_ofList, List.length_append, List.length_replicate]
  omega

theorem compose_length (parts : List String) : (compose parts).text.length = 16 :=
  hex16_length _

/-- The empty revision is not composed of anything. -/
theorem compose_text_ne (parts : List String) : (compose parts).text ≠ "" := by
  intro h
  have hlength := compose_length parts
  rw [h] at hlength
  cases hlength

theorem isHeldBy_iff (h : r.text ≠ "") : r.isHeldBy client = true ↔ client = r.text := by
  unfold isHeldBy isEmpty
  rw [@eq_comm _ client]
  simp [h]

end Revision

/-- A client that gives the text of a revision, unless that is empty, has no need of the items;
every other client is told all of them. -/
theorem Versioned.resolve_eq {α : Type} {r : Revision} (h : r.text ≠ "") (client : String)
    (items : Unit → List α) :
    resolve r client items = if client = r.text then .unchanged r else .changed r (items ()) := by
  unfold resolve
  simp only [Revision.isHeldBy_iff h]

end GovernanceCache
