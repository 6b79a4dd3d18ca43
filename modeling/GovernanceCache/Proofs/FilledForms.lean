import GovernanceCache.Document.Form
import Mathlib.Data.String.Basic

/-!
# Forms that are filled with what was written

A form gives a value back from the entries that the value is written as.

1. `Form.Restores` says so of any filling with the entries, and holds of required fields, optional
   fields and their composition (`Restores.required`, `Restores.optional`, `Restores.seq`).
2. The members of a written object are the entries in the order of their names, so that those that
   are kept fill the form (`fills_keptMembers`).
3. Hence the value is read back from the document, whatever entries are left out that may be
   (`Restores.isReadBack`).
-/

namespace GovernanceCache

/-! ## Entries -/

/-- A field of a structure as a value of it is written. -/
structure Form.Entry where
  name : String
  value : Document
  /-- It may be left out. -/
  spare : Prop

/-- The document without the members of the given names. -/
def Document.without (names : List String) : Document → Document
  | .object members => .object (members.filter fun m => decide (m.1 ∉ names))
  | d => d

/-- Without any name left out, it is the document itself. -/
theorem Document.without_nil (d : Document) : d.without [] = d := by
  cases d with
  | object members => exact congrArg Document.object (List.filter_eq_self.mpr (by simp))
  | _ => rfl

namespace Form

variable {α β : Type} {entries : List Entry} {a : α}

/-- A filling gives every entry, but for some that may be left out. -/
def Fills (value? : String → Option Document) (entries : List Entry) : Prop :=
  ∀ e ∈ entries, value? e.name = some e.value ∨ (value? e.name = none ∧ e.spare)

/-- The entries are those of the form's fields, and whatever gives them is accepted and makes
`a`. -/
structure Restores (form : Form α) (entries : List Entry) (a : α) : Prop where
  names : form.names = entries.map Entry.name
  accepts : ∀ value?, Fills value? entries → ∀ field ∈ form.fields, ∀ d,
    value? field.name = some d → field.accepts d = .ok ()
  builds : ∀ filling, Fills filling.value? entries → form.build filling = .ok a

/-! ## What forms restore -/

namespace Restores

/-- A field accepts what it reads. -/
theorem accepted {name : String} {reader : Reader α} {d : Document} {spare : Prop}
    (h : reader d = .ok a) {value? : String → Option Document}
    (hf : Fills value? [⟨name, d, spare⟩]) {d' : Document} (hd : value? name = some d') :
    ((reader d').map fun _ => ()) = .ok () := by
  rcases hf _ List.mem_cons_self with hgiven | ⟨hnone, -⟩
  · obtain rfl := Option.some.inj (hgiven.symm.trans hd)
    rw [h]
    rfl
  · cases hnone.symm.trans hd

theorem required {name : String} {reader : Reader α} {d : Document} (h : reader d = .ok a) :
    (Form.required name reader).Restores [⟨name, d, False⟩] a where
  names := rfl
  accepts value? hf field hfield d' hd := by
    obtain rfl := List.mem_singleton.mp hfield
    exact accepted h hf hd
  builds filling hf := by
    rcases hf _ List.mem_cons_self with hd | ⟨-, hspare⟩
    · simp only [Form.required, hd]
      exact h
    · exact hspare.elim

theorem optional {name : String} {reader : Reader α} {d : Document} {default : α}
    (h : reader d = .ok a) :
    (Form.optional name reader default).Restores [⟨name, d, a = default⟩] a where
  names := rfl
  accepts value? hf field hfield d' hd := by
    obtain rfl := List.mem_singleton.mp hfield
    exact accepted h hf hd
  builds filling hf := by
    rcases hf _ List.mem_cons_self with hd | ⟨hnone, hspare⟩
    · simp only [Form.optional, hd]
      exact h
    · simp only [Form.optional, hnone]
      exact congrArg Except.ok hspare.symm

theorem map (g : α → β) {form : Form α} (h : form.Restores entries a) :
    (g <$> form).Restores entries (g a) where
  names := h.names
  accepts := h.accepts
  builds filling hf := by
    show (form.build filling).map g = _
    rw [h.builds filling hf]
    rfl

theorem seq {more : List Entry} {f : Form (α → β)} {g : α → β} {x : Form α}
    (hf : f.Restores entries g) (hx : x.Restores more a) :
    (f.seq x).Restores (entries ++ more) (g a) where
  names := by
    show (f.fields ++ x.fields).map _ = _
    rw [List.map_append, List.map_append]
    exact congrArg₂ _ hf.names hx.names
  accepts value? hfills field hfield := by
    rcases List.mem_append.mp hfield with hfield | hfield
    · exact hf.accepts value? (fun e he => hfills e (List.mem_append_left _ he)) field hfield
    · exact hx.accepts value? (fun e he => hfills e (List.mem_append_right _ he)) field hfield
  builds filling hfills := by
    show (f.build filling >>= fun g => x.build filling >>= fun a => Except.ok (g a)) = _
    rw [hf.builds filling fun e he => hfills e (List.mem_append_left _ he),
      hx.builds filling fun e he => hfills e (List.mem_append_right _ he)]
    rfl

end Restores

end Form

/-! ## The members of a document -/

namespace Document

variable {members : List (String × Document)} {name : String}

/-- A member is found under its name if no other one has it. -/
theorem member?_eq_some {d : Document} (hn : (members.map Prod.fst).Nodup)
    (h : (name, d) ∈ members) : member? name members = some d := by
  induction members with
  | nil => cases h
  | cons m rest ih =>
    rw [List.map_cons, List.nodup_cons] at hn
    unfold member?
    rcases List.mem_cons.mp h with rfl | hrest
    · rw [List.find?_cons_of_pos (by exact beq_self_eq_true name)]
      rfl
    · have hne : m.1 ≠ name := fun heq => hn.1 (heq ▸ List.mem_map_of_mem hrest)
      rw [List.find?_cons_of_neg (by simp [hne])]
      exact ih hn.2 hrest

theorem member?_eq_none (h : name ∉ members.map Prod.fst) : member? name members = none := by
  unfold member?
  rw [List.find?_eq_none.mpr]
  · rfl
  · intro m hm heq
    exact h (List.mem_map.mpr ⟨m, hm, eq_of_beq heq⟩)

end Document

namespace Form

variable {α β : Type} {entries : List Entry} {a : α}

/-- The members that are written of entries, in the order of their names and without some. -/
def keptMembers (entries : List Entry) (dropped : List String) : List (String × Document) :=
  ((entries.map fun e => (e.name, e.value)).mergeSort fun a b => decide (a.1 ≤ b.1)).filter
    fun m => decide (m.1 ∉ dropped)

theorem mem_keptMembers {dropped : List String} {m : String × Document} :
    m ∈ keptMembers entries dropped ↔
      (∃ e ∈ entries, (e.name, e.value) = m) ∧ m.1 ∉ dropped := by
  unfold keptMembers
  rw [List.mem_filter, List.mem_mergeSort, List.mem_map, decide_eq_true_iff]

theorem keptMembers_distinct (h : (entries.map Entry.name).Nodup) (dropped : List String) :
    ((keptMembers entries dropped).map Prod.fst).Nodup := by
  have hperm := (entries.map fun e => (e.name, e.value)).mergeSort_perm
    fun a b => decide (a.1 ≤ b.1)
  have hsorted := (hperm.map Prod.fst).nodup_iff.mpr (by rw [List.map_map]; exact h)
  exact hsorted.sublist (List.filter_sublist.map _)

theorem fills_keptMembers (h : (entries.map Entry.name).Nodup) {dropped : List String}
    (hd : ∀ e ∈ entries, e.name ∈ dropped → e.spare) :
    Fills (fun name => Document.member? name (keptMembers entries dropped)) entries := by
  intro e he
  by_cases hdropped : e.name ∈ dropped
  · refine .inr ⟨Document.member?_eq_none fun hmem => ?_, hd e he hdropped⟩
    obtain ⟨m, hm, hname⟩ := List.mem_map.mp hmem
    exact (mem_keptMembers.mp hm).2 (hname ▸ hdropped)
  · exact .inl (Document.member?_eq_some (keptMembers_distinct h dropped)
      (mem_keptMembers.mpr ⟨⟨e, he, rfl⟩, hdropped⟩))

/-! ## Reading back -/

/-- Reading takes `a` back from its document, whatever entries are left out that may be. -/
def IsReadBack (read : Reader α) (written : Document) (entries : List Entry) (a : α) : Prop :=
  ∀ dropped : List String, (∀ e ∈ entries, e.name ∈ dropped → e.spare) →
    read (written.without dropped) = .ok a

theorem forM_eq_ok {f : β → Except DocumentFault Unit} {l : List β} (h : ∀ x ∈ l, f x = .ok ()) :
    l.forM f = .ok () := by
  induction l with
  | nil => rfl
  | cons x rest ih =>
    show (f x >>= fun _ => rest.forM f) = _
    rw [h x List.mem_cons_self]
    exact ih fun y hy => h y (List.mem_cons_of_mem _ hy)

/-- An object that gives the entries is read, whatever else it holds. -/
theorem Restores.readMembers {form : Form α} (h : form.Restores entries a)
    {members : List (String × Document)} (hn : (members.map Prod.fst).Nodup)
    (hf : Fills (fun name => Document.member? name members) entries) :
    form.readMembers members = .ok a := by
  have haccept : ∀ m ∈ members, form.acceptMember m = .ok () := by
    intro m hm
    unfold acceptMember
    split
    · rename_i field hfield
      refine h.accepts _ hf field (List.mem_of_find?_eq_some hfield) m.2 ?_
      have hname := List.find?_some hfield
      rw [eq_of_beq hname]
      exact Document.member?_eq_some hn hm
    · rfl
  unfold Form.readMembers
  rw [forM_eq_ok haccept]
  exact h.builds _ hf

/-- What is restored from every filling is read back. -/
theorem Restores.isReadBack {form : Form α} (h : form.Restores entries a) (hn : form.names.Nodup)
    (structName : String) :
    IsReadBack (form.reader structName)
      (.ofFields (entries.map fun e => (e.name, e.value))) entries a := by
  intro dropped hd
  rw [h.names] at hn
  exact h.readMembers (keptMembers_distinct hn dropped) (fills_keptMembers hn hd)

end Form

end GovernanceCache
