import GovernanceCache.Document.Reader

/-!
# Forms

A form describes a structure by its fields in their order. A document fills a form in two ways: as
an object, whose members are read in the order of their names before absent ones are missed, or as a
list of the fields' values in the order of the form. Members that the form does not know are
skipped.
-/

namespace GovernanceCache

/-- A field of a form: its name, and what its value has to satisfy. -/
structure Form.Field where
  name : String
  accepts : Document → Except DocumentFault Unit

/-- The values that a document gives to the fields, and the faults of required fields without
one. -/
structure Form.Filling where
  value? : String → Option Document
  absent : String → DocumentFault

/-- A structure of type `α` described by its fields. -/
structure Form (α : Type) where
  fields : List Form.Field
  build : Form.Filling → Except DocumentFault α

namespace Form

/-- A form without fields. -/
def pure {α : Type} (a : α) : Form α := ⟨[], fun _ => .ok a⟩

/-- The fields of one form, then those of another. -/
def seq {α β : Type} (f : Form (α → β)) (x : Form α) : Form β :=
  { fields := f.fields ++ x.fields
    build := fun filling => do
      let g ← f.build filling
      let a ← x.build filling
      return g a }

def map {α β : Type} (g : α → β) (x : Form α) : Form β :=
  { fields := x.fields, build := fun filling => (x.build filling).map g }

instance : Functor Form := ⟨map, fun a x => map (fun _ => a) x⟩

def required {α : Type} (name : String) (reader : Reader α) : Form α :=
  { fields := [⟨name, fun d => (reader d).map fun _ => ()⟩]
    build := fun filling =>
      match filling.value? name with
      | some d => reader d
      | none => .error (filling.absent name) }

/-- A field with a value of its own when it is absent. -/
def optional {α : Type} (name : String) (reader : Reader α) (default : α) : Form α :=
  { fields := [⟨name, fun d => (reader d).map fun _ => ()⟩]
    build := fun filling =>
      match filling.value? name with
      | some d => reader d
      | none => .ok default }

def names {α : Type} (form : Form α) : List String := form.fields.map (·.name)

/-- The value of a member is accepted by the field of its name, if there is one. -/
def acceptMember {α : Type} (form : Form α) (member : String × Document) :
    Except DocumentFault Unit :=
  match form.fields.find? fun field => field.name == member.1 with
  | some field => field.accepts member.2
  | none => .ok ()

/-- Reads the form from the members of an object. -/
def readMembers {α : Type} (form : Form α) (members : List (String × Document)) :
    Except DocumentFault α := do
  members.forM form.acceptMember
  form.build { value? := fun name => Document.member? name members, absent := .missingField }

/-- Reads the form from a list of values. -/
def readItems {α : Type} (structName : String) (form : Form α) (items : List Document) :
    Except DocumentFault α := do
  let given := form.names.zip items
  let a ← form.build
    { value? := fun name => Document.member? name given
      absent := fun name => .listTooShort (form.names.idxOf name) structName form.fields.length }
  if form.fields.length < items.length then throw (.listTooLong items.length)
  return a

/-- Reads a structure of the given name from an object or a list. -/
def reader {α : Type} (structName : String) (form : Form α) : Reader α
  | .object members => form.readMembers members
  | .list items => form.readItems structName items
  | d => Reader.refuse d ("struct " ++ structName)

/-- Reads a structure from the members of an object that may hold no other members. -/
def readStrict {α : Type} (form : Form α) (members : List (String × Document)) :
    Except DocumentFault α := do
  members.forM fun member =>
    if form.names.contains member.1 then form.acceptMember member
    else .error (.unknownField member.1 form.names)
  form.build { value? := fun name => Document.member? name members, absent := .missingField }

end Form

end GovernanceCache
