import CodeModel.Frozen

/-! Changes to entities. Each is guarded by the freeze state and sets one field. -/

namespace CodeModel

inductive ListEdit (α : Type) where
  | push (x : α)
  | insert (i : Nat) (x : α)
  | put (i : Nat) (x : α)
  | remove (i : Nat)
  | truncate (n : Nat)
  | clear
  | reverse

def ListEdit.apply {α : Type} (xs : List α) : ListEdit α → List α
  | push x => xs ++ [x]
  | insert i x => xs.insertIdx i x
  | put i x => xs.set i x
  | remove i => xs.eraseIdx i
  | truncate n => xs.take n
  | clear => []
  | reverse => xs.reverse

abbrev HandleEdit (α : Type) := ListEdit (Handle α)

def EntityList.edit {α : Type} (storage : Nat) (edits : List (HandleEdit α)) (l : EntityList α) :
    EntityList α :=
  ⟨false, storage, edits.foldl ListEdit.apply l.items⟩

def EntityList.add {α : Type} (storage : Nat) (x : Handle α) (l : EntityList α) : EntityList α :=
  l.edit storage [.push x]

inductive Constant.Change where
  | type (t : Handle TypeRef)
  | literal (l : Literal)

inductive Attribute.Change where
  | type (t : Handle TypeRef)
  | positional (c : Handle Constant)
  | named (n : NamedArgument)
  | region (r : Region)

inductive Parameter.Change where
  | name (s : Text)
  | type (t : Handle TypeRef)
  | attributes (edits : List (HandleEdit Attribute))
  | default (c : Option (Handle Constant))
  | region (r : Region)
  | mode (m : PassingMode) (on : Bool)

inductive Method.Change where
  | name (s : Text)
  | returns (t : Handle TypeRef)
  | parameters (edits : List (HandleEdit Parameter))
  | attributes (edits : List (HandleEdit Attribute))
  | typeParameter (s : Text)
  | accessibility (a : Accessibility)
  | modifiers (m : MethodModifiers)
  | region (r : Region)

inductive Definition.Change where
  | kind (k : TypeKind)
  | accessibility (a : Accessibility)
  | base (t : Handle TypeRef)
  | method (m : Handle Method)
  | addAttribute (a : Handle Attribute)
  | region (r : Region)

def Constant.change (c : Constant) : Constant.Change → Constant
  | .type t => { c with type := t }
  | .literal l => { c with literal := l }

def Attribute.change (storage : Nat) (a : Attribute) : Attribute.Change → Attribute
  | .type t => { a with type := t }
  | .positional c => { a with positional := a.positional.add storage c }
  | .named n => { a with named := a.named ++ [n] }
  | .region r => { a with region := r }

def Parameter.change (storage : Nat) (p : Parameter) : Parameter.Change → Parameter
  | .name s => { p with name := s }
  | .type t => { p with type := t }
  | .attributes edits => { p with attributes := p.attributes.edit storage edits }
  | .default c => { p with default := c }
  | .region r => { p with region := r }
  | .mode m on => { p with flags := p.flags.put m on }

def Method.change (storage : Nat) (m : Method) : Method.Change → Method
  | .name s => { m with name := s }
  | .returns t => { m with returns := t }
  | .parameters edits => { m with parameters := m.parameters.edit storage edits }
  | .attributes edits => { m with attributes := m.attributes.edit storage edits }
  | .typeParameter s => { m with typeParameters := m.typeParameters ++ [s] }
  | .accessibility a => { m with accessibility := a }
  | .modifiers f => { m with modifiers := f }
  | .region r => { m with region := r }

def Definition.change (storage : Nat) (d : Definition) : Definition.Change → Definition
  | .kind k => { d with kind := k }
  | .accessibility a => { d with accessibility := a }
  | .base t => { d with bases := d.bases.add storage t }
  | .method m => { d with methods := d.methods.add storage m }
  | .addAttribute a => { d with attributes := d.attributes.add storage a }
  | .region r => { d with region := r }

namespace Kind

abbrev Change : Kind → Type
  | typeRef => Empty
  | constant => Constant.Change
  | attr => Attribute.Change
  | parameter => Parameter.Change
  | method => Method.Change
  | probe _ => Empty

def change (storage : Nat) : (k : Kind) → k.Carrier → k.Change → k.Carrier
  | typeRef => fun t _ => t
  | constant => Constant.change
  | attr => Attribute.change storage
  | parameter => Parameter.change storage
  | method => Method.change storage
  | probe _ => fun p _ => p

end Kind

def guarded {α : Type} (frozen : Frozen) (entity : String) (x : Handle α) (v : α) :
    Except ModelError (Handle α) := do
  (frozen.state x.id).checkMutable entity
  return ⟨x.id, v⟩

def Kind.mutate (k : Kind) (frozen : Frozen) (storage : Nat) (x : Handle k.Carrier) (c : k.Change) :
    Except ModelError (Handle k.Carrier) :=
  guarded frozen k.name x (k.change storage x.val c)

def Definition.mutate (frozen : Frozen) (storage : Nat) (d : Handle Definition)
    (c : Definition.Change) : Except ModelError (Handle Definition) :=
  guarded frozen Definition.kindName d (d.val.change storage c)

end CodeModel
