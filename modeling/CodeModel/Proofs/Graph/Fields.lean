import CodeModel.Entity.Change
import CodeModel.Session.Item
import Mathlib.Tactic.Lemma

/-! A change writes the field that it addresses and leaves every other field as it is. -/

namespace CodeModel

inductive Field where
  | ns
  | name
  | type
  | literal
  | positional
  | named
  | attributes
  | default
  | region
  | flag (bit : Fin 8)
  | returns
  | parameters
  | typeParameters
  | accessibility
  | modifiers
  | kind
  | bases
  | methods
deriving DecidableEq

inductive Content where
  | text (t : Text)
  | type (t : Handle TypeRef)
  | literal (l : Literal)
  | list (k : Kind) (l : EntityList k.Carrier)
  | named (ns : List NamedArgument)
  | constant (c : Option (Handle Constant))
  | region (r : Region)
  | bit (on : Bool)
  | texts (ts : List Text)
  | accessibility (a : Accessibility)
  | modifiers (m : MethodModifiers)
  | kind (k : TypeKind)

section Flags

def PassingMode.index : PassingMode → Fin 8
  | ref => 0
  | out => 1
  | params => 2

lemma PassingMode.bit_eq (m : PassingMode) (i : Fin 8) : m.bit.toBitVec[i.val] = decide (i = m.index) := by
  cases m <;> revert i <;> decide

namespace ParameterFlags

def bit (f : ParameterFlags) (i : Fin 8) : Bool := f.bits.toBitVec[i.val]

theorem put_bit (f : ParameterFlags) (m : PassingMode) (on : Bool) (i : Fin 8) :
    (f.put m on).bit i = if i = m.index then on else f.bit i := by
  cases on
  · simp [put, bit, m.bit_eq, Bool.and_comm]
  · simp [put, bit, m.bit_eq, Bool.or_comm]

lemma eq_of_bits {f g : ParameterFlags} (h : ∀ i, f.bit i = g.bit i) : f = g := by
  have bits : f.bits.toBitVec = g.bits.toBitVec := BitVec.eq_of_getElem_eq fun i hi => h ⟨i, hi⟩
  obtain ⟨⟨b⟩⟩ := f
  obtain ⟨⟨c⟩⟩ := g
  exact congrArg (fun b => ParameterFlags.mk ⟨b⟩) bits

end ParameterFlags

end Flags

section Fields

def Constant.field (c : Constant) : Field → Option Content
  | .type => some (.type c.type)
  | .literal => some (.literal c.literal)
  | _ => none

def Attribute.field (a : Attribute) : Field → Option Content
  | .type => some (.type a.type)
  | .positional => some (.list .constant a.positional)
  | .named => some (.named a.named)
  | .region => some (.region a.region)
  | _ => none

def Parameter.field (p : Parameter) : Field → Option Content
  | .name => some (.text p.name)
  | .type => some (.type p.type)
  | .attributes => some (.list .attr p.attributes)
  | .default => some (.constant p.default)
  | .region => some (.region p.region)
  | .flag i => some (.bit (p.flags.bit i))
  | _ => none

def Method.field (m : Method) : Field → Option Content
  | .name => some (.text m.name)
  | .returns => some (.type m.returns)
  | .parameters => some (.list .parameter m.parameters)
  | .attributes => some (.list .attr m.attributes)
  | .typeParameters => some (.texts m.typeParameters)
  | .accessibility => some (.accessibility m.accessibility)
  | .modifiers => some (.modifiers m.modifiers)
  | .region => some (.region m.region)
  | _ => none

def Definition.field (d : Definition) : Field → Option Content
  | .ns => some (.text d.ns)
  | .name => some (.text d.name)
  | .kind => some (.kind d.kind)
  | .accessibility => some (.accessibility d.accessibility)
  | .bases => some (.list .typeRef d.bases)
  | .methods => some (.list .method d.methods)
  | .attributes => some (.list .attr d.attributes)
  | .region => some (.region d.region)
  | _ => none

def Kind.field : (k : Kind) → k.Carrier → Field → Option Content
  | typeRef => fun _ _ => none
  | constant => Constant.field
  | attr => Attribute.field
  | parameter => Parameter.field
  | method => Method.field
  | probe _ => fun _ _ => none

def Item.field : Item → Field → Option Content
  | entity k x => k.field x.val
  | definition d => d.val.field
  | _ => fun _ => none

end Fields

section Complete

lemma Constant.eq_of_fields {c d : Constant} (h : c.field = d.field) : c = d := by
  have fields := And.intro (congrFun h .type) (congrFun h .literal)
  cases c
  cases d
  simpa [field] using fields

lemma Attribute.eq_of_fields {a b : Attribute} (h : a.field = b.field) : a = b := by
  have fields := And.intro (congrFun h .type) <| And.intro (congrFun h .positional) <| And.intro (congrFun h .named)
    (congrFun h .region)
  cases a
  cases b
  simpa [field] using fields

lemma Parameter.eq_of_fields {p q : Parameter} (h : p.field = q.field) : p = q := by
  have fields := And.intro (congrFun h .name) <| And.intro (congrFun h .type) <| And.intro (congrFun h .attributes) <|
    And.intro (congrFun h .default) (congrFun h .region)
  have flags : p.flags = q.flags := ParameterFlags.eq_of_bits fun i => by simpa [field] using congrFun h (.flag i)
  cases p
  cases q
  simp_all [field]

lemma Method.eq_of_fields {m n : Method} (h : m.field = n.field) : m = n := by
  have fields := And.intro (congrFun h .name) <| And.intro (congrFun h .returns) <|
    And.intro (congrFun h .parameters) <| And.intro (congrFun h .attributes) <|
    And.intro (congrFun h .typeParameters) <| And.intro (congrFun h .accessibility) <|
    And.intro (congrFun h .modifiers) (congrFun h .region)
  cases m
  cases n
  simpa [field] using fields

lemma Definition.eq_of_fields {d e : Definition} (h : d.field = e.field) : d = e := by
  have fields := And.intro (congrFun h .ns) <| And.intro (congrFun h .name) <| And.intro (congrFun h .kind) <|
    And.intro (congrFun h .accessibility) <| And.intro (congrFun h .bases) <| And.intro (congrFun h .methods) <|
    And.intro (congrFun h .attributes) (congrFun h .region)
  cases d
  cases e
  simpa [field] using fields

theorem Kind.eq_of_fields {k : Kind} (c : k.Change) {v w : k.Carrier} (h : k.field v = k.field w) : v = w := by
  cases k with
  | typeRef | probe => exact c.elim
  | constant => exact Constant.eq_of_fields h
  | attr => exact Attribute.eq_of_fields h
  | parameter => exact Parameter.eq_of_fields h
  | method => exact Method.eq_of_fields h

end Complete

section Writing

def Content.edited {k : Kind} (storage : Nat) (l : EntityList k.Carrier) (edits : List (HandleEdit k.Carrier)) :
    Content :=
  .list k ⟨false, storage, edits.foldl ListEdit.apply l.items⟩

def Content.appended {k : Kind} (storage : Nat) (l : EntityList k.Carrier) (x : Handle k.Carrier) : Content :=
  .list k ⟨false, storage, l.items ++ [x]⟩

def Constant.Change.written : Constant.Change → Field × Content
  | type t => (.type, .type t)
  | literal l => (.literal, .literal l)

def Attribute.Change.written (storage : Nat) (a : Attribute) : Attribute.Change → Field × Content
  | type t => (.type, .type t)
  | positional c => (.positional, .appended (k := .constant) storage a.positional c)
  | named n => (.named, .named (a.named ++ [n]))
  | region r => (.region, .region r)

def Parameter.Change.written (storage : Nat) (p : Parameter) : Parameter.Change → Field × Content
  | name s => (.name, .text s)
  | type t => (.type, .type t)
  | attributes edits => (.attributes, .edited (k := .attr) storage p.attributes edits)
  | default c => (.default, .constant c)
  | region r => (.region, .region r)
  | mode m on => (.flag m.index, .bit on)

def Method.Change.written (storage : Nat) (m : Method) : Method.Change → Field × Content
  | name s => (.name, .text s)
  | returns t => (.returns, .type t)
  | parameters edits => (.parameters, .edited (k := .parameter) storage m.parameters edits)
  | attributes edits => (.attributes, .edited (k := .attr) storage m.attributes edits)
  | typeParameter s => (.typeParameters, .texts (m.typeParameters ++ [s]))
  | accessibility a => (.accessibility, .accessibility a)
  | modifiers f => (.modifiers, .modifiers f)
  | region r => (.region, .region r)

def Definition.Change.written (storage : Nat) (d : Definition) : Definition.Change → Field × Content
  | kind k => (.kind, .kind k)
  | accessibility a => (.accessibility, .accessibility a)
  | base t => (.bases, .appended (k := .typeRef) storage d.bases t)
  | method m => (.methods, .appended (k := .method) storage d.methods m)
  | addAttribute a => (.attributes, .appended (k := .attr) storage d.attributes a)
  | region r => (.region, .region r)

def Kind.written (storage : Nat) : (k : Kind) → k.Carrier → k.Change → Field × Content
  | typeRef => fun _ c => c.elim
  | constant => fun _ c => c.written
  | attr => fun a c => c.written storage a
  | parameter => fun p c => c.written storage p
  | method => fun m c => c.written storage m
  | probe _ => fun _ c => c.elim

def Sets (before after : Field → Option Content) (w : Field × Content) : Prop :=
  after w.1 = some w.2 ∧ ∀ f, f ≠ w.1 → after f = before f

variable {storage : Nat}

lemma Constant.change_sets (c : Constant) (e : Constant.Change) : Sets c.field (c.change e).field e.written := by
  refine ⟨?_, fun f hf => ?_⟩
  · cases e <;> rfl
  · cases e <;> cases f <;> first | rfl | exact absurd rfl hf

lemma Attribute.change_sets (a : Attribute) (e : Attribute.Change) :
    Sets a.field (a.change storage e).field (e.written storage a) := by
  refine ⟨?_, fun f hf => ?_⟩
  · cases e <;> rfl
  · cases e <;> cases f <;> first | rfl | exact absurd rfl hf

lemma Parameter.change_sets (p : Parameter) (e : Parameter.Change) :
    Sets p.field (p.change storage e).field (e.written storage p) := by
  cases e with
  | mode m on =>
    refine ⟨by simp [Change.written, change, field, ParameterFlags.put_bit], fun f hf => ?_⟩
    cases f with
    | flag i =>
      have other : i ≠ m.index := fun h => hf (h ▸ rfl)
      simp [change, field, ParameterFlags.put_bit, other]
    | _ => rfl
  | _ => exact ⟨rfl, fun f hf => by cases f <;> first | rfl | exact absurd rfl hf⟩

lemma Method.change_sets (m : Method) (e : Method.Change) :
    Sets m.field (m.change storage e).field (e.written storage m) := by
  refine ⟨?_, fun f hf => ?_⟩
  · cases e <;> rfl
  · cases e <;> cases f <;> first | rfl | exact absurd rfl hf

lemma Definition.change_sets (d : Definition) (e : Definition.Change) :
    Sets d.field (d.change storage e).field (e.written storage d) := by
  refine ⟨?_, fun f hf => ?_⟩
  · cases e <;> rfl
  · cases e <;> cases f <;> first | rfl | exact absurd rfl hf

theorem Kind.change_sets (k : Kind) (v : k.Carrier) (c : k.Change) :
    Sets (k.field v) (k.field (k.change storage v c)) (k.written storage v c) := by
  cases k with
  | typeRef | probe => exact c.elim
  | constant => exact Constant.change_sets v c
  | attr => exact Attribute.change_sets v c
  | parameter => exact Parameter.change_sets v c
  | method => exact Method.change_sets v c

end Writing

end CodeModel
