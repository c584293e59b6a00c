import CodeModel.Session.Item
import Mathlib.Data.List.Forall2
import Mathlib.Tactic.Lemma

/-! The parts of an item, in the order in which interning prepares them, and what lies within an item. -/

namespace CodeModel

def Region.part (r : Region) : Item := r.file.elim .nothing .text

def TypeRef.parts : TypeRef → List Item
  | named ns name args => [.text ns, .text name, .list .typeRef args]
  | array e _ => [.entity .typeRef e]
  | byRef e => [.entity .typeRef e]
  | _ => []

def Literal.part : Literal → Item
  | string t => .text t
  | _ => .nothing

def Constant.parts (c : Constant) : List Item := [.entity .typeRef c.type, c.literal.part]

def NamedArgument.parts (n : NamedArgument) : List Item := [.text n.name, .entity .constant n.value]

def Attribute.parts (a : Attribute) : List Item :=
  [.entity .typeRef a.type, .list .constant a.positional] ++ a.named.flatMap NamedArgument.parts ++
    [a.region.part]

def Parameter.parts (p : Parameter) : List Item :=
  [.text p.name, .entity .typeRef p.type, .list .attr p.attributes,
    p.default.elim .nothing (.entity .constant), p.region.part]

def Method.parts (m : Method) : List Item :=
  [.text m.name, .entity .typeRef m.returns, .list .parameter m.parameters, .list .attr m.attributes] ++
    m.typeParameters.map .text ++ [m.region.part]

def Definition.parts (d : Definition) : List Item :=
  [.text d.ns, .text d.name, .list .typeRef d.bases, .list .method d.methods, .list .attr d.attributes,
    d.region.part]

def Probe.parts (series : ProbeSeries) : Probe → List Item
  | mk _ _ child => [child.elim .nothing (.entity (.probe series))]

def Kind.parts : (k : Kind) → k.Carrier → List Item
  | typeRef => TypeRef.parts
  | constant => Constant.parts
  | attr => Attribute.parts
  | parameter => Parameter.parts
  | method => Method.parts
  | probe series => Probe.parts series

/-- Probes are no part of a model. -/
def Kind.isModel : Kind → Bool
  | probe _ => false
  | _ => true

namespace Item

def parts : Item → List Item
  | entity k x => k.parts x.val
  | list k l => l.items.map (.entity k)
  | definition d => d.val.parts
  | _ => []

def label? : Item → Option Nat
  | entity _ x => some x.id
  | definition d => some d.id
  | _ => none

def IsModel : Item → Prop
  | entity k _ => k.isModel = true
  | list k _ => k.isModel = true
  | _ => True

/-- `Within j i`: item `j` is `i`, or a part of it at some depth. -/
inductive Within : Item → Item → Prop
  | refl (i : Item) : Within i i
  | part {j p i : Item} : p ∈ i.parts → Within j p → Within j i

def Labels (i : Item) (id : Nat) : Prop := ∃ j, Within j i ∧ j.label? = some id

@[simp] lemma parts_entity (k : Kind) (x : Handle k.Carrier) : (entity k x).parts = k.parts x.val := rfl

@[simp] lemma parts_list (k : Kind) (l : EntityList k.Carrier) :
    (list k l).parts = l.items.map (.entity k) := rfl

@[simp] lemma parts_definition (d : Handle Definition) : (definition d).parts = d.val.parts := rfl

@[simp] lemma parts_text (t : Text) : (text t).parts = [] := rfl

@[simp] lemma parts_nothing : nothing.parts = [] := rfl

lemma typeRef_induction {P : Item → Prop} (step : ∀ i : Item, (∀ j ∈ i.parts, P j) → P i)
    (t : TypeRef) (id : Nat) : P (.entity .typeRef ⟨id, t⟩) := by
  have text (s : Text) : P (.text s) := step _ (by simp)
  -- the recursor goes through the type arguments: list, elements, handles
  refine TypeRef.rec
    (motive_1 := fun t => ∀ id, P (.entity .typeRef ⟨id, t⟩))
    (motive_2 := fun l => P (.list .typeRef l))
    (motive_3 := fun x => P (.entity .typeRef x))
    (motive_4 := fun xs => ∀ x ∈ xs, P (.entity .typeRef x))
    ?_ ?_ ?_ ?_ ?_ ?_ ?_ ?_ ?_ ?_ t id
  case refine_1 | refine_2 | refine_3 => exact fun id => step _ (by simp [Kind.parts, TypeRef.parts])
  case refine_4 =>
    intro ns name args ih id
    refine step _ ?_
    simp only [parts_entity, Kind.parts, TypeRef.parts, List.mem_cons, List.not_mem_nil, or_false]
    rintro j (rfl | rfl | rfl)
    · exact text ns
    · exact text name
    · exact ih
  case refine_5 => exact fun e rank ih id => step _ (by simpa [Kind.parts, TypeRef.parts] using ih)
  case refine_6 => exact fun e ih id => step _ (by simpa [Kind.parts, TypeRef.parts] using ih)
  case refine_7 => exact fun _ _ items ih => step _ (by simpa using ih)
  case refine_8 => exact fun id _ ih => ih id
  case refine_9 => simp
  case refine_10 => exact fun x xs hx hxs => by simpa using ⟨hx, hxs⟩

theorem induction {P : Item → Prop} (step : ∀ i : Item, (∀ j ∈ i.parts, P j) → P i) (i : Item) : P i := by
  have nothing : P .nothing := step _ (by simp)
  have text (t : Text) : P (.text t) := step _ (by simp)
  have region (r : Region) : P r.part := by
    cases h : r.file <;> simp [Region.part, h, nothing, text]
  have list (k : Kind) (h : ∀ x : Handle k.Carrier, P (.entity k x)) (l : EntityList k.Carrier) :
      P (.list k l) := step _ (by simp [h])
  have typeRef (x : Handle TypeRef) : P (.entity .typeRef x) := typeRef_induction step x.val x.id
  have constant (x : Handle Constant) : P (.entity .constant x) := by
    refine step _ ?_
    have literal : P x.val.literal.part := by cases x.val.literal <;> simp [Literal.part, nothing, text]
    simpa [Kind.parts, Constant.parts] using ⟨typeRef _, literal⟩
  have attr (x : Handle Attribute) : P (.entity .attr x) := by
    refine step _ ?_
    simp only [parts_entity, Kind.parts, Attribute.parts, List.mem_append, List.mem_cons,
      List.not_mem_nil, or_false, List.mem_flatMap, NamedArgument.parts]
    rintro j (((rfl | rfl) | ⟨n, _, rfl | rfl⟩) | rfl)
    · exact typeRef _
    · exact list .constant constant _
    · exact text _
    · exact constant _
    · exact region _
  have parameter (x : Handle Parameter) : P (.entity .parameter x) := by
    refine step _ ?_
    have default : P (x.val.default.elim .nothing (.entity .constant)) := by
      cases x.val.default <;> simp [nothing, constant]
    simpa [Kind.parts, Parameter.parts] using
      ⟨text _, typeRef _, list .attr attr _, default, region _⟩
  have method (x : Handle Method) : P (.entity .method x) := by
    refine step _ ?_
    simp only [parts_entity, Kind.parts, Method.parts, List.mem_append, List.mem_cons,
      List.not_mem_nil, or_false, List.mem_map]
    rintro j (((rfl | rfl | rfl | rfl) | ⟨t, _, rfl⟩) | rfl)
    · exact text _
    · exact typeRef _
    · exact list .parameter parameter _
    · exact list .attr attr _
    · exact text _
    · exact region _
  have probe (series : ProbeSeries) (p : Probe) : ∀ id, P (.entity (.probe series) ⟨id, p⟩) := by
    refine Probe.rec
      (motive_1 := fun p => ∀ id, P (.entity (.probe series) ⟨id, p⟩))
      (motive_2 := fun c => P (c.elim .nothing (.entity (.probe series))))
      (motive_3 := fun x => P (.entity (.probe series) x)) ?_ ?_ ?_ ?_ p
    · intro _ _ child ih id
      exact step _ (by simpa [Kind.parts, Probe.parts] using ih)
    · exact nothing
    · exact fun _ ih => ih
    · exact fun id _ ih => ih id
  have entity (k : Kind) (x : Handle k.Carrier) : P (.entity k x) := by
    cases k with
    | typeRef => exact typeRef x
    | constant => exact constant x
    | attr => exact attr x
    | parameter => exact parameter x
    | method => exact method x
    | probe series => exact probe series x.val x.id
  cases i with
  | nothing => exact nothing
  | text t => exact text t
  | entity k x => exact entity k x
  | list k l => exact list k (entity k) l
  | definition d =>
    refine step _ ?_
    simpa [Definition.parts] using
      ⟨text _, text _, list .typeRef typeRef _, list .method method _, list .attr attr _, region _⟩

lemma Within.trans {i j k : Item} (hij : Within i j) (hjk : Within j k) : Within i k := by
  induction hjk with
  | refl => exact hij
  | part hp _ ih => exact .part hp ih

lemma within_iff {j i : Item} : Within j i ↔ j = i ∨ ∃ p ∈ i.parts, Within j p := by
  constructor
  · rintro (_ | ⟨hp, hj⟩)
    · exact .inl rfl
    · exact .inr ⟨_, hp, hj⟩
  · rintro (rfl | ⟨p, hp, hj⟩)
    · exact .refl _
    · exact .part hp hj

lemma Within.eq_of_leaf {a i : Item} (h : Within a i) (hi : i.parts = []) : a = i :=
  (within_iff.mp h).resolve_right (by simp [hi])

theorem not_within_part (i : Item) : ∀ p ∈ i.parts, ¬ Within i p := by
  induction i using Item.induction with
  | step i ih =>
    intro p hp h
    cases h with
    | refl => exact ih i hp i hp (.refl i)
    | part hq h => exact ih p hp _ hq (Within.part hp (.refl p) |>.trans h)

lemma labels_iff {i : Item} {id : Nat} :
    i.Labels id ↔ i.label? = some id ∨ ∃ p ∈ i.parts, p.Labels id := by
  constructor
  · rintro ⟨j, hj, hl⟩
    obtain rfl | ⟨p, hp, hj⟩ := within_iff.mp hj
    · exact .inl hl
    · exact .inr ⟨p, hp, j, hj, hl⟩
  · rintro (h | ⟨p, hp, j, hj, hl⟩)
    · exact ⟨i, .refl i, h⟩
    · exact ⟨j, .part hp hj, hl⟩

@[simp] lemma labels_text (t : Text) (id : Nat) : ¬ (text t).Labels id := by
  rw [labels_iff]
  simp [label?]

@[simp] lemma labels_nothing (id : Nat) : ¬ nothing.Labels id := by
  rw [labels_iff]
  simp [label?]

lemma labels_entity {k : Kind} {x : Handle k.Carrier} {id : Nat} :
    (entity k x).Labels id ↔ x.id = id ∨ ∃ p ∈ k.parts x.val, p.Labels id := by
  rw [labels_iff]
  simp [label?]

@[simp] lemma parts_shared (t : SharedType) : Kind.typeRef.parts t.handle.val = [] := by cases t <;> rfl

@[simp] lemma labels_shared {t : SharedType} {id : Nat} :
    (entity .typeRef t.handle).Labels id ↔ t.handle.id = id := by
  rw [labels_entity]
  simp

@[simp] lemma isModel_entity (k : Kind) (x : Handle k.Carrier) : (entity k x).IsModel ↔ k.isModel = true :=
  .rfl

@[simp] lemma isModel_list (k : Kind) (l : EntityList k.Carrier) : (list k l).IsModel ↔ k.isModel = true :=
  .rfl

@[simp] lemma isModel_text (t : Text) : (text t).IsModel := trivial

@[simp] lemma isModel_definition (d : Handle Definition) : (definition d).IsModel := trivial

@[simp] lemma isModel_literal (l : Literal) : l.part.IsModel := by cases l <;> trivial

@[simp] lemma isModel_region (r : Region) : r.part.IsModel := by
  cases h : r.file <;> simp only [Region.part, h] <;> trivial

@[simp] lemma isModel_default (c : Option (Handle Constant)) :
    (c.elim nothing (entity .constant)).IsModel := by cases c <;> trivial

lemma IsModel.parts {i : Item} (h : i.IsModel) : ∀ p ∈ i.parts, p.IsModel := by
  cases i with
  | nothing | text => simp
  | list k l => simpa using fun x _ => h
  | definition d => simp [Definition.parts, Kind.isModel]
  | entity k x =>
    cases k with
    | typeRef => cases hx : x.val <;> simp [Kind.parts, TypeRef.parts, Kind.isModel, hx]
    | constant => simp [Kind.parts, Constant.parts, Kind.isModel]
    | attr =>
      simp only [parts_entity, Kind.parts, Attribute.parts, List.mem_append, List.mem_cons,
        List.not_mem_nil, or_false, List.mem_flatMap, NamedArgument.parts]
      rintro p (((rfl | rfl) | ⟨n, _, rfl | rfl⟩) | rfl) <;> simp [Kind.isModel]
    | parameter => simp [Kind.parts, Parameter.parts, Kind.isModel]
    | method =>
      simp only [parts_entity, Kind.parts, Method.parts, List.mem_append, List.mem_cons,
        List.not_mem_nil, or_false, List.mem_map]
      rintro p (((rfl | rfl | rfl | rfl) | ⟨t, _, rfl⟩) | rfl) <;> simp [Kind.isModel]
    | probe series => simp [Kind.isModel] at h

end Item

end CodeModel
