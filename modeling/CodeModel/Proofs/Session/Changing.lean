import CodeModel.Proofs.Graph.Rank
import CodeModel.Proofs.Session.Building
import CodeModel.Session.Change
import Mathlib.Data.List.InsertIdx

/-! Changes go down in rank, so no change puts an entity below itself. -/

namespace CodeModel

namespace ListEdit

def handles {α : Type} : HandleEdit α → List (Handle α)
  | push x | insert _ x | put _ x => [x]
  | _ => []

lemma mem_apply {α : Type} {xs : List (Handle α)} {e : HandleEdit α} {x : Handle α} (h : x ∈ apply xs e) :
    x ∈ xs ∨ x ∈ e.handles := by
  cases e with
  | push y => simpa [apply, handles] using h
  | insert n y =>
    rcases List.eq_or_mem_of_mem_insertIdx h with rfl | h
    · exact .inr (by simp [handles])
    · exact .inl h
  | put n y =>
    rcases List.mem_or_eq_of_mem_set h with h | rfl
    · exact .inl h
    · exact .inr (by simp [handles])
  | remove n => exact .inl (List.mem_of_mem_eraseIdx h)
  | truncate n => exact .inl (List.mem_of_mem_take h)
  | clear => simp [apply] at h
  | reverse => exact .inl (by simpa [apply] using h)

end ListEdit

lemma EntityList.mem_edit {α : Type} {storage : Nat} {edits : List (HandleEdit α)} {l : EntityList α}
    {x : Handle α} (h : x ∈ (l.edit storage edits).items) : x ∈ l.items ∨ x ∈ edits.flatMap ListEdit.handles := by
  obtain ⟨sealed, n, xs⟩ := l
  simp only [edit] at h
  induction edits generalizing xs with
  | nil => exact .inl h
  | cons e edits ih =>
    simp only [List.flatMap_cons, List.mem_append]
    rcases ih (ListEdit.apply xs e) h with h | h
    · exact (ListEdit.mem_apply h).imp_right .inl
    · exact .inr (.inr h)

def Constant.Change.parts : Constant.Change → List Item
  | type t => [.entity .typeRef t]
  | literal l => [l.part]

def Attribute.Change.parts : Attribute.Change → List Item
  | type t => [.entity .typeRef t]
  | positional c => [.entity .constant c]
  | named n => n.parts
  | region r => [r.part]

def Parameter.Change.parts : Parameter.Change → List Item
  | name s => [.text s]
  | type t => [.entity .typeRef t]
  | attributes edits => (edits.flatMap ListEdit.handles).map (.entity .attr)
  | default c => [c.elim .nothing (.entity .constant)]
  | region r => [r.part]
  | mode _ _ => []

def Method.Change.parts : Method.Change → List Item
  | name s => [.text s]
  | returns t => [.entity .typeRef t]
  | parameters edits => (edits.flatMap ListEdit.handles).map (.entity .parameter)
  | attributes edits => (edits.flatMap ListEdit.handles).map (.entity .attr)
  | typeParameter s => [.text s]
  | accessibility _ | modifiers _ => []
  | region r => [r.part]

def Definition.Change.parts : Definition.Change → List Item
  | kind _ | accessibility _ => []
  | base t => [.entity .typeRef t]
  | method m => [.entity .method m]
  | addAttribute a => [.entity .attr a]
  | region r => [r.part]

def Kind.changeParts : (k : Kind) → k.Change → List Item
  | typeRef => fun _ => []
  | constant => Constant.Change.parts
  | attr => Attribute.Change.parts
  | parameter => Parameter.Change.parts
  | method => Method.Change.parts
  | probe _ => fun _ => []

def PartsChange (storage : Nat) (is cs js : List Item) : Prop :=
  ∃ (k : Kind) (items : List (Handle k.Carrier)),
    (∀ x ∈ items, .entity k x ∈ cs ∨ ∃ l, .list k l ∈ is ∧ x ∈ l.items) ∧
    ∀ p ∈ js, p ∈ is ∨ p ∈ cs ∨ p = .list k ⟨false, storage, items⟩

variable {storage : Nat} {is cs js : List Item}

lemma PartsChange.plain (h : ∀ p ∈ js, p ∈ is ∨ p ∈ cs) : PartsChange storage is cs js :=
  ⟨.typeRef, [], by simp, fun p hp => (h p hp).imp_right .inl⟩

lemma PartsChange.edit {k : Kind} {l : EntityList k.Carrier} {edits : List (HandleEdit k.Carrier)}
    (hl : .list k l ∈ is) (hc : ∀ x ∈ edits.flatMap ListEdit.handles, .entity k x ∈ cs)
    (h : ∀ p ∈ js, p ∈ is ∨ p ∈ cs ∨ p = .list k (l.edit storage edits)) : PartsChange storage is cs js := by
  refine ⟨k, (l.edit storage edits).items, fun x hx => ?_, h⟩
  rcases EntityList.mem_edit hx with hx | hx
  · exact .inr ⟨l, hl, hx⟩
  · exact .inl (hc x hx)

lemma PartsChange.add {k : Kind} {l : EntityList k.Carrier} {x : Handle k.Carrier} (hl : .list k l ∈ is)
    (hc : .entity k x ∈ cs) (h : ∀ p ∈ js, p ∈ is ∨ p ∈ cs ∨ p = .list k (l.add storage x)) :
    PartsChange storage is cs js := by
  have brought (y : Handle k.Carrier) (hy : y ∈ [ListEdit.push x].flatMap ListEdit.handles) :
      .entity k y ∈ cs := by
    obtain rfl : y = x := by simpa [ListEdit.handles] using hy
    exact hc
  exact .edit hl brought h

lemma Constant.change_parts (c : Constant) (e : Constant.Change) :
    PartsChange storage c.parts e.parts (c.change e).parts := by
  refine .plain ?_
  cases e <;> simp [parts, change, Change.parts]

lemma Attribute.change_parts (a : Attribute) (e : Attribute.Change) :
    PartsChange storage a.parts e.parts (a.change storage e).parts := by
  cases e with
  | positional c =>
    refine .add (k := .constant) (l := a.positional) (x := c) (by simp [parts]) (by simp [Change.parts])
      fun p hp => ?_
    simp only [parts, change] at hp ⊢
    grind
  | _ =>
    apply PartsChange.plain
    intro p hp
    simp only [parts, change, Change.parts, List.flatMap_append] at hp ⊢
    grind

lemma Parameter.change_parts (p : Parameter) (e : Parameter.Change) :
    PartsChange storage p.parts e.parts (p.change storage e).parts := by
  cases e with
  | attributes edits =>
    refine .edit (k := .attr) (l := p.attributes) (by simp [parts]) (fun x hx => List.mem_map_of_mem hx)
      fun q hq => ?_
    simp only [parts, change] at hq ⊢
    grind
  | _ =>
    apply PartsChange.plain
    intro q hq
    simp only [parts, change, Change.parts] at hq ⊢
    grind

lemma Method.change_parts (m : Method) (e : Method.Change) :
    PartsChange storage m.parts e.parts (m.change storage e).parts := by
  cases e with
  | parameters edits =>
    refine .edit (k := .parameter) (l := m.parameters) (by simp [parts]) (fun x hx => List.mem_map_of_mem hx)
      fun q hq => ?_
    simp only [parts, change] at hq ⊢
    grind
  | attributes edits =>
    refine .edit (k := .attr) (l := m.attributes) (by simp [parts]) (fun x hx => List.mem_map_of_mem hx)
      fun q hq => ?_
    simp only [parts, change] at hq ⊢
    grind
  | _ =>
    apply PartsChange.plain
    intro q hq
    simp only [parts, change, Change.parts, List.map_append] at hq ⊢
    grind

lemma Definition.change_parts (d : Definition) (e : Definition.Change) :
    PartsChange storage d.parts e.parts (d.change storage e).parts := by
  cases e with
  | base t =>
    refine .add (k := .typeRef) (l := d.bases) (x := t) (by simp [parts]) (by simp [Change.parts]) fun q hq => ?_
    simp only [parts, change] at hq ⊢
    grind
  | method m =>
    refine .add (k := .method) (l := d.methods) (x := m) (by simp [parts]) (by simp [Change.parts]) fun q hq => ?_
    simp only [parts, change] at hq ⊢
    grind
  | addAttribute a =>
    refine .add (k := .attr) (l := d.attributes) (x := a) (by simp [parts]) (by simp [Change.parts]) fun q hq => ?_
    simp only [parts, change] at hq ⊢
    grind
  | _ =>
    apply PartsChange.plain
    intro q hq
    simp only [parts, change, Change.parts] at hq ⊢
    grind

lemma Kind.change_parts (k : Kind) (v : k.Carrier) (c : k.Change) :
    PartsChange storage (k.parts v) (k.changeParts c) (k.parts (k.change storage v c)) := by
  cases k with
  | typeRef => exact c.elim
  | constant => exact Constant.change_parts v c
  | attr => exact Attribute.change_parts v c
  | parameter => exact Parameter.change_parts v c
  | method => exact Method.change_parts v c
  | probe => exact c.elim

lemma Kind.two_le_rank (k : Kind) (c : k.Change) : 2 ≤ k.rank := by
  cases k with
  | typeRef => exact c.elim
  | probe => exact c.elim
  | _ => simp [rank]

section Recipes

open Session Builder

variable {σ : Store} {s : Session} {free : List Nat}

lemma ListEdit.build_makes {α : Type} {k : Kind} {f : α → Builder (Handle k.Carrier)} (e : ListEdit α)
    (h : ∀ a is, (f a).Makes (Hand σ s is free) (fun x => Hand σ s (.entity k x :: is) free)) :
    (e.build f).Makes (Hand σ s is free) (fun e => Hand σ s (e.handles.map (.entity k) ++ is) free) := by
  cases e with
  | push a | insert i a | put i a => exact (h a is).bind fun x => .pure fun t ht => ht
  | _ => exact .pure fun t ht => ht

lemma edits_makes {α : Type} {k : Kind} {f : α → Builder (Handle k.Carrier)} (es : List (ListEdit α))
    (h : ∀ a is, (f a).Makes (Hand σ s is free) (fun x => Hand σ s (.entity k x :: is) free)) :
    (es.mapM (ListEdit.build f)).Makes (Hand σ s is free)
      (fun es => Hand σ s ((es.flatMap ListEdit.handles).map (.entity k) ++ is) free) :=
  (mapM_makes (fun e => e.handles.map (.entity k)) es fun e _ _ => e.build_makes h).imp fun es t ht => by
    rwa [List.map_flatMap]

namespace ChangeRecipe

lemma forConstant_makes (c : ChangeRecipe) :
    c.forConstant.Makes (Hand σ s is free) (fun e => Hand σ s (e.parts ++ is) free) := by
  cases c with
  | type t => exact t.build_makes.bind fun t => .pure fun u hu => hu
  | literal l => exact l.build_makes.bind fun l => .pure fun u hu => hu
  | _ => exact .failure

lemma forAttribute_makes (c : ChangeRecipe) :
    c.forAttribute.Makes (Hand σ s is free) (fun e => Hand σ s (e.parts ++ is) free) := by
  cases c with
  | type t => exact t.build_makes.bind fun t => .pure fun u hu => hu
  | positional c => exact c.build_makes.bind fun c => .pure fun u hu => hu
  | named n c => exact (buildNamed_makes (n, c)).bind fun m => .pure fun u hu => hu
  | region r => exact r.build_makes.bind fun r => .pure fun u hu => hu
  | _ => exact .failure

lemma forParameter_makes (c : ChangeRecipe) :
    c.forParameter.Makes (Hand σ s is free) (fun e => Hand σ s (e.parts ++ is) free) := by
  cases c with
  | name t => exact t.build_makes.bind fun t => .pure fun u hu => hu
  | type t => exact t.build_makes.bind fun t => .pure fun u hu => hu
  | attributes edits =>
    exact (edits_makes (k := .attr) edits fun a _ => a.build_makes).bind fun es => .pure fun u hu => hu
  | default c => exact (optionM_makes c fun c _ => c.build_makes).bind fun c => .pure fun u hu => hu
  | region r => exact r.build_makes.bind fun r => .pure fun u hu => hu
  | mode m on => exact .pure fun u hu => hu
  | _ => exact .failure

lemma forMethod_makes (c : ChangeRecipe) :
    c.forMethod.Makes (Hand σ s is free) (fun e => Hand σ s (e.parts ++ is) free) := by
  cases c with
  | name t => exact t.build_makes.bind fun t => .pure fun u hu => hu
  | returns t => exact t.build_makes.bind fun t => .pure fun u hu => hu
  | parameters edits =>
    exact (edits_makes (k := .parameter) edits fun a _ => a.build_makes).bind fun es => .pure fun u hu => hu
  | attributes edits =>
    exact (edits_makes (k := .attr) edits fun a _ => a.build_makes).bind fun es => .pure fun u hu => hu
  | typeParameter v => exact (text_makes v).bind fun t => .pure fun u hu => hu
  | accessibility a => exact .pure fun u hu => hu
  | modifiers m => exact .pure fun u hu => hu
  | region r => exact r.build_makes.bind fun r => .pure fun u hu => hu
  | _ => exact .failure

lemma forDefinition_makes (c : ChangeRecipe) :
    c.forDefinition.Makes (Hand σ s is free) (fun e => Hand σ s (e.parts ++ is) free) := by
  unfold forDefinition
  split
  · exact .pure fun u hu => hu
  · exact .pure fun u hu => hu
  · exact (TypeRecipe.build_makes _).bind fun t => .pure fun u hu => hu
  · exact (MethodRecipe.build_makes _).bind fun m => .pure fun u hu => hu
  · exact (AttributeRecipe.build_makes _).bind fun a => .pure fun u hu => hu
  · exact (RegionRecipe.build_makes _).bind fun r => .pure fun u hu => hu
  · exact .failure

lemma forKind_makes (c : ChangeRecipe) (k : Kind) :
    (c.forKind k).Makes (Hand σ s is free) (fun e => Hand σ s (k.changeParts e ++ is) free) := by
  cases k with
  | typeRef => exact .failure
  | constant => exact c.forConstant_makes
  | attr => exact c.forAttribute_makes
  | parameter => exact c.forParameter_makes
  | method => exact c.forMethod_makes
  | probe => exact .failure

end ChangeRecipe

end Recipes

end CodeModel
