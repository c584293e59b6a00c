import CodeModel.Entity.Change
import CodeModel.Proofs.Graph.Store

/-! A change of an owner edits one of its lists or none, and a copy of it has lists of the same elements. -/

namespace CodeModel

structure EntityList.Duplicates {α : Type} (fresh : Nat) (l m : EntityList α) : Prop where
  items : m.items = l.items
  sealed : l.sealed = true → m = l
  owned : l.sealed = false → m.sealed = false ∧ fresh ≤ m.storage

lemma EntityList.duplicates_copy {α : Type} {fresh storage : Nat} (l : EntityList α) (h : fresh ≤ storage) :
    l.Duplicates fresh (l.copy storage) := by
  cases hs : l.sealed with
  | true => exact ⟨by simp [copy, hs], fun _ => by simp [copy, hs], by simp [hs]⟩
  | false => exact ⟨by simp [copy, hs, owned], by simp [hs], fun _ => by simpa [copy, hs, owned] using h⟩

namespace Item

def isList : Item → Bool
  | list .. => true
  | _ => false

def lists : Item → List Item
  | list k l => [list k l]
  | i => i.parts.filter isList

@[simp] lemma isList_list (k : Kind) (l : EntityList k.Carrier) : (list k l).isList = true := rfl

@[simp] lemma isList_entity (k : Kind) (x : Handle k.Carrier) : (entity k x).isList = false := rfl

@[simp] lemma isList_text (t : Text) : (text t).isList = false := rfl

@[simp] lemma isList_nothing : nothing.isList = false := rfl

@[simp] lemma isList_region (r : Region) : r.part.isList = false := by
  cases h : r.file <;> simp [Region.part, h]

@[simp] lemma filter_named (ns : List NamedArgument) : (ns.flatMap NamedArgument.parts).filter isList = [] := by
  induction ns with
  | nil => rfl
  | cons n ns ih => simp [NamedArgument.parts, ih]

@[simp] lemma filter_texts (ts : List Text) : (ts.map text).filter isList = [] := by
  induction ts with
  | nil => rfl
  | cons t ts ih => simp [ih]

@[simp] lemma lists_list (k : Kind) (l : EntityList k.Carrier) : (list k l).lists = [list k l] := rfl

@[simp] lemma lists_constant (x : Handle Constant) : (entity .constant x).lists = [] := by
  cases h : x.val.literal <;> simp [lists, Kind.parts, Constant.parts, Literal.part, h]

@[simp] lemma lists_attr (x : Handle Attribute) : (entity .attr x).lists = [list .constant x.val.positional] := by
  simp [lists, Kind.parts, Attribute.parts, List.filter_cons]

@[simp] lemma lists_parameter (x : Handle Parameter) :
    (entity .parameter x).lists = [list .attr x.val.attributes] := by
  cases h : x.val.default <;> simp [lists, Kind.parts, Parameter.parts, List.filter_cons, h]

@[simp] lemma lists_method (x : Handle Method) :
    (entity .method x).lists = [list .parameter x.val.parameters, list .attr x.val.attributes] := by
  simp [lists, Kind.parts, Method.parts, List.filter_cons]

@[simp] lemma lists_definition (d : Handle Definition) : (definition d).lists =
    [list .typeRef d.val.bases, list .method d.val.methods, list .attr d.val.attributes] := by
  simp [lists, Definition.parts, List.filter_cons]

end Item

namespace ListEdit

variable {α : Type} {xs ys : List α} {e : ListEdit α} {es : List (ListEdit α)}

inductive Makes : ListEdit α → List α → List α → Prop
  | push {x : α} {xs : List α} : Makes (.push x) xs (xs ++ [x])
  | insert {x : α} {before after : List α} : Makes (.insert before.length x) (before ++ after) (before ++ x :: after)
  | put {x y : α} {before after : List α} : Makes (.put before.length x) (before ++ y :: after) (before ++ x :: after)
  | remove {y : α} {before after : List α} : Makes (.remove before.length) (before ++ y :: after) (before ++ after)
  | truncate {before after : List α} : Makes (.truncate before.length) (before ++ after) before
  | clear {xs : List α} : Makes .clear xs []
  | reverse {xs ys : List α} : ys.length = xs.length → (∀ i j, i + j + 1 = xs.length → ys[i]? = xs[j]?) →
    Makes .reverse xs ys
  | insert_beyond {i : Nat} {x : α} {xs : List α} : xs.length < i → Makes (.insert i x) xs xs
  | put_beyond {i : Nat} {x : α} {xs : List α} : xs.length ≤ i → Makes (.put i x) xs xs
  | remove_beyond {i : Nat} {xs : List α} : xs.length ≤ i → Makes (.remove i) xs xs
  | truncate_beyond {n : Nat} {xs : List α} : xs.length ≤ n → Makes (.truncate n) xs xs

inductive MakesAll : List (ListEdit α) → List α → List α → Prop
  | nil {xs : List α} : MakesAll [] xs xs
  | cons {e : ListEdit α} {es : List (ListEdit α)} {xs ys zs : List α} :
    e.Makes xs ys → MakesAll es ys zs → MakesAll (e :: es) xs zs

lemma insertIdx_split (before after : List α) (x : α) :
    (before ++ after).insertIdx before.length x = before ++ x :: after := by
  induction before with
  | nil => exact List.insertIdx_zero
  | cons y before ih => simp [ih]

lemma eraseIdx_split (before after : List α) (y : α) :
    (before ++ y :: after).eraseIdx before.length = before ++ after := by
  simp [List.eraseIdx_append_of_length_le]

lemma exists_split {i : Nat} (h : i ≤ xs.length) : ∃ before after, before.length = i ∧ before ++ after = xs :=
  ⟨xs.take i, xs.drop i, List.length_take_of_le h, List.take_append_drop i xs⟩

lemma exists_split_cons {i : Nat} (h : i < xs.length) :
    ∃ before y after, before.length = i ∧ before ++ y :: after = xs :=
  ⟨xs.take i, xs[i], xs.drop (i + 1), List.length_take_of_le (Nat.le_of_lt h), by simp⟩

lemma makes_apply (xs : List α) (e : ListEdit α) : e.Makes xs (e.apply xs) := by
  cases e with
  | push x => exact .push
  | insert i x =>
    rcases Nat.lt_or_ge xs.length i with beyond | within
    · rw [apply, List.insertIdx_of_length_lt beyond]
      exact .insert_beyond beyond
    · obtain ⟨before, after, rfl, rfl⟩ := exists_split within
      rw [apply, insertIdx_split]
      exact .insert
  | put i x =>
    rcases Nat.lt_or_ge i xs.length with within | beyond
    · obtain ⟨before, y, after, rfl, rfl⟩ := exists_split_cons within
      rw [apply, List.set_append_right _ _ (Nat.le_refl _), Nat.sub_self]
      exact .put
    · rw [apply, List.set_eq_of_length_le beyond]
      exact .put_beyond beyond
  | remove i =>
    rcases Nat.lt_or_ge i xs.length with within | beyond
    · obtain ⟨before, y, after, rfl, rfl⟩ := exists_split_cons within
      rw [apply, eraseIdx_split]
      exact .remove
    · rw [apply, List.eraseIdx_of_length_le beyond]
      exact .remove_beyond beyond
  | truncate n =>
    rcases Nat.le_total n xs.length with within | beyond
    · obtain ⟨before, after, rfl, rfl⟩ := exists_split within
      rw [apply, List.take_left]
      exact .truncate
    · rw [apply, List.take_of_length_le beyond]
      exact .truncate_beyond beyond
  | clear => exact .clear
  | reverse => exact .reverse List.length_reverse fun i j h => List.getElem?_reverse' h

lemma Makes.eq_apply (h : e.Makes xs ys) : ys = e.apply xs := by
  cases h with
  | push | clear => rfl
  | insert => exact (insertIdx_split ..).symm
  | put => simp [apply]
  | remove => exact (eraseIdx_split ..).symm
  | truncate => exact List.take_left.symm
  | reverse length mirrored =>
    refine List.ext_getElem? fun i => ?_
    rcases Nat.lt_or_ge i xs.length with hi | hi
    · have opposite : i + (xs.length - 1 - i) + 1 = xs.length := by omega
      rw [mirrored i _ opposite, apply, List.getElem?_reverse' opposite]
    · rw [List.getElem?_eq_none (by omega), List.getElem?_eq_none (by rwa [apply, List.length_reverse])]
  | insert_beyond beyond => exact (List.insertIdx_of_length_lt beyond).symm
  | put_beyond beyond => exact (List.set_eq_of_length_le beyond).symm
  | remove_beyond beyond => exact (List.eraseIdx_of_length_le beyond).symm
  | truncate_beyond beyond => exact (List.take_of_length_le beyond).symm

lemma makes_iff : e.Makes xs ys ↔ ys = e.apply xs :=
  ⟨Makes.eq_apply, fun h => h ▸ makes_apply xs e⟩

theorem makesAll_iff : MakesAll es xs ys ↔ ys = es.foldl apply xs := by
  constructor
  · intro h
    induction h with
    | nil => rfl
    | cons makes _ ih => rw [ih, makes_iff.mp makes, List.foldl_cons]
  · rintro rfl
    induction es generalizing xs with
    | nil => exact .nil
    | cons e es ih => exact .cons (makes_iff.mpr rfl) ih

end ListEdit

structure SlotEdit where
  slot : Nat
  kind : Kind
  edits : List (HandleEdit kind.Carrier)

/-- Of the lists `is` one becomes what the edits make of its elements, in new storage; the others stay. -/
def SlotEdit.Writes (e : SlotEdit) (storage : Nat) (is js : List Item) : Prop :=
  ∃ (l : EntityList e.kind.Carrier) (items : List (Handle e.kind.Carrier)), is[e.slot]? = some (.list e.kind l) ∧
    ListEdit.MakesAll e.edits l.items items ∧ js = is.set e.slot (.list e.kind ⟨false, storage, items⟩)

def Attribute.Change.slotEdit? : Attribute.Change → Option SlotEdit
  | positional c => some ⟨0, .constant, [.push c]⟩
  | _ => none

def Parameter.Change.slotEdit? : Parameter.Change → Option SlotEdit
  | attributes edits => some ⟨0, .attr, edits⟩
  | _ => none

def Method.Change.slotEdit? : Method.Change → Option SlotEdit
  | parameters edits => some ⟨0, .parameter, edits⟩
  | attributes edits => some ⟨1, .attr, edits⟩
  | _ => none

def Definition.Change.slotEdit? : Definition.Change → Option SlotEdit
  | base t => some ⟨0, .typeRef, [.push t]⟩
  | method m => some ⟨1, .method, [.push m]⟩
  | addAttribute a => some ⟨2, .attr, [.push a]⟩
  | _ => none

def Kind.slotEdit? : (k : Kind) → k.Change → Option SlotEdit
  | typeRef => fun c => c.elim
  | constant => fun _ => none
  | attr => Attribute.Change.slotEdit?
  | parameter => Parameter.Change.slotEdit?
  | method => Method.Change.slotEdit?
  | probe _ => fun c => c.elim

def Relists (storage : Nat) (e? : Option SlotEdit) (is js : List Item) : Prop :=
  (e? = none → js = is) ∧ ∀ e, e? = some e → e.Writes storage is js

lemma relists_none {storage : Nat} {is : List Item} : Relists storage none is is :=
  ⟨fun _ => rfl, nofun⟩

lemma relists_some {storage : Nat} {e : SlotEdit} {is js : List Item} (h : e.Writes storage is js) :
    Relists storage (some e) is js :=
  ⟨nofun, fun _ he => Option.some.inj he ▸ h⟩

lemma Relists.unedited {storage : Nat} {e : SlotEdit} {is js : List Item} (h : Relists storage (some e) is js)
    (he : e.edits = []) : js.map Item.parts = is.map Item.parts := by
  obtain ⟨l, items, hl, makes, rfl⟩ := h.2 e rfl
  rw [he] at makes
  cases makes
  have same : (is.map Item.parts)[e.slot]? = some (Item.list e.kind l).parts := by rw [List.getElem?_map, hl]; rfl
  rw [List.map_set]
  apply List.ext_getElem?
  intro n
  rw [List.getElem?_set]
  split
  next hn =>
    subst hn
    rw [same, if_pos (List.getElem?_eq_some_iff.mp same).1]
    rfl
  next => rfl

theorem Kind.change_relists (k : Kind) (x : Handle k.Carrier) (c : k.Change) (storage : Nat) :
    Relists storage (k.slotEdit? c) (Item.entity k x).lists
      (Item.entity k ⟨x.id, k.change storage x.val c⟩).lists := by
  cases k with
  | typeRef => exact c.elim
  | probe => exact c.elim
  | constant => simpa [slotEdit?] using relists_none
  | attr =>
    rw [Item.lists_attr, Item.lists_attr]
    cases c with
    | positional c => exact relists_some ⟨x.val.positional, _, rfl, ListEdit.makesAll_iff.mpr rfl, rfl⟩
    | _ => exact relists_none
  | parameter =>
    rw [Item.lists_parameter, Item.lists_parameter]
    cases c with
    | attributes edits => exact relists_some ⟨x.val.attributes, _, rfl, ListEdit.makesAll_iff.mpr rfl, rfl⟩
    | _ => exact relists_none
  | method =>
    rw [Item.lists_method, Item.lists_method]
    cases c with
    | parameters edits => exact relists_some ⟨x.val.parameters, _, rfl, ListEdit.makesAll_iff.mpr rfl, rfl⟩
    | attributes edits => exact relists_some ⟨x.val.attributes, _, rfl, ListEdit.makesAll_iff.mpr rfl, rfl⟩
    | _ => exact relists_none

theorem Definition.change_relists (d : Handle Definition) (c : Definition.Change) (storage : Nat) :
    Relists storage c.slotEdit? (Item.definition d).lists (Item.definition ⟨d.id, d.val.change storage c⟩).lists := by
  rw [Item.lists_definition, Item.lists_definition]
  cases c with
  | base t => exact relists_some ⟨d.val.bases, _, rfl, ListEdit.makesAll_iff.mpr rfl, rfl⟩
  | method m => exact relists_some ⟨d.val.methods, _, rfl, ListEdit.makesAll_iff.mpr rfl, rfl⟩
  | addAttribute a => exact relists_some ⟨d.val.attributes, _, rfl, ListEdit.makesAll_iff.mpr rfl, rfl⟩
  | _ => exact relists_none

inductive Item.Duplicates (fresh : Nat) : Item → Item → Prop
  | list {k : Kind} {l m : EntityList k.Carrier} : l.Duplicates fresh m → Duplicates fresh (.list k l) (.list k m)

lemma Kind.copy_outline (k : Kind) (storage : Nat) (v : k.Carrier) : k.outline (k.copy storage v) = k.outline v := by
  cases k with
  | typeRef => cases v <;> rfl
  | _ => rfl

inductive Item.Copies (fresh : Nat) : Item → Item → Prop
  | same {i : Item} : i.isList = false → Copies fresh i i
  | list {k : Kind} {l m : EntityList k.Carrier} : l.Duplicates fresh m → Copies fresh (.list k l) (.list k m)

lemma Item.copies_same {fresh : Nat} {is : List Item} (h : is.filter isList = []) :
    List.Forall₂ (Item.Copies fresh) is is :=
  List.forall₂_same.mpr fun i hi => .same (by simpa using List.filter_eq_nil_iff.mp h i hi)

theorem Kind.copy_parts (k : Kind) (storage : Nat) (v : k.Carrier) :
    List.Forall₂ (Item.Copies storage) (k.parts v) (k.parts (k.copy storage v)) := by
  have copied (j : Kind) (l : EntityList j.Carrier) {a : Nat} (ha : storage ≤ a) :
      Item.Copies storage (.list j l) (.list j (l.copy a)) := .list (l.duplicates_copy ha)
  cases k with
  | constant => exact Item.copies_same (Item.lists_constant ⟨0, v⟩)
  | probe =>
    obtain ⟨hash, tag, child⟩ := v
    cases child <;> exact .cons (.same rfl) .nil
  | typeRef =>
    cases v with
    | named ns name args => exact .cons (.same rfl) (.cons (.same rfl) (.cons (copied .typeRef args (Nat.le_refl _)) .nil))
    | unknown | null | dynamic => exact .nil
    | array | byRef => exact .cons (.same rfl) .nil
  | attr => exact .cons (.same rfl) (.cons (copied .constant v.positional (Nat.le_refl _)) (Item.copies_same (by simp)))
  | parameter =>
    refine .cons (.same rfl) (.cons (.same rfl) (.cons (copied .attr v.attributes (Nat.le_refl _)) (Item.copies_same ?_)))
    cases v.default <;> simp
  | method =>
    exact .cons (.same rfl) (.cons (.same rfl) (.cons (copied .parameter v.parameters (Nat.le_refl _))
      (.cons (copied .attr v.attributes (Nat.le_succ _)) (Item.copies_same (by simp)))))

theorem Kind.copy_matches (k : Kind) (storage : Nat) (v : k.Carrier)
    (h : ∀ j l, Item.list j l ∈ k.parts v → l.sealed = true ∨ l.items = []) :
    List.Forall₂ Item.Matches (k.parts v) (k.parts (k.copy storage v)) := by
  have row := (List.forall₂_and_left (p := fun i => ∀ j l, i = Item.list j l → l.sealed = true ∨ l.items = []) _ _).mpr
    ⟨fun i hi j l hl => h j l (hl ▸ hi), k.copy_parts storage v⟩
  refine row.imp fun i j ⟨hi, copies⟩ => ?_
  cases copies with
  | same => exact .refl _
  | @list j l m duplicates =>
    rcases hi j l rfl with sealed | empty
    · rw [duplicates.sealed sealed]
      exact .refl _
    · exact .empty empty (duplicates.items.trans empty)

theorem Kind.copy_bare (k : Kind) (storage : Nat) (v : k.Carrier) : k.bare (k.copy storage v) = k.bare v := by
  refine Kind.bare_eq_iff.mpr ⟨k.copy_outline storage v, ?_⟩
  rw [← List.forall₂_eq_eq_eq, List.forall₂_map_left_iff, List.forall₂_map_right_iff]
  refine (k.copy_parts storage v).flip.imp fun j i copies => ?_
  cases copies with
  | same => rfl
  | list duplicates => simp [Item.bare, EntityList.bare, duplicates.items]

lemma Item.duplicates_lists {fresh : Nat} {is js : List Item} (h : List.Forall₂ (Item.Copies fresh) is js) :
    List.Forall₂ (Item.Duplicates fresh) (is.filter isList) (js.filter isList) := by
  induction h with
  | nil => exact .nil
  | cons copies _ ih =>
    cases copies with
    | same hi => simpa [hi] using ih
    | list duplicates => exact .cons (.list duplicates) ih

theorem Kind.copy_duplicates (k : Kind) (x : Handle k.Carrier) (id storage : Nat) :
    List.Forall₂ (Item.Duplicates storage) (Item.entity k x).lists
      (Item.entity k ⟨id, k.copy storage x.val⟩).lists :=
  Item.duplicates_lists (k.copy_parts storage x.val)

end CodeModel
