import CodeModel.Proofs.Graph.Twins

namespace CodeModel

def Region.Twin (d : Seeding) (r q : Region) : Prop := r.outline = q.outline ∧ Item.Twin d r.part q.part

def Literal.Twin (d : Seeding) (l m : Literal) : Prop := l.outline = m.outline ∧ Item.Twin d l.part m.part

def NamedArgument.Twin (d : Seeding) (n m : NamedArgument) : Prop :=
  n.name.Twin d m.name ∧ Handle.Twin d .constant n.value m.value

inductive TypeRef.Twin (d : Seeding) : TypeRef → TypeRef → Prop
  | plain (t : SharedType) : Twin d t.handle.val t.handle.val
  | named {ns ns' name name' : Text} {args args' : EntityList TypeRef} : ns.Twin d ns' → name.Twin d name' →
      args.Twin d .typeRef args' → Twin d (named ns name args) (named ns' name' args')
  | array {x y : Handle TypeRef} (rank : UInt32) : x.Twin d .typeRef y → Twin d (array x rank) (array y rank)
  | byRef {x y : Handle TypeRef} : x.Twin d .typeRef y → Twin d (byRef x) (byRef y)

variable {d : Seeding} {i j : Item} {k : Kind}

lemma rel_map {α β γ δ : Type} {R : α → β → Prop} {S : γ → δ → Prop} {f : α → γ} {g : β → δ} {a : Option α}
    {b : Option β} (h : Option.Rel R a b) (hfg : ∀ a b, R a b → S (f a) (g b)) :
    Option.Rel S (a.map f) (b.map g) := by
  cases h with
  | none => exact .none
  | some hab => exact .some (hfg _ _ hab)

section Fields

lemma twin_named {ns ms : List NamedArgument} :
    List.Forall₂ (Item.Twin d) (ns.flatMap NamedArgument.parts) (ms.flatMap NamedArgument.parts) ↔
      List.Forall₂ (NamedArgument.Twin d) ns ms := by
  induction ns generalizing ms with
  | nil => cases ms <;> simp [NamedArgument.parts]
  | cons n ns ih => cases ms <;> simp [NamedArgument.parts, NamedArgument.Twin, ih, and_assoc]

lemma twin_optional {c e : Option (Handle k.Carrier)} :
    Item.Twin d (c.elim .nothing (.entity k)) (e.elim .nothing (.entity k)) ↔ Option.Rel (Handle.Twin d k) c e := by
  cases c <;> cases e <;> simp
  rintro ⟨⟩

lemma Region.twin_iff {r q : Region} : r.Twin d q ↔
    Option.Rel (Text.Twin d) r.file q.file ∧ r.start = q.start ∧ r.stop = q.stop := by
  obtain ⟨f, start, stop⟩ := r
  obtain ⟨g, start', stop'⟩ := q
  cases f <;> cases g <;> simp [Twin, outline, part, and_comm, and_assoc]

lemma forall₂_snoc_iff {R : Item → Item → Prop} {is js : List Item} :
    List.Forall₂ R (is ++ [i]) (js ++ [j]) ↔ List.Forall₂ R is js ∧ R i j :=
  ⟨forall₂_of_snoc, fun h => forall₂_snoc h.1 h.2⟩

lemma TypeRef.twin_iff {v w : TypeRef} : Kind.Twin d .typeRef v w ↔ v.Twin d w := by
  constructor
  · rintro ⟨ho, hp⟩
    cases v <;> cases w <;> simp_all [Kind.outline, outline, Kind.parts, parts]
    · exact .plain .unknown
    · exact .plain .null
    · exact .plain .dynamic
    · exact .named hp.1 hp.2.1 hp.2.2
    · exact .array _ hp
    · exact .byRef hp
  · intro h
    cases h with
    | plain t => exact ⟨rfl, by simp⟩
    | named hns hname hargs => exact ⟨rfl, .cons (.text hns) (.cons (.text hname) (.cons hargs .nil))⟩
    | array rank hx | byRef hx => exact ⟨rfl, .cons hx .nil⟩

lemma Constant.twin_iff {c e : Constant} : Kind.Twin d .constant c e ↔
    Handle.Twin d .typeRef c.type e.type ∧ c.literal.Twin d e.literal := by
  simp [Kind.Twin, Kind.outline, outline, Kind.parts, parts, Literal.Twin]
  tauto

lemma Attribute.twin_iff {a b : Attribute} : Kind.Twin d .attr a b ↔
    Handle.Twin d .typeRef a.type b.type ∧ EntityList.Twin d .constant a.positional b.positional ∧
      List.Forall₂ (NamedArgument.Twin d) a.named b.named ∧ a.region.Twin d b.region := by
  have lengths (h : List.Forall₂ (NamedArgument.Twin d) a.named b.named) := h.length_eq
  simp [Kind.Twin, Kind.outline, outline, Kind.parts, parts, Region.Twin, forall₂_snoc_iff, twin_named]
  tauto

lemma Parameter.twin_iff {p q : Parameter} : Kind.Twin d .parameter p q ↔
    p.name.Twin d q.name ∧ Handle.Twin d .typeRef p.type q.type ∧ EntityList.Twin d .attr p.attributes q.attributes ∧
      Option.Rel (Handle.Twin d .constant) p.default q.default ∧ p.region.Twin d q.region ∧ p.flags = q.flags := by
  have present {c e : Option (Handle Constant)} (h : Option.Rel (Handle.Twin d .constant) c e) :
      (c.map fun _ => (⟨0, .null⟩ : Handle Constant)) = e.map fun _ => ⟨0, .null⟩ := by
    cases h <;> rfl
  have present := @present p.default q.default
  simp only [Kind.Twin, Kind.outline, outline, Kind.parts, parts, Region.Twin, List.forall₂_cons, Parameter.mk.injEq,
    Item.twin_text, List.forall₂_nil_left_iff]
  rw [twin_optional (k := .constant)]
  tauto

lemma Method.twin_iff {m n : Method} : Kind.Twin d .method m n ↔
    m.name.Twin d n.name ∧ Handle.Twin d .typeRef m.returns n.returns ∧
      EntityList.Twin d .parameter m.parameters n.parameters ∧ EntityList.Twin d .attr m.attributes n.attributes ∧
      List.Forall₂ (Text.Twin d) m.typeParameters n.typeParameters ∧ m.accessibility = n.accessibility ∧
      m.modifiers = n.modifiers ∧ m.region.Twin d n.region := by
  have lengths (h : List.Forall₂ (Text.Twin d) m.typeParameters n.typeParameters) := h.length_eq
  simp [Kind.Twin, Kind.outline, outline, Kind.parts, parts, Region.Twin, forall₂_snoc_iff]
  tauto

lemma Definition.twin_iff {v w : Definition} : v.Twin d w ↔
    v.ns.Twin d w.ns ∧ v.name.Twin d w.name ∧ v.kind = w.kind ∧ v.accessibility = w.accessibility ∧
      EntityList.Twin d .typeRef v.bases w.bases ∧ EntityList.Twin d .method v.methods w.methods ∧
      EntityList.Twin d .attr v.attributes w.attributes ∧ v.region.Twin d w.region := by
  simp [Twin, outline, parts, Region.Twin]
  tauto

end Fields

section Reading

variable {l m : EntityList k.Carrier}

lemma EntityList.Twin.items (h : l.Twin d k m) : List.Forall₂ (Handle.Twin d k) l.items m.items :=
  (Item.twin_list.mp h).2.2

lemma EntityList.Twin.length (h : l.Twin d k m) : l.length = m.length := h.items.length_eq

lemma nth?_twins (h : l.Twin d k m) (n : Nat) : Option.Rel (Item.Twin d) (nth? k l n) (nth? k m n) :=
  rel_map (rel_getElem? h.items n) fun _ _ hxy => hxy

lemma Literal.Twin.text? {c e : Constant} (h : c.literal.Twin d e.literal) :
    Option.Rel (Item.Twin d) (c.part? .string) (e.part? .string) := by
  obtain ⟨type, l⟩ := c
  obtain ⟨type', m⟩ := e
  obtain ⟨ho, hp⟩ := h
  cases l <;> cases m <;> simp_all [outline, part, Constant.part?]

lemma Item.Twin.part? (h : i.Twin d j) (seg : Segment) : Option.Rel (Item.Twin d) (i.part? seg) (j.part? seg) := by
  cases h with
  | nothing | text | list => exact .none
  | definition _ ho hp =>
    obtain ⟨-, -, -, -, bases, methods, attributes, -⟩ := Definition.twin_iff.mp ⟨ho, hp⟩
    cases seg with
    | base n => exact nth?_twins bases n
    | method n => exact nth?_twins methods n
    | attr n => exact nth?_twins attributes n
    | _ => exact .none
  | @entity k x y _ ho hp =>
    obtain ⟨id, v⟩ := x
    obtain ⟨id', w⟩ := y
    have twins : Kind.Twin d k v w := ⟨ho, hp⟩
    cases k with
    | probe => exact .none
    | typeRef =>
      cases TypeRef.twin_iff.mp twins with
      | plain t => cases t <;> cases seg <;> exact .none
      | named hns hname hargs =>
        cases seg with
        | ns => exact .some (.text hns)
        | name => exact .some (.text hname)
        | args => exact .some hargs
        | arg n => exact nth?_twins hargs n
        | _ => exact .none
      | array _ hx | byRef hx =>
        cases seg with
        | element => exact .some hx
        | _ => exact .none
    | constant =>
      obtain ⟨type, literal⟩ := Constant.twin_iff.mp twins
      cases seg with
      | type => exact .some type
      | string => exact literal.text?
      | _ => exact .none
    | attr =>
      obtain ⟨type, positional, named, -⟩ := Attribute.twin_iff.mp twins
      cases seg with
      | type => exact .some type
      | positional n => exact nth?_twins positional n
      | named n => exact rel_map (rel_getElem? named n) fun _ _ h => h.2
      | _ => exact .none
    | parameter =>
      obtain ⟨-, type, attributes, default, -⟩ := Parameter.twin_iff.mp twins
      cases seg with
      | type => exact .some type
      | attr n => exact nth?_twins attributes n
      | default => exact rel_map default fun _ _ h => h
      | _ => exact .none
    | method =>
      obtain ⟨-, returns, parameters, attributes, typeParameters, -⟩ := Method.twin_iff.mp twins
      cases seg with
      | returns => exact .some returns
      | parameter n => exact nth?_twins parameters n
      | parameters => exact .some parameters
      | attr n => exact nth?_twins attributes n
      | typeParameter n => exact rel_map (rel_getElem? typeParameters n) fun _ _ h => .text h
      | _ => exact .none

lemma Item.Twin.follow? (h : i.Twin d j) (path : List Segment) :
    Option.Rel (Item.Twin d) (i.follow? path) (j.follow? path) := by
  induction path generalizing i j with
  | nil => exact .some h
  | cons seg path ih =>
    have here := h.part? seg
    simp only [Item.follow?, List.foldlM_cons]
    revert here
    cases i.part? seg <;> cases j.part? seg <;> intro here <;> cases here
    · exact .none
    · exact ih ‹_›

lemma Definition.Twin.fullName {v w : Definition} (h : v.Twin d w) : v.fullName = w.fullName := by
  obtain ⟨ns, name, -⟩ := Definition.twin_iff.mp h
  rw [Definition.fullName, Definition.fullName, ns.1, name.1]

lemma Definition.Twin.findMethods {v w : Definition} (h : v.Twin d w) (name : String) :
    List.Forall₂ (Handle.Twin d .method) (v.findMethods name) (w.findMethods name) := by
  refine rel_filter_eq (Definition.twin_iff.mp h).2.2.2.2.2.1.items fun x y hxy => ?_
  rw [(Method.twin_iff.mp (Item.twin_entity.mp hxy).2).1.1]

end Reading

section Copies

variable {l m : EntityList k.Carrier} {v w : k.Carrier}

lemma EntityList.Twin.copy (h : l.Twin d k m) (storage : Nat) : (l.copy storage).Twin d k (m.copy storage) := by
  unfold EntityList.copy
  rw [(Item.twin_list.mp h).1]
  split
  · exact h
  · exact Item.twin_list.mpr ⟨rfl, rfl, h.items⟩

theorem Kind.Twin.copy (h : k.Twin d v w) (storage : Nat) : k.Twin d (k.copy storage v) (k.copy storage w) := by
  cases k with
  | constant | probe => exact h
  | typeRef =>
    cases TypeRef.twin_iff.mp h with
    | plain t => cases t <;> exact h
    | named hns hname hargs => exact TypeRef.twin_iff.mpr (.named hns hname (hargs.copy storage))
    | array | byRef => exact h
  | attr =>
    obtain ⟨type, positional, rest⟩ := Attribute.twin_iff.mp h
    exact Attribute.twin_iff.mpr ⟨type, positional.copy storage, rest⟩
  | parameter =>
    obtain ⟨name, type, attributes, rest⟩ := Parameter.twin_iff.mp h
    exact Parameter.twin_iff.mpr ⟨name, type, attributes.copy storage, rest⟩
  | method =>
    obtain ⟨name, returns, parameters, attributes, rest⟩ := Method.twin_iff.mp h
    exact Method.twin_iff.mpr
      ⟨name, returns, parameters.copy (k := .parameter) storage, attributes.copy (k := .attr) (storage + 1), rest⟩

end Copies

section Changes

inductive ListEdit.Rel {α β : Type} (R : α → β → Prop) : ListEdit α → ListEdit β → Prop
  | push {x : α} {y : β} : R x y → Rel R (push x) (push y)
  | insert (n : Nat) {x : α} {y : β} : R x y → Rel R (insert n x) (insert n y)
  | put (n : Nat) {x : α} {y : β} : R x y → Rel R (put n x) (put n y)
  | remove (n : Nat) : Rel R (remove n) (remove n)
  | truncate (n : Nat) : Rel R (truncate n) (truncate n)
  | clear : Rel R clear clear
  | reverse : Rel R reverse reverse

def Kind.ChangeTwin (d : Seeding) (k : Kind) (c e : k.Change) : Prop :=
  ∀ storage v w, k.Twin d v w → k.Twin d (k.change storage v c) (k.change storage w e)

def Definition.ChangeTwin (d : Seeding) (c e : Definition.Change) : Prop :=
  ∀ (storage : Nat) (v w : Definition), v.Twin d w → (v.change storage c).Twin d (w.change storage e)

variable {α β : Type} {R : α → β → Prop} {as : List α} {bs : List β} {x : α} {y : β}

lemma rel_insertIdx (n : Nat) (h : List.Forall₂ R as bs) (hxy : R x y) :
    List.Forall₂ R (as.insertIdx n x) (bs.insertIdx n y) := by
  induction h generalizing n with
  | nil => cases n <;> simp [hxy]
  | cons hab h ih =>
    cases n with
    | zero => exact .cons hxy (.cons hab h)
    | succ n => exact .cons hab (ih n)

lemma rel_set (n : Nat) (h : List.Forall₂ R as bs) (hxy : R x y) :
    List.Forall₂ R (as.set n x) (bs.set n y) := by
  induction h generalizing n with
  | nil => exact .nil
  | cons hab h ih =>
    cases n with
    | zero => exact .cons hxy h
    | succ n => exact .cons hab (ih n)

lemma rel_eraseIdx (n : Nat) (h : List.Forall₂ R as bs) : List.Forall₂ R (as.eraseIdx n) (bs.eraseIdx n) := by
  induction h generalizing n with
  | nil => exact .nil
  | cons hab h ih =>
    cases n with
    | zero => exact h
    | succ n => exact .cons hab (ih n)

lemma ListEdit.Rel.apply {e : ListEdit α} {f : ListEdit β} (h : e.Rel R f) (hs : List.Forall₂ R as bs) :
    List.Forall₂ R (e.apply as) (f.apply bs) := by
  cases h with
  | push hxy => exact List.rel_append hs (.cons hxy .nil)
  | insert n hxy => exact rel_insertIdx n hs hxy
  | put n hxy => exact rel_set n hs hxy
  | remove n => exact rel_eraseIdx n hs
  | truncate n => exact List.forall₂_take n hs
  | clear => exact .nil
  | reverse => exact List.rel_reverse hs

lemma rel_edits {es : List (ListEdit α)} {fs : List (ListEdit β)} (h : List.Forall₂ (ListEdit.Rel R) es fs)
    (hs : List.Forall₂ R as bs) : List.Forall₂ R (es.foldl ListEdit.apply as) (fs.foldl ListEdit.apply bs) := by
  induction h generalizing as bs with
  | nil => exact hs
  | cons he _ ih => exact ih (he.apply hs)

lemma EntityList.Twin.edit {l m : EntityList k.Carrier} (h : l.Twin d k m) (storage : Nat)
    {es fs : List (HandleEdit k.Carrier)} (he : List.Forall₂ (ListEdit.Rel (Handle.Twin d k)) es fs) :
    (l.edit storage es).Twin d k (m.edit storage fs) :=
  Item.twin_list.mpr ⟨rfl, rfl, rel_edits he h.items⟩

lemma EntityList.Twin.add {l m : EntityList k.Carrier} {x y : Handle k.Carrier} (h : l.Twin d k m) (storage : Nat)
    (hxy : x.Twin d k y) : (l.add storage x).Twin d k (m.add storage y) :=
  h.edit storage (.cons (.push hxy) .nil)

end Changes

end CodeModel
