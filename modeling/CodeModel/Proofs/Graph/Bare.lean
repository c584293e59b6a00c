import CodeModel.Proofs.Graph.Parts
import CodeModel.Session.Path

/-! Structural values: an item is bare once its labels are taken out, at every depth. -/

namespace CodeModel

def Text.bare (t : Text) : Text := ⟨0, t.val⟩

def Handle.bare {α : Type} (f : α → α) (x : Handle α) : Handle α := ⟨0, f x.val⟩

def EntityList.bare {α : Type} (f : α → α) (l : EntityList α) : EntityList α :=
  ⟨false, 0, l.items.map (Handle.bare f)⟩

def Region.bare (r : Region) : Region := { r with file := r.file.map Text.bare }

namespace TypeRef

mutual

def bare : TypeRef → TypeRef
  | named ns name args => named ns.bare name.bare ⟨false, 0, bareAll args.items⟩
  | array e rank => array ⟨0, e.val.bare⟩ rank
  | byRef e => byRef ⟨0, e.val.bare⟩
  | t => t

def bareAll : List (Handle TypeRef) → List (Handle TypeRef)
  | [] => []
  | x :: xs => ⟨0, x.val.bare⟩ :: bareAll xs

end

lemma bareAll_eq (xs : List (Handle TypeRef)) : bareAll xs = xs.map (Handle.bare bare) := by
  induction xs with
  | nil => rfl
  | cons x xs ih => simp [bareAll, ih, Handle.bare]

lemma bare_named (ns name : Text) (args : EntityList TypeRef) :
    (named ns name args).bare = named ns.bare name.bare (args.bare bare) := by
  simp [bare, bareAll_eq, EntityList.bare]

def outline : TypeRef → TypeRef
  | named _ _ _ => named .empty .empty .empty
  | array _ rank => array SharedType.unknown.handle rank
  | byRef _ => byRef SharedType.unknown.handle
  | t => t

end TypeRef

def Region.outline (r : Region) : Region := { r with file := r.file.map fun _ => .empty }

namespace Literal

def bare : Literal → Literal
  | string s => string s.bare
  | l => l

def outline : Literal → Literal
  | string _ => string .empty
  | l => l

end Literal

namespace Constant

def bare (c : Constant) : Constant := ⟨c.type.bare TypeRef.bare, c.literal.bare⟩

def outline (c : Constant) : Constant := ⟨SharedType.unknown.handle, c.literal.outline⟩

end Constant

def NamedArgument.bare (n : NamedArgument) : NamedArgument := ⟨n.name.bare, n.value.bare Constant.bare⟩

namespace Attribute

def bare (a : Attribute) : Attribute :=
  ⟨a.type.bare TypeRef.bare, a.positional.bare Constant.bare, a.named.map NamedArgument.bare, a.region.bare⟩

def outline (a : Attribute) : Attribute :=
  ⟨SharedType.unknown.handle, .empty, a.named.map fun _ => ⟨.empty, ⟨0, .null⟩⟩, a.region.outline⟩

end Attribute

namespace Parameter

def bare (p : Parameter) : Parameter :=
  ⟨p.name.bare, p.type.bare TypeRef.bare, p.attributes.bare Attribute.bare,
    p.default.map (Handle.bare Constant.bare), p.region.bare, p.flags⟩

def outline (p : Parameter) : Parameter :=
  ⟨.empty, SharedType.unknown.handle, .empty, p.default.map fun _ => ⟨0, .null⟩, p.region.outline, p.flags⟩

end Parameter

namespace Method

def bare (m : Method) : Method :=
  ⟨m.name.bare, m.returns.bare TypeRef.bare, m.parameters.bare Parameter.bare,
    m.attributes.bare Attribute.bare, m.typeParameters.map Text.bare, m.accessibility, m.modifiers,
    m.region.bare⟩

def outline (m : Method) : Method :=
  ⟨.empty, SharedType.unknown.handle, .empty, .empty, m.typeParameters.map fun _ => .empty,
    m.accessibility, m.modifiers, m.region.outline⟩

end Method

namespace Definition

def bare (d : Definition) : Definition :=
  ⟨d.ns.bare, d.name.bare, d.kind, d.accessibility, d.bases.bare TypeRef.bare, d.methods.bare Method.bare,
    d.attributes.bare Attribute.bare, d.region.bare⟩

def outline (d : Definition) : Definition :=
  ⟨.empty, .empty, d.kind, d.accessibility, .empty, .empty, .empty, d.region.outline⟩

end Definition

namespace Probe

def bare : Probe → Probe
  | mk hash tag none => mk hash tag none
  | mk hash tag (some x) => mk hash tag (some ⟨0, x.val.bare⟩)

def outline : Probe → Probe
  | mk hash tag child => mk hash tag (child.map fun _ => ⟨0, mk 0 0 none⟩)

end Probe

namespace Kind

def bare : (k : Kind) → k.Carrier → k.Carrier
  | typeRef => TypeRef.bare
  | constant => Constant.bare
  | attr => Attribute.bare
  | parameter => Parameter.bare
  | method => Method.bare
  | probe _ => Probe.bare

def outline : (k : Kind) → k.Carrier → k.Carrier
  | typeRef => TypeRef.outline
  | constant => Constant.outline
  | attr => Attribute.outline
  | parameter => Parameter.outline
  | method => Method.outline
  | probe _ => Probe.outline

end Kind

def Item.bare : Item → Item
  | nothing => nothing
  | text t => text t.bare
  | entity k x => entity k (x.bare k.bare)
  | list k l => list k (l.bare k.bare)
  | definition d => definition (d.bare Definition.bare)

@[simp] lemma Item.bare_text (t : Text) : (Item.text t).bare = .text t.bare := rfl

@[simp] lemma Item.bare_nothing : Item.nothing.bare = .nothing := rfl

@[simp] lemma Item.bare_entity (k : Kind) (x : Handle k.Carrier) :
    (Item.entity k x).bare = .entity k (x.bare k.bare) := rfl

@[simp] lemma Item.bare_list (k : Kind) (l : EntityList k.Carrier) :
    (Item.list k l).bare = .list k (l.bare k.bare) := rfl

@[simp] lemma Region.part_bare (r : Region) : r.bare.part = r.part.bare := by
  cases h : r.file <;> simp [Region.bare, Region.part, h]

@[simp] lemma Literal.part_bare (l : Literal) : l.bare.part = l.part.bare := by cases l <;> rfl

lemma NamedArgument.parts_bare (ns : List NamedArgument) :
    (ns.map bare).flatMap parts = (ns.flatMap parts).map Item.bare := by
  induction ns with
  | nil => rfl
  | cons n ns ih => simp [ih, parts, bare, Kind.bare]

namespace Kind

theorem parts_bare (k : Kind) (v : k.Carrier) : k.parts (k.bare v) = (k.parts v).map Item.bare := by
  cases k with
  | typeRef =>
    cases v <;> simp [parts, bare, TypeRef.parts, TypeRef.bare, TypeRef.bareAll_eq, Handle.bare,
      EntityList.bare]
  | constant => simp [parts, bare, Constant.parts, Constant.bare]
  | attr => simp [parts, bare, Attribute.parts, Attribute.bare, NamedArgument.parts_bare]
  | parameter =>
    cases h : v.default <;> simp [parts, bare, Parameter.parts, Parameter.bare, h]
  | method => simp [parts, bare, Method.parts, Method.bare, Function.comp_def]
  | probe series =>
    obtain ⟨hash, tag, _ | x⟩ := v <;>
      simp [parts, bare, Probe.parts, Probe.bare, Handle.bare]

theorem outline_bare (k : Kind) (v : k.Carrier) : k.outline (k.bare v) = k.outline v := by
  cases k with
  | typeRef => cases v <;> rfl
  | constant =>
    cases h : v.literal <;>
      simp [outline, bare, Constant.outline, Constant.bare, h, Literal.bare, Literal.outline]
  | attr =>
    simp [outline, bare, Attribute.outline, Attribute.bare, Region.outline, Region.bare, Function.comp_def]
  | parameter =>
    simp [outline, bare, Parameter.outline, Parameter.bare, Region.outline, Region.bare, Function.comp_def]
  | method =>
    simp [outline, bare, Method.outline, Method.bare, Region.outline, Region.bare, Function.comp_def]
  | probe series => obtain ⟨hash, tag, _ | x⟩ := v <;> rfl

end Kind

lemma Region.bare_congr {r s : Region} (ho : r.outline = s.outline) (hp : r.part.bare = s.part.bare) :
    r.bare = s.bare := by
  obtain ⟨f, b, e⟩ := r
  obtain ⟨g, c, d⟩ := s
  cases f <;> cases g <;> simp_all [outline, bare, part]

lemma Literal.bare_congr {l m : Literal} (ho : l.outline = m.outline) (hp : l.part.bare = m.part.bare) :
    l.bare = m.bare := by
  cases l <;> cases m <;> simp_all [outline, bare, part]

lemma NamedArgument.bare_congr {ns ms : List NamedArgument}
    (h : (ns.flatMap parts).map Item.bare = (ms.flatMap parts).map Item.bare) :
    ns.map bare = ms.map bare := by
  induction ns generalizing ms with
  | nil => cases ms <;> simp_all [parts]
  | cons n ns ih =>
    cases ms with
    | nil => simp [parts] at h
    | cons m ms =>
      simp only [List.flatMap_cons, parts, List.cons_append, List.nil_append, List.map_cons,
        List.cons.injEq, Item.bare_text, Item.bare_entity, Item.text.injEq, Item.entity.injEq] at h
      obtain ⟨hn, ⟨-, hv⟩, hs⟩ := h
      simp [bare, hn, ih hs]
      exact eq_of_heq hv

namespace Kind

theorem bare_congr {k : Kind} {v w : k.Carrier} (ho : k.outline v = k.outline w)
    (hp : (k.parts v).map Item.bare = (k.parts w).map Item.bare) : k.bare v = k.bare w := by
  cases k with
  | typeRef =>
    cases v <;> cases w <;>
      simp_all [outline, TypeRef.outline, parts, TypeRef.parts, bare, TypeRef.bare_named] <;>
      simp_all [TypeRef.bare, Handle.bare]
  | constant =>
    obtain ⟨t, l⟩ := v
    obtain ⟨u, m⟩ := w
    simp_all [outline, Constant.outline, parts, Constant.parts, bare, Constant.bare]
    exact Literal.bare_congr ho hp.2
  | attr =>
    obtain ⟨t, ps, ns, r⟩ := v
    obtain ⟨u, qs, ms, s⟩ := w
    simp_all [outline, Attribute.outline, parts, Attribute.parts, bare, Attribute.bare]
    exact ⟨NamedArgument.bare_congr hp.2.2.1, Region.bare_congr ho.2 hp.2.2.2⟩
  | parameter =>
    obtain ⟨n, t, as, c, r, f⟩ := v
    obtain ⟨m, u, bs, d, s, g⟩ := w
    cases c <;> cases d <;>
      simp_all [outline, Parameter.outline, parts, Parameter.parts, bare, Parameter.bare]
    · exact Region.bare_congr ho.1 hp.2.2.2
    · exact Region.bare_congr ho.1 hp.2.2.2.2
  | method =>
    obtain ⟨n, t, ps, as, ts, a, f, r⟩ := v
    obtain ⟨m, u, qs, bs, us, b, g, s⟩ := w
    simp_all [outline, Method.outline, parts, Method.parts, bare, Method.bare]
    refine ⟨?_, Region.bare_congr ho.2.2.2 hp.2.2.2.2.2⟩
    have injective : Function.Injective Item.text := fun s t h => by simpa using h
    exact injective.list_map (by simpa [Function.comp_def] using hp.2.2.2.2.1)
  | probe series =>
    obtain ⟨g, t, c⟩ := v
    obtain ⟨h, u, d⟩ := w
    cases c <;> cases d <;>
      simp_all [outline, Probe.outline, parts, Probe.parts, bare, Probe.bare, Handle.bare]

theorem bare_eq_iff {k : Kind} {v w : k.Carrier} :
    k.bare v = k.bare w ↔
      k.outline v = k.outline w ∧ (k.parts v).map Item.bare = (k.parts w).map Item.bare := by
  refine ⟨fun h => ⟨?_, ?_⟩, fun h => bare_congr h.1 h.2⟩
  · rw [← outline_bare, h, outline_bare]
  · rw [← parts_bare, h, parts_bare]

end Kind

namespace Item

lemma parts_bare (i : Item) : i.bare.parts = i.parts.map bare := by
  cases i with
  | nothing | text => rfl
  | entity k x => exact k.parts_bare x.val
  | list k l => simp [EntityList.bare, Function.comp_def]
  | definition d =>
    simp [bare, Handle.bare, Definition.bare, Definition.parts, Kind.bare]

lemma isModel_bare (i : Item) : i.bare.IsModel ↔ i.IsModel := by
  cases i <;> exact .rfl

end Item

namespace Definition

lemma bare_congr {d e : Definition} (ho : d.outline = e.outline)
    (hp : d.parts.map Item.bare = e.parts.map Item.bare) : d.bare = e.bare := by
  simp_all [outline, parts, bare, Kind.bare]
  exact Region.bare_congr ho.2.2 hp.2.2.2.2.2

end Definition

namespace TypeRef

lemma displayAll_eq (xs : List (Handle TypeRef)) : displayAll xs = xs.map (·.val.display) := by
  induction xs with
  | nil => rfl
  | cons x xs ih => simp [displayAll, ih]

lemma display_bare (t : TypeRef) : t.bare.display = t.display := by
  induction t using bare.induct (motive_2 := fun xs => displayAll (bareAll xs) = displayAll xs) with
  | case1 ns name args ih =>
    have he : (bareAll args.items).isEmpty = args.items.isEmpty := by simp [bareAll_eq]
    simp [bare, display, Text.bare, ih, he]
  | case2 e rank ih => simp [bare, display, ih]
  | case3 e ih => simp [bare, display, ih]
  | case4 t hn ha hb => cases t <;> simp_all [bare]
  | case5 => rfl
  | case6 x xs ih ihs => simp [bareAll, displayAll, ih, ihs]

end TypeRef

lemma Literal.display_bare (l : Literal) : l.bare.display = l.display := by cases l <;> rfl

lemma Constant.display_bare (c : Constant) : c.bare.display = c.display := c.literal.display_bare

lemma Attribute.display_bare (a : Attribute) : a.bare.display = a.display := by
  simp [display, bare, EntityList.bare, Handle.bare, NamedArgument.bare, Text.bare, TypeRef.display_bare,
    Constant.display_bare, Function.comp_def]

lemma Parameter.display_bare (p : Parameter) : p.bare.display = p.display := by
  cases h : p.default <;>
    simp [display, bare, Handle.bare, Text.bare, TypeRef.display_bare, Constant.display_bare, h]

lemma Method.display_bare (m : Method) : m.bare.display = m.display := by
  simp [display, bare, EntityList.bare, Handle.bare, Text.bare, TypeRef.display_bare,
    Parameter.display_bare, Function.comp_def]

lemma Kind.display_bare (k : Kind) (v : k.Carrier) : k.display? (k.bare v) = k.display? v := by
  cases k with
  | typeRef => exact congrArg some (TypeRef.display_bare v)
  | constant => exact congrArg some (Constant.display_bare v)
  | attr => exact congrArg some (Attribute.display_bare v)
  | parameter => exact congrArg some (Parameter.display_bare v)
  | method => exact congrArg some (Method.display_bare v)
  | probe _ => rfl

namespace Item

theorem display_bare (i : Item) : i.bare.display? = i.display? := by
  cases i with
  | nothing | text | list => rfl
  | entity k x => exact k.display_bare x.val
  | definition d => rfl

lemma nth_bare (k : Kind) (l : EntityList k.Carrier) (n : Nat) :
    nth? k (l.bare k.bare) n = (nth? k l n).map bare := by
  simp [nth?, EntityList.bare, Function.comp_def]

lemma part_bare (i : Item) (seg : Segment) : i.bare.part? seg = (i.part? seg).map bare := by
  cases i with
  | nothing | text | list => rfl
  | definition d =>
    cases seg with
    | base n => exact nth_bare .typeRef d.val.bases n
    | method n => exact nth_bare .method d.val.methods n
    | attr n => exact nth_bare .attr d.val.attributes n
    | _ => rfl
  | entity k x =>
    obtain ⟨id, v⟩ := x
    cases k with
    | probe _ => rfl
    | typeRef =>
      cases v with
      | named ns name args =>
        cases seg with
        | arg n =>
          simpa [part?, Handle.bare, Kind.bare, TypeRef.bare_named, TypeRef.part?]
            using nth_bare .typeRef args n
        | args => simp [part?, Handle.bare, Kind.bare, TypeRef.bare_named, TypeRef.part?]
        | _ => rfl
      | _ => cases seg <;> rfl
    | constant =>
      obtain ⟨t, l⟩ := v
      cases seg with
      | string => cases l <;> rfl
      | _ => rfl
    | attr =>
      cases seg with
      | positional n => exact nth_bare .constant v.positional n
      | named n =>
        simp [part?, Handle.bare, Kind.bare, Attribute.bare, Attribute.part?, NamedArgument.bare,
          Function.comp_def]
      | _ => rfl
    | parameter =>
      cases seg with
      | attr n => exact nth_bare .attr v.attributes n
      | default =>
        simp [part?, Handle.bare, Kind.bare, Parameter.bare, Parameter.part?, Function.comp_def]
      | _ => rfl
    | method =>
      cases seg with
      | parameter n => exact nth_bare .parameter v.parameters n
      | attr n => exact nth_bare .attr v.attributes n
      | typeParameter n =>
        simp [part?, Handle.bare, Kind.bare, Method.bare, Method.part?, Function.comp_def]
      | _ => rfl

theorem follow_bare (i : Item) (path : List Segment) : i.bare.follow? path = (i.follow? path).map bare := by
  induction path generalizing i with
  | nil => rfl
  | cons seg path ih =>
    simp only [follow?, List.foldlM_cons, part_bare]
    cases i.part? seg with
    | none => rfl
    | some j => exact ih j

end Item

end CodeModel
