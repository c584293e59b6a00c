import CodeModel.Proofs.Graph.Lists
import CodeModel.Proofs.Interning.Sealing
import CodeModel.Proofs.Session.Changing
import CodeModel.Proofs.Session.Later

/-! What is built or brought in by a change has lists that are not sealed, or shares sealed lists. -/

namespace CodeModel

open Session Builder

namespace Session

structure Full (s : Session) : Prop where
  register : ∀ b ∈ s.registers, b.2.Full
  provider : ∀ b ∈ s.providers, b.2.Full

end Session

def Builder.Fills {α : Type} (act : Builder α) (φ : α → Prop) : Prop := act.Makes Session.Full fun a t => t.Full ∧ φ a

namespace Builder.Fills

variable {α β : Type} {φ : α → Prop} {ψ : β → Prop}

lemma bind {act : Builder α} {next : α → Builder β} (h : act.Fills φ) (h' : ∀ a, φ a → (next a).Fills ψ) :
    (act >>= next).Fills ψ :=
  Makes.bind h fun a => .given (h' a)

lemma pure {a : α} (h : φ a) : Builder.Fills (Pure.pure a) φ := Makes.pure fun _ hs => ⟨hs, h⟩

lemma failure : Builder.Fills (α := α) failure φ := Makes.failure

lemma get_bind {next : Session → Builder β} (h : ∀ u, (next u).Fills ψ) : Builder.Fills (get >>= next) ψ :=
  bind (φ := fun _ => True) (Makes.get fun _ hs => ⟨hs, trivial⟩) fun u _ => h u

lemma modify_bind {f : Session → Session} {next : PUnit → Builder β} (hf : ∀ s, s.Full → (f s).Full)
    (h : ∀ u, (next u).Fills ψ) : Builder.Fills (modify f >>= next) ψ :=
  bind (φ := fun _ => True) (Makes.modify fun s hs => ⟨hf s hs, trivial⟩) fun u _ => h u

lemma makes {act : Builder α} {s : Session} (h : act.Fills φ) (hs : s.Full) : act.Makes (· = s) fun _ t => t.Full := by
  rintro _ rfl a t hrun
  exact (h _ hs a t hrun).1

end Builder.Fills

section Recipes

variable {α β : Type} {k : Kind}

lemma objectLabels_fills (n : Nat) : (objectLabels n).Fills fun _ => True := by
  intro s hs a t hrun
  cases hrun
  exact ⟨⟨hs.register, hs.provider⟩, trivial⟩

lemma textLabels_fills (n : Nat) : (textLabels n).Fills fun _ => True := by
  intro s hs a t hrun
  cases hrun
  exact ⟨⟨hs.register, hs.provider⟩, trivial⟩

lemma text_fills (v : String) : (Builder.text v).Fills fun _ => True :=
  (textLabels_fills 1).bind fun _ _ => .pure trivial

lemma place_fills {v : k.Carrier} (h : ∀ p ∈ k.parts v, p.Full) :
    (place v).Fills fun x => (Item.entity k x).Full :=
  (objectLabels_fills 1).bind fun _ _ => .pure (Item.full_entity.mpr h)

lemma list_fills {xs : List (Handle k.Carrier)} (h : ∀ x ∈ xs, (Item.entity k x).Full) :
    (Builder.list xs).Fills fun l => (Item.list k l).Full :=
  (objectLabels_fills 1).bind fun _ _ => .pure (Item.full_list.mpr ⟨by simp, h⟩)

lemma register_fills (name : String) : (Builder.register name).Fills Item.Full := by
  refine Makes.bind (Q := fun u t => t.Full ∧ u.Full) (.get fun s hs => ⟨hs, hs⟩) fun u => .given fun hu => ?_
  exact .ofOption fun i hi s hs => ⟨hs, hu.register _ (mem_of_lookup hi)⟩

lemma entity_fills (k : Kind) (name : String) : (Builder.entity k name).Fills fun x => (Item.entity k x).Full := by
  refine (register_fills name).bind fun i hi => ?_
  cases i with
  | entity j x =>
    by_cases h : j = k
    · subst h
      simpa using .pure hi
    · simpa [h] using Fills.failure
  | _ => exact .failure

lemma mapM_fills {f : α → Builder β} {φ : β → Prop} (as : List α) (h : ∀ a ∈ as, (f a).Fills φ) :
    (as.mapM f).Fills fun bs => ∀ b ∈ bs, φ b := by
  induction as with
  | nil => exact .pure (by simp)
  | cons a as ih =>
    rw [List.mapM_cons]
    refine (h a (by simp)).bind fun b hb => (ih fun a ha => h a (by simp [ha])).bind fun bs hbs => .pure ?_
    simpa using ⟨hb, hbs⟩

lemma optionM_fills {f : α → Builder (Handle k.Carrier)} (a : Option α)
    (h : ∀ a, (f a).Fills fun x => (Item.entity k x).Full) :
    (a.mapM f).Fills fun x => (x.elim .nothing (Item.entity k)).Full := by
  cases a with
  | none => exact .pure Item.full_nothing
  | some a => exact (h a).bind fun x hx => .pure (a := some x) hx

lemma TextRecipe.build_fills (r : TextRecipe) : r.build.Fills fun _ => True := by
  cases r with
  | register name =>
    refine (register_fills name).bind fun i _ => ?_
    cases i with
    | text t => exact .pure trivial
    | _ => exact .failure
  | empty => exact .pure trivial
  | fresh v => exact text_fills v

lemma buildNs_fills (ns : String) : (buildNs ns).Fills fun _ => True := by
  unfold buildNs
  split
  · exact .pure trivial
  · exact text_fills ns

lemma RegionRecipe.build_fills (r : RegionRecipe) : r.build.Fills fun _ => True := by
  obtain ⟨_ | f, start, stop⟩ := r
  · exact .pure trivial
  · exact f.build_fills.bind fun f _ => .pure trivial

namespace TypeRecipe

mutual

lemma build_fills (r : TypeRecipe) : r.build.Fills fun x => (Item.entity .typeRef x).Full := by
  cases r with
  | register name => exact entity_fills .typeRef name
  | shared t => exact .pure (Item.full_shared t)
  | named ns name args =>
    refine (buildNs_fills ns).bind fun ns _ => (text_fills name).bind fun name _ => ?_
    refine (buildAll_fills args).bind fun args hargs => (list_fills (k := .typeRef) hargs).bind fun args hargs => ?_
    exact place_fills (k := .typeRef) (by simpa [Kind.parts, TypeRef.parts] using hargs)
  | array e rank =>
    refine (build_fills e).bind fun e he => place_fills (k := .typeRef) ?_
    simpa [Kind.parts, TypeRef.parts, TypeRef.ofElement] using he
  | byRef e =>
    refine (build_fills e).bind fun e he => place_fills (k := .typeRef) ?_
    simpa [Kind.parts, TypeRef.parts] using he

lemma buildAll_fills (rs : List TypeRecipe) : (buildAll rs).Fills fun xs => ∀ x ∈ xs, (Item.entity .typeRef x).Full := by
  cases rs with
  | nil => exact .pure (by simp)
  | cons r rs =>
    refine (build_fills r).bind fun x hx => (buildAll_fills rs).bind fun xs hxs => .pure ?_
    simpa using ⟨hx, hxs⟩

end

end TypeRecipe

@[simp] lemma Item.full_literal (l : Literal) : l.part.Full := by cases l <;> simp [Literal.part]

lemma LiteralRecipe.build_fills (r : LiteralRecipe) : r.build.Fills fun _ => True := by
  cases r with
  | string t => exact t.build_fills.bind fun t _ => .pure trivial
  | plain l noText => exact .pure trivial

lemma ConstantRecipe.build_fills (r : ConstantRecipe) : r.build.Fills fun x => (Item.entity .constant x).Full := by
  cases r with
  | register name => exact entity_fills .constant name
  | null =>
    have parts : Kind.parts .constant .null = [.entity .typeRef SharedType.null.handle, .nothing] := rfl
    exact place_fills (k := .constant) (by simp [parts])
  | make type literal =>
    refine type.build_fills.bind fun type ht => literal.build_fills.bind fun literal _ => ?_
    exact place_fills (k := .constant) (by simpa [Kind.parts, Constant.parts] using ht)

lemma buildNamed_fills (n : String × ConstantRecipe) : (buildNamed n).Fills fun m => ∀ p ∈ m.parts, p.Full := by
  refine (text_fills n.1).bind fun name _ => n.2.build_fills.bind fun value hv => .pure ?_
  simpa [NamedArgument.parts] using hv

lemma AttributeRecipe.build_fills (r : AttributeRecipe) : r.build.Fills fun x => (Item.entity .attr x).Full := by
  cases r with
  | register name => exact entity_fills .attr name
  | make type positional named region =>
    refine type.build_fills.bind fun type ht => ?_
    refine (mapM_fills positional fun c _ => c.build_fills).bind fun xs hxs => ?_
    refine (list_fills (k := .constant) hxs).bind fun positional hp => ?_
    refine (mapM_fills named fun n _ => buildNamed_fills n).bind fun named hn => ?_
    refine region.build_fills.bind fun region _ => place_fills (k := .attr) ?_
    simp only [Kind.parts, Attribute.parts, List.mem_append, List.mem_cons, List.not_mem_nil, or_false, List.mem_flatMap]
    rintro p (((rfl | rfl) | ⟨n, hn', hp'⟩) | rfl)
    · exact ht
    · exact hp
    · exact hn n hn' p hp'
    · exact Item.full_region _

lemma ParameterRecipe.build_fills (r : ParameterRecipe) : r.build.Fills fun x => (Item.entity .parameter x).Full := by
  cases r with
  | register name => exact entity_fills .parameter name
  | make name type attributes default region modes =>
    refine (TextRecipe.build_fills _).bind fun name _ => type.build_fills.bind fun type ht => ?_
    refine (mapM_fills attributes fun a _ => a.build_fills).bind fun xs hxs => ?_
    refine (list_fills (k := .attr) hxs).bind fun attributes ha => ?_
    refine (optionM_fills (k := .constant) default fun c => c.build_fills).bind fun default hd => ?_
    refine region.build_fills.bind fun region _ => place_fills (k := .parameter) ?_
    simpa [Kind.parts, Parameter.parts] using ⟨ht, ha, hd⟩

lemma MethodRecipe.build_fills (r : MethodRecipe) : r.build.Fills fun x => (Item.entity .method x).Full := by
  cases r with
  | register name => exact entity_fills .method name
  | make name returns parameters attributes typeParameters accessibility modifiers region =>
    refine name.build_fills.bind fun name _ => returns.build_fills.bind fun returns hr => ?_
    refine (mapM_fills parameters fun p _ => p.build_fills).bind fun xs hxs => ?_
    refine (list_fills (k := .parameter) hxs).bind fun parameters hp => ?_
    refine (mapM_fills attributes fun a _ => a.build_fills).bind fun xs hxs => ?_
    refine (list_fills (k := .attr) hxs).bind fun attributes ha => ?_
    refine (mapM_fills typeParameters fun v _ => text_fills v).bind fun ts _ => ?_
    refine region.build_fills.bind fun region _ => place_fills (k := .method) ?_
    simp only [Kind.parts, Method.parts, List.mem_append, List.mem_cons, List.not_mem_nil, or_false, List.mem_map]
    rintro p (((rfl | rfl | rfl | rfl) | ⟨t, -, rfl⟩) | rfl)
    · exact Item.full_text _
    · exact hr
    · exact hp
    · exact ha
    · exact Item.full_text _
    · exact Item.full_region _

lemma DefinitionRecipe.build_fills (r : DefinitionRecipe) : r.build.Fills fun d => (Item.definition d).Full := by
  refine (buildNs_fills r.ns).bind fun ns _ => (text_fills r.name).bind fun name _ => ?_
  refine (mapM_fills r.bases fun b _ => b.build_fills).bind fun xs hxs => ?_
  refine (list_fills (k := .typeRef) hxs).bind fun bases hb => ?_
  refine (mapM_fills r.methods fun m _ => m.build_fills).bind fun xs hxs => ?_
  refine (list_fills (k := .method) hxs).bind fun methods hm => ?_
  refine (mapM_fills r.attributes fun a _ => a.build_fills).bind fun xs hxs => ?_
  refine (list_fills (k := .attr) hxs).bind fun attributes ha => ?_
  refine r.region.build_fills.bind fun region _ => (objectLabels_fills 1).bind fun id _ => .pure ?_
  exact Item.full_definition.mpr (by simpa [Definition.parts] using ⟨hb, hm, ha⟩)

lemma ProbeRecipe.place_fills {series : ProbeSeries} {c : Option (Handle Probe)}
    (hc : (c.elim .nothing (Item.entity (.probe series))).Full) (hash : UInt64) (tag : Int) (frozen : Bool) :
    Builder.Fills (do
      let x ← place (.mk hash tag c)
      if frozen then modify fun s => { s with frozen := x.id :: s.frozen }
      return x) fun x => (Item.entity (.probe series) x).Full := by
  have parts : ∀ p ∈ Kind.parts (.probe series) (.mk hash tag c), p.Full := by simpa [Kind.parts, Probe.parts]
  refine (CodeModel.place_fills parts).bind fun x hx => ?_
  cases frozen with
  | true => exact .modify_bind (fun s hs => ⟨hs.register, hs.provider⟩) fun _ => .pure hx
  | false => exact .pure hx

lemma ProbeRecipe.build_fills (series : ProbeSeries) (r : ProbeRecipe) :
    (r.build series).Fills fun x => (Item.entity (.probe series) x).Full := by
  match r with
  | .register name => exact entity_fills (.probe series) name
  | .make hash tag none frozen =>
    exact .bind (φ := fun c => c = none) (.pure rfl) fun c hc => place_fills (by simp [hc]) hash tag frozen
  | .make hash tag (some c) frozen =>
    exact (build_fills series c).bind fun x hx => place_fills (c := some x) hx hash tag frozen

lemma Kind.build_fills (k : Kind) (r : k.Recipe) : (k.build r).Fills fun x => (Item.entity k x).Full := by
  cases k with
  | typeRef => exact TypeRecipe.build_fills r
  | constant => exact ConstantRecipe.build_fills r
  | attr => exact AttributeRecipe.build_fills r
  | parameter => exact ParameterRecipe.build_fills r
  | method => exact MethodRecipe.build_fills r
  | probe series => exact ProbeRecipe.build_fills series r

lemma Item.full_copies {n : Nat} {i j : Item} (h : Item.Copies n i j) (hi : i.Full) : j.Full := by
  cases h with
  | same => exact hi
  | @list k l m duplicates =>
    cases hs : l.sealed with
    | true => exact duplicates.sealed hs ▸ hi
    | false =>
      refine full_list.mpr ⟨fun hm => absurd hm (by simp [(duplicates.owned hs).1]), ?_⟩
      exact duplicates.items ▸ (full_list.mp hi).2

lemma Item.share_fills {i : Item} (hi : i.Full) : i.share.Fills Item.Full := by
  cases i with
  | list k l =>
    exact (objectLabels_fills 1).bind fun a _ => .pure (full_copies (.list (l.duplicates_copy (Nat.le_refl a))) hi)
  | definition d => exact .failure
  | nothing | text | entity => exact .pure hi

theorem ItemRecipe.build_fills (r : ItemRecipe) : r.build.Fills Item.Full := by
  cases r with
  | nothing => exact .pure Item.full_nothing
  | register name => exact (register_fills name).bind fun i hi => Item.share_fills hi
  | text r => exact r.build_fills.bind fun t _ => .pure (Item.full_text t)
  | entity k r => exact (k.build_fills r).bind fun x hx => .pure hx
  | list k rs =>
    refine (mapM_fills rs fun r _ => k.build_fills r).bind fun xs hxs => ?_
    exact (list_fills hxs).bind fun l hl => .pure hl
  | definition d => exact d.build_fills.bind fun d hd => .pure hd

section Changes

lemma ListEdit.build_fills {f : α → Builder (Handle k.Carrier)} (e : ListEdit α)
    (h : ∀ a, (f a).Fills fun x => (Item.entity k x).Full) :
    (e.build f).Fills fun e => ∀ x ∈ e.handles, (Item.entity k x).Full := by
  cases e with
  | push a | insert i a | put i a => exact (h a).bind fun x hx => .pure (by simpa [ListEdit.handles] using hx)
  | _ => exact .pure (by simp [ListEdit.handles])

lemma edits_fills {f : α → Builder (Handle k.Carrier)} (es : List (ListEdit α))
    (h : ∀ a, (f a).Fills fun x => (Item.entity k x).Full) :
    (es.mapM (ListEdit.build f)).Fills fun es => ∀ p ∈ (es.flatMap ListEdit.handles).map (Item.entity k), p.Full := by
  refine Makes.imp (mapM_fills es fun e _ => e.build_fills h) fun es t ⟨ht, hes⟩ => ⟨ht, fun p hp => ?_⟩
  obtain ⟨x, hx, rfl⟩ := List.mem_map.mp hp
  obtain ⟨e, he, hx⟩ := List.mem_flatMap.mp hx
  exact hes e he x hx

namespace ChangeRecipe

lemma forConstant_fills (c : ChangeRecipe) : c.forConstant.Fills fun e => ∀ p ∈ e.parts, p.Full := by
  cases c with
  | type t => exact t.build_fills.bind fun t ht => .pure (by simpa [Constant.Change.parts] using ht)
  | literal l => exact l.build_fills.bind fun l _ => .pure (by simp [Constant.Change.parts])
  | _ => exact .failure

lemma forAttribute_fills (c : ChangeRecipe) : c.forAttribute.Fills fun e => ∀ p ∈ e.parts, p.Full := by
  cases c with
  | type t => exact t.build_fills.bind fun t ht => .pure (by simpa [Attribute.Change.parts] using ht)
  | positional c => exact c.build_fills.bind fun c hc => .pure (by simpa [Attribute.Change.parts] using hc)
  | named n c => exact (buildNamed_fills (n, c)).bind fun m hm => .pure hm
  | region r => exact r.build_fills.bind fun r _ => .pure (by simp [Attribute.Change.parts])
  | _ => exact .failure

lemma forParameter_fills (c : ChangeRecipe) : c.forParameter.Fills fun e => ∀ p ∈ e.parts, p.Full := by
  cases c with
  | name t => exact t.build_fills.bind fun t _ => .pure (by simp [Parameter.Change.parts])
  | type t => exact t.build_fills.bind fun t ht => .pure (by simpa [Parameter.Change.parts] using ht)
  | attributes edits => exact (edits_fills (k := .attr) edits fun a => a.build_fills).bind fun es hes => .pure hes
  | default c =>
    refine (optionM_fills (k := .constant) c fun c => c.build_fills).bind fun c hc => .pure ?_
    simpa [Parameter.Change.parts] using hc
  | region r => exact r.build_fills.bind fun r _ => .pure (by simp [Parameter.Change.parts])
  | mode m on => exact .pure (by simp [Parameter.Change.parts])
  | _ => exact .failure

lemma forMethod_fills (c : ChangeRecipe) : c.forMethod.Fills fun e => ∀ p ∈ e.parts, p.Full := by
  cases c with
  | name t => exact t.build_fills.bind fun t _ => .pure (by simp [Method.Change.parts])
  | returns t => exact t.build_fills.bind fun t ht => .pure (by simpa [Method.Change.parts] using ht)
  | parameters edits =>
    exact (edits_fills (k := .parameter) edits fun a => a.build_fills).bind fun es hes => .pure hes
  | attributes edits => exact (edits_fills (k := .attr) edits fun a => a.build_fills).bind fun es hes => .pure hes
  | typeParameter v => exact (text_fills v).bind fun t _ => .pure (by simp [Method.Change.parts])
  | accessibility a => exact .pure (by simp [Method.Change.parts])
  | modifiers m => exact .pure (by simp [Method.Change.parts])
  | region r => exact r.build_fills.bind fun r _ => .pure (by simp [Method.Change.parts])
  | _ => exact .failure

lemma forDefinition_fills (c : ChangeRecipe) : c.forDefinition.Fills fun e => ∀ p ∈ e.parts, p.Full := by
  unfold forDefinition
  split
  · exact .pure (by simp [Definition.Change.parts])
  · exact .pure (by simp [Definition.Change.parts])
  · exact (TypeRecipe.build_fills _).bind fun t ht => .pure (by simpa [Definition.Change.parts] using ht)
  · exact (MethodRecipe.build_fills _).bind fun m hm => .pure (by simpa [Definition.Change.parts] using hm)
  · exact (AttributeRecipe.build_fills _).bind fun a ha => .pure (by simpa [Definition.Change.parts] using ha)
  · exact (RegionRecipe.build_fills _).bind fun r _ => .pure (by simp [Definition.Change.parts])
  · exact .failure

lemma forKind_fills (c : ChangeRecipe) (k : Kind) : (c.forKind k).Fills fun e => ∀ p ∈ k.changeParts e, p.Full := by
  cases k with
  | typeRef => exact .failure
  | constant => exact c.forConstant_fills
  | attr => exact c.forAttribute_fills
  | parameter => exact c.forParameter_fills
  | method => exact c.forMethod_fills
  | probe => exact .failure

end ChangeRecipe

lemma PartsChange.full {storage : Nat} {is cs js : List Item} (h : PartsChange storage is cs js)
    (hi : ∀ i ∈ is, i.Full) (hc : ∀ i ∈ cs, i.Full) : ∀ j ∈ js, j.Full := by
  obtain ⟨k, items, hitems, hjs⟩ := h
  have elements (x : Handle k.Carrier) (hx : x ∈ items) : (Item.entity k x).Full := by
    rcases hitems x hx with hx | ⟨l, hl, hx⟩
    · exact hc _ hx
    · exact (Item.full_list.mp (hi _ hl)).2 x hx
  intro j hj
  rcases hjs j hj with hj | hj | rfl
  · exact hi j hj
  · exact hc j hj
  · exact Item.full_list.mpr ⟨by simp, elements⟩

end Changes

end Recipes

end CodeModel
