import CodeModel.Proofs.Session.Hand

/-! What is built for a change takes fresh labels from the session and does nothing else to it. -/

namespace CodeModel

open Session Builder

namespace Session

def Drawn (s t : Session) : Prop := t = { s with nextObject := t.nextObject, nextText := t.nextText }

variable {s t : Session}

lemma Drawn.refl (s : Session) : s.Drawn s := rfl

lemma Drawn.trans {u : Session} (h : s.Drawn t) (h' : t.Drawn u) : s.Drawn u := by
  unfold Drawn at *
  rw [h', h]

lemma Drawn.registers (h : s.Drawn t) : t.registers = s.registers := by rw [h]

lemma Drawn.providers (h : s.Drawn t) : t.providers = s.providers := by rw [h]

lemma Drawn.frozen (h : s.Drawn t) : t.frozen = s.frozen := by rw [h]

lemma Drawn.isSoleHolder (h : s.Drawn t) (r : String) (id : Nat) : t.isSoleHolder r id = s.isSoleHolder r id := by
  rw [h]
  rfl

lemma Drawn.put (h : s.Drawn t) (r : String) (j : Item) : (s.put r j).Drawn (t.put r j) := by
  rw [h]
  rfl

lemma drawn_label (h : s.Drawn t) : s.Drawn { t with nextObject := t.nextObject + 1 } := h.trans rfl

end Session

def Builder.Draws {α : Type} (act : Builder α) : Prop := ∀ s, act.Makes (· = s) fun _ t => s.Drawn t

namespace Builder.Draws

variable {α β : Type}

lemma run {act : Builder α} {s t : Session} {a : α} (h : act.Draws) (hrun : act.run s = some (a, t)) : s.Drawn t :=
  h s s rfl a t hrun

lemma bind {act : Builder α} {next : α → Builder β} (h : act.Draws) (h' : ∀ a, (next a).Draws) :
    (act >>= next).Draws := by
  intro s
  refine (h s).bind fun a t ht b u hrun => ?_
  exact ht.trans ((h' a).run hrun)

lemma pure (a : α) : Builder.Draws (Pure.pure a) := fun s => .pure fun _ hs => hs ▸ .refl s

lemma failure : Builder.Draws (α := α) failure := fun _ => .failure

end Builder.Draws

section Recipes

variable {α β : Type}

lemma objectLabels_draws (n : Nat) : (objectLabels n).Draws := by
  rintro s _ rfl a t hrun
  cases hrun
  rfl

lemma textLabels_draws (n : Nat) : (textLabels n).Draws := by
  rintro s _ rfl a t hrun
  cases hrun
  rfl

lemma text_draws (v : String) : (Builder.text v).Draws := (textLabels_draws 1).bind fun _ => .pure _

lemma place_draws (v : α) : (place v).Draws := (objectLabels_draws 1).bind fun _ => .pure _

lemma list_draws (xs : List (Handle α)) : (Builder.list xs).Draws := (objectLabels_draws 1).bind fun _ => .pure _

lemma register_draws (name : String) : (Builder.register name).Draws := fun s =>
  .bind (Q := fun _ t => s.Drawn t) (.get fun _ ht => ht ▸ .refl s) fun _ => .ofOption fun _ _ _ ht => ht

lemma entity_draws (k : Kind) (name : String) : (Builder.entity k name).Draws := by
  refine (register_draws name).bind fun i => ?_
  cases i with
  | entity j x =>
    dsimp only
    split
    · exact .pure _
    · exact .failure
  | _ => exact .failure

lemma mapM_draws {f : α → Builder β} (h : ∀ a, (f a).Draws) (as : List α) : (as.mapM f).Draws := by
  induction as with
  | nil => exact .pure []
  | cons a as ih =>
    rw [List.mapM_cons]
    exact (h a).bind fun b => ih.bind fun bs => .pure _

lemma optionM_draws {f : α → Builder β} (h : ∀ a, (f a).Draws) (a : Option α) : (a.mapM f).Draws := by
  cases a with
  | none => exact .pure none
  | some a => exact (h a).bind fun b => .pure _

lemma TextRecipe.build_draws (r : TextRecipe) : r.build.Draws := by
  cases r with
  | register name =>
    refine (register_draws name).bind fun i => ?_
    cases i with
    | text t => exact .pure t
    | _ => exact .failure
  | empty => exact .pure _
  | fresh v => exact text_draws v

lemma buildNs_draws (ns : String) : (buildNs ns).Draws := by
  unfold buildNs
  split
  · exact .pure _
  · exact text_draws ns

lemma RegionRecipe.build_draws (r : RegionRecipe) : r.build.Draws := by
  obtain ⟨_ | f, start, stop⟩ := r
  · exact .pure _
  · exact f.build_draws.bind fun _ => .pure _

namespace TypeRecipe

mutual

lemma build_draws (r : TypeRecipe) : r.build.Draws := by
  cases r with
  | register name => exact entity_draws .typeRef name
  | shared t => exact .pure _
  | named ns name args =>
    refine (buildNs_draws ns).bind fun ns => (text_draws name).bind fun name => ?_
    exact (buildAll_draws args).bind fun xs => (list_draws xs).bind fun args => place_draws _
  | array e rank => exact (build_draws e).bind fun e => place_draws _
  | byRef e => exact (build_draws e).bind fun e => place_draws _

lemma buildAll_draws (rs : List TypeRecipe) : (buildAll rs).Draws := by
  cases rs with
  | nil => exact .pure []
  | cons r rs => exact (build_draws r).bind fun x => (buildAll_draws rs).bind fun xs => .pure _

end

end TypeRecipe

lemma LiteralRecipe.build_draws (r : LiteralRecipe) : r.build.Draws := by
  cases r with
  | string t => exact t.build_draws.bind fun _ => .pure _
  | plain l noText => exact .pure l

lemma ConstantRecipe.build_draws (r : ConstantRecipe) : r.build.Draws := by
  cases r with
  | register name => exact entity_draws .constant name
  | null => exact place_draws _
  | make type literal => exact type.build_draws.bind fun type => literal.build_draws.bind fun literal => place_draws _

lemma buildNamed_draws (n : String × ConstantRecipe) : (buildNamed n).Draws :=
  (text_draws n.1).bind fun _ => n.2.build_draws.bind fun _ => .pure _

lemma AttributeRecipe.build_draws (r : AttributeRecipe) : r.build.Draws := by
  cases r with
  | register name => exact entity_draws .attr name
  | make type positional named region =>
    refine type.build_draws.bind fun type => (mapM_draws ConstantRecipe.build_draws positional).bind fun xs => ?_
    refine (list_draws xs).bind fun positional => (mapM_draws buildNamed_draws named).bind fun named => ?_
    exact region.build_draws.bind fun region => place_draws _

lemma ParameterRecipe.build_draws (r : ParameterRecipe) : r.build.Draws := by
  cases r with
  | register name => exact entity_draws .parameter name
  | make name type attributes default region modes =>
    refine (TextRecipe.build_draws _).bind fun name => type.build_draws.bind fun type => ?_
    refine (mapM_draws AttributeRecipe.build_draws attributes).bind fun xs => (list_draws xs).bind fun attributes => ?_
    refine (optionM_draws ConstantRecipe.build_draws default).bind fun default => ?_
    exact region.build_draws.bind fun region => place_draws _

lemma MethodRecipe.build_draws (r : MethodRecipe) : r.build.Draws := by
  cases r with
  | register name => exact entity_draws .method name
  | make name returns parameters attributes typeParameters accessibility modifiers region =>
    refine name.build_draws.bind fun name => returns.build_draws.bind fun returns => ?_
    refine (mapM_draws ParameterRecipe.build_draws parameters).bind fun xs => (list_draws xs).bind fun parameters => ?_
    refine (mapM_draws AttributeRecipe.build_draws attributes).bind fun xs => (list_draws xs).bind fun attributes => ?_
    refine (mapM_draws text_draws typeParameters).bind fun ts => ?_
    exact region.build_draws.bind fun region => place_draws _

lemma ListEdit.build_draws {f : α → Builder β} (h : ∀ a, (f a).Draws) (e : ListEdit α) : (e.build f).Draws := by
  cases e with
  | push a | insert i a | put i a => exact (h a).bind fun _ => .pure _
  | _ => exact .pure _

namespace ChangeRecipe

lemma forConstant_draws (c : ChangeRecipe) : c.forConstant.Draws := by
  cases c with
  | type t => exact t.build_draws.bind fun _ => .pure _
  | literal l => exact l.build_draws.bind fun _ => .pure _
  | _ => exact .failure

lemma forAttribute_draws (c : ChangeRecipe) : c.forAttribute.Draws := by
  cases c with
  | type t => exact t.build_draws.bind fun _ => .pure _
  | positional c => exact c.build_draws.bind fun _ => .pure _
  | named n c => exact (buildNamed_draws (n, c)).bind fun _ => .pure _
  | region r => exact r.build_draws.bind fun _ => .pure _
  | _ => exact .failure

lemma forParameter_draws (c : ChangeRecipe) : c.forParameter.Draws := by
  cases c with
  | name t => exact t.build_draws.bind fun _ => .pure _
  | type t => exact t.build_draws.bind fun _ => .pure _
  | attributes es => exact (mapM_draws (ListEdit.build_draws AttributeRecipe.build_draws) es).bind fun _ => .pure _
  | default c => exact (optionM_draws ConstantRecipe.build_draws c).bind fun _ => .pure _
  | region r => exact r.build_draws.bind fun _ => .pure _
  | mode m on => exact .pure _
  | _ => exact .failure

lemma forMethod_draws (c : ChangeRecipe) : c.forMethod.Draws := by
  cases c with
  | name t => exact t.build_draws.bind fun _ => .pure _
  | returns t => exact t.build_draws.bind fun _ => .pure _
  | parameters es => exact (mapM_draws (ListEdit.build_draws ParameterRecipe.build_draws) es).bind fun _ => .pure _
  | attributes es => exact (mapM_draws (ListEdit.build_draws AttributeRecipe.build_draws) es).bind fun _ => .pure _
  | typeParameter v => exact (text_draws v).bind fun _ => .pure _
  | accessibility | modifiers => exact .pure _
  | region r => exact r.build_draws.bind fun _ => .pure _
  | _ => exact .failure

lemma forDefinition_draws (c : ChangeRecipe) : c.forDefinition.Draws := by
  unfold forDefinition
  split
  · exact .pure _
  · exact .pure _
  · exact (TypeRecipe.build_draws _).bind fun _ => .pure _
  · exact (MethodRecipe.build_draws _).bind fun _ => .pure _
  · exact (AttributeRecipe.build_draws _).bind fun _ => .pure _
  · exact (RegionRecipe.build_draws _).bind fun _ => .pure _
  · exact .failure

theorem forKind_draws (c : ChangeRecipe) (k : Kind) : (c.forKind k).Draws := by
  cases k with
  | typeRef | probe => exact .failure
  | constant => exact c.forConstant_draws
  | attr => exact c.forAttribute_draws
  | parameter => exact c.forParameter_draws
  | method => exact c.forMethod_draws

end ChangeRecipe

end Recipes

end CodeModel
