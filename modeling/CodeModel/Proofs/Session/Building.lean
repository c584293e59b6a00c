import CodeModel.Proofs.Session.Hand

namespace CodeModel

open Session Builder

variable {σ : Store} {s : Session} {is : List Item} {free : List Nat}

lemma mapM_makes {α β : Type} {f : α → Builder β} (items : β → List Item) (as : List α)
    (h : ∀ a ∈ as, ∀ is, (f a).Makes (Hand σ s is free) (fun b => Hand σ s (items b ++ is) free)) :
    (as.mapM f).Makes (Hand σ s is free) (fun bs => Hand σ s (bs.flatMap items ++ is) free) := by
  induction as generalizing is with
  | nil => exact .pure fun t ht => ht
  | cons a as ih =>
    rw [List.mapM_cons]
    refine (h a (by simp) is).bind fun b => (ih fun a ha => h a (by simp [ha])).bind fun bs => ?_
    apply Builder.Makes.pure
    intro t ht
    exact ht.imp (by simp only [List.flatMap_cons, List.mem_append]; tauto)

lemma optionM_makes {α β : Type} {f : α → Builder β} {item : β → Item} (a : Option α)
    (h : ∀ a is, (f a).Makes (Hand σ s is free) (fun b => Hand σ s (item b :: is) free)) :
    (a.mapM f).Makes (Hand σ s is free) (fun b => Hand σ s (b.elim .nothing item :: is) free) := by
  cases a with
  | none => exact .pure fun t ht => ht.nothing
  | some a => exact (h a is).bind fun b => .pure fun t ht => ht

lemma TextRecipe.build_makes (r : TextRecipe) :
    r.build.Makes (Hand σ s is free) (fun t => Hand σ s (.text t :: is) free) := by
  cases r with
  | register name =>
    refine (register_makes name).bind fun i => .given fun _ => ?_
    cases i with
    | text t => exact .pure fun u hu => hu
    | _ => exact .failure
  | empty => exact .pure fun t ht => ht.emptyText
  | fresh v => exact text_makes v

lemma buildNs_makes (ns : String) :
    (buildNs ns).Makes (Hand σ s is free) (fun t => Hand σ s (.text t :: is) free) := by
  unfold buildNs
  split
  · exact TextRecipe.build_makes .empty
  · exact text_makes ns

lemma RegionRecipe.build_makes (r : RegionRecipe) :
    r.build.Makes (Hand σ s is free) (fun q => Hand σ s (q.part :: is) free) := by
  obtain ⟨_ | f, start, stop⟩ := r
  · exact .pure fun t ht => ht.nothing
  · exact (f.build_makes).bind fun f => .pure fun t ht => ht

namespace TypeRecipe

mutual

lemma build_makes (r : TypeRecipe) {is : List Item} :
    r.build.Makes (Hand σ s is free) (fun x => Hand σ s (.entity .typeRef x :: is) free) := by
  cases r with
  | register name => exact entity_makes .typeRef name
  | shared t => exact .pure fun u hu => hu.shared t
  | named ns name args =>
    refine (buildNs_makes ns).bind fun ns => (text_makes name).bind fun name => ?_
    refine (buildAll_makes args).bind fun args => (list_makes (k := .typeRef) (by grind)).bind fun args => ?_
    refine (place_makes (k := .typeRef) ?_).imp fun x t ht => ht.imp (by grind)
    simp [Kind.parts, TypeRef.parts]
  | array e rank =>
    refine (build_makes e).bind fun e => ?_
    refine (place_makes (k := .typeRef) ?_).imp fun x t ht => ht.imp (by grind)
    simp [Kind.parts, TypeRef.parts, TypeRef.ofElement]
  | byRef e =>
    refine (build_makes e).bind fun e => ?_
    refine (place_makes (k := .typeRef) ?_).imp fun x t ht => ht.imp (by grind)
    simp [Kind.parts, TypeRef.parts]

lemma buildAll_makes (rs : List TypeRecipe) {is : List Item} :
    (buildAll rs).Makes (Hand σ s is free) (fun xs => Hand σ s (xs.map (.entity .typeRef) ++ is) free) := by
  cases rs with
  | nil => exact .pure fun t ht => ht
  | cons r rs =>
    refine (build_makes r).bind fun x => (buildAll_makes rs).bind fun xs => ?_
    exact .pure fun t ht => ht.imp (by grind)

end

end TypeRecipe

lemma LiteralRecipe.build_makes (r : LiteralRecipe) :
    r.build.Makes (Hand σ s is free) (fun l => Hand σ s (l.part :: is) free) := by
  cases r with
  | string t => exact t.build_makes.bind fun t => .pure fun u hu => hu
  | plain l noText =>
    have part : l.part = .nothing := by cases l <;> first | rfl | cases noText
    exact .pure fun t ht => part ▸ ht.nothing

lemma ConstantRecipe.build_makes (r : ConstantRecipe) :
    r.build.Makes (Hand σ s is free) (fun x => Hand σ s (.entity .constant x :: is) free) := by
  cases r with
  | register name => exact entity_makes .constant name
  | null =>
    have parts : Kind.parts .constant .null = [.entity .typeRef SharedType.null.handle, .nothing] := rfl
    refine ((place_makes (k := .constant) (v := .null) ?_).imp fun x t ht => ht.imp ?_).weaken fun t ht =>
      (ht.shared .null).nothing
    · simp [parts]
    · grind
  | make type literal =>
    refine type.build_makes.bind fun type => literal.build_makes.bind fun literal => ?_
    refine (place_makes (k := .constant) ?_).imp fun x t ht => ht.imp (by grind)
    simp [Kind.parts, Constant.parts]

lemma buildNamed_makes (n : String × ConstantRecipe) :
    (buildNamed n).Makes (Hand σ s is free) (fun m => Hand σ s (m.parts ++ is) free) := by
  refine (text_makes n.1).bind fun name => n.2.build_makes.bind fun value => ?_
  apply Builder.Makes.pure
  intro t ht
  exact ht.imp (by simp only [NamedArgument.parts]; grind)

lemma AttributeRecipe.build_makes (r : AttributeRecipe) :
    r.build.Makes (Hand σ s is free) (fun x => Hand σ s (.entity .attr x :: is) free) := by
  cases r with
  | register name => exact entity_makes .attr name
  | make type positional named region =>
    refine type.build_makes.bind fun type => ?_
    refine (mapM_makes (fun x => [.entity .constant x]) positional fun c _ _ => c.build_makes).bind fun xs => ?_
    refine (list_makes (k := .constant) (by simp +contextual)).bind fun positional => ?_
    refine (mapM_makes NamedArgument.parts named fun n _ _ => buildNamed_makes n).bind fun named => ?_
    refine region.build_makes.bind fun region => ?_
    refine (place_makes (k := .attr) ?_).imp fun x t ht => ht.imp (by grind)
    simp only [Kind.parts, Attribute.parts]
    grind

lemma ParameterRecipe.build_makes (r : ParameterRecipe) :
    r.build.Makes (Hand σ s is free) (fun x => Hand σ s (.entity .parameter x :: is) free) := by
  cases r with
  | register name => exact entity_makes .parameter name
  | make name type attributes default region modes =>
    refine (TextRecipe.build_makes _).bind fun name => type.build_makes.bind fun type => ?_
    refine (mapM_makes (fun x => [.entity .attr x]) attributes fun a _ _ => a.build_makes).bind fun xs => ?_
    refine (list_makes (k := .attr) (by simp +contextual)).bind fun attributes => ?_
    refine (optionM_makes default fun c _ => c.build_makes).bind fun default => ?_
    refine region.build_makes.bind fun region => ?_
    refine (place_makes (k := .parameter) ?_).imp fun x t ht => ht.imp (by grind)
    simp [Kind.parts, Parameter.parts]

lemma MethodRecipe.build_makes (r : MethodRecipe) :
    r.build.Makes (Hand σ s is free) (fun x => Hand σ s (.entity .method x :: is) free) := by
  cases r with
  | register name => exact entity_makes .method name
  | make name returns parameters attributes typeParameters accessibility modifiers region =>
    refine name.build_makes.bind fun name => returns.build_makes.bind fun returns => ?_
    refine (mapM_makes (fun x => [.entity .parameter x]) parameters fun p _ _ => p.build_makes).bind fun xs => ?_
    refine (list_makes (k := .parameter) (by simp +contextual)).bind fun parameters => ?_
    refine (mapM_makes (fun x => [.entity .attr x]) attributes fun a _ _ => a.build_makes).bind fun xs => ?_
    refine (list_makes (k := .attr) (by simp +contextual)).bind fun attributes => ?_
    refine (mapM_makes (fun x => [.text x]) typeParameters fun v _ _ => text_makes v).bind fun ts => ?_
    refine region.build_makes.bind fun region => ?_
    refine (place_makes (k := .method) ?_).imp fun x t ht => ht.imp (by grind)
    simp only [Kind.parts, Method.parts]
    grind

lemma DefinitionRecipe.build_makes (r : DefinitionRecipe) :
    r.build.Makes (Hand σ s is free)
      (fun d t => Hand σ s (.definition d :: is) free t ∧ s.nextObject ≤ d.id) := by
  refine (buildNs_makes r.ns).bind fun ns => (text_makes r.name).bind fun name => ?_
  refine (mapM_makes (fun x => [.entity .typeRef x]) r.bases fun b _ _ => b.build_makes).bind fun xs => ?_
  refine (list_makes (k := .typeRef) (by simp +contextual)).bind fun bases => ?_
  refine (mapM_makes (fun x => [.entity .method x]) r.methods fun m _ _ => m.build_makes).bind fun xs => ?_
  refine (list_makes (k := .method) (by simp +contextual)).bind fun methods => ?_
  refine (mapM_makes (fun x => [.entity .attr x]) r.attributes fun a _ _ => a.build_makes).bind fun xs => ?_
  refine (list_makes (k := .attr) (by simp +contextual)).bind fun attributes => ?_
  refine r.region.build_makes.bind fun region => label_makes.bind fun a => .pure fun t ht => ⟨?_, ?_⟩
  · refine (ht.object
      (i := .definition ⟨a, ⟨ns, name, r.kind, r.accessibility, bases, methods, attributes, region⟩⟩)
      rfl ?_).imp (by grind)
    simp [Definition.parts]
  · obtain ⟨_, _, _, _, _, hfree⟩ := ht
    exact (hfree a (by simp)).1

lemma Session.Hand.freezeProbe {t : Session} {series : ProbeSeries} {x : Handle Probe}
    (h : Hand σ s (.entity (.probe series) x :: is) free t) :
    Hand σ s (.entity (.probe series) x :: is) free { t with frozen := x.id :: t.frozen } := by
  obtain ⟨τ, hg, hb, hf, hn, hfree⟩ := h
  have known : τ.object x.id = some (.entity (.probe series) x) := (hf (.entity (.probe series) x) (by simp)).knows
  refine ⟨τ, { hg with frozen := ?_, closed := ?_ }, ?_, hf, hn, fun a ha => ⟨(hfree a ha).1, ?_⟩⟩
  · simpa using ⟨hg.object _ _ known, hg.frozen⟩
  · intro id hid i hi hm l hl
    rcases List.mem_cons.mp hid with rfl | hid
    · rw [known, Option.some.injEq] at hi
      simp [← hi, Kind.isModel] at hm
    · exact List.mem_cons_of_mem _ (hg.closed id hid i hi hm l hl)
  · exact { hb with
      same := by rw [hb.same]
      frozen := fun id hid => List.mem_cons_of_mem _ (hb.frozen id hid) }
  · refine { (hfree a ha).2 with frozen := fun hz => ?_ }
    rcases List.mem_cons.mp hz with rfl | hz
    · simp [(hfree _ ha).2.object] at known
    · exact (hfree a ha).2.frozen hz

lemma ProbeRecipe.place_makes {series : ProbeSeries} {hash : UInt64} {tag : Int} {child : Option (Handle Probe)}
    {frozen : Bool} (hp : child.elim .nothing (.entity (.probe series)) ∈ is) :
    Builder.Makes (do
      let x ← place (.mk hash tag child)
      if frozen then modify fun s => { s with frozen := x.id :: s.frozen }
      return x) (Hand σ s is free) (fun x => Hand σ s (.entity (.probe series) x :: is) free) := by
  refine (Builder.place_makes (k := .probe series) (v := .mk hash tag child) ?_).bind fun x => ?_
  · simpa [Kind.parts, Probe.parts] using hp
  · cases frozen with
    | true => exact .bind (.modify fun t ht => ht.freezeProbe) fun _ => .pure fun t ht => ht
    | false => exact .pure fun t ht => ht

lemma ProbeRecipe.build_makes (series : ProbeSeries) (r : ProbeRecipe) {is : List Item} :
    (r.build series).Makes (Hand σ s is free) (fun x => Hand σ s (.entity (.probe series) x :: is) free) := by
  have placed (hash : UInt64) (tag : Int) (frozen : Bool) (child : Option (Handle Probe)) : Builder.Makes (do
      let x ← place (.mk hash tag child)
      if frozen then modify fun s => { s with frozen := x.id :: s.frozen }
      return x) (Hand σ s (child.elim .nothing (.entity (.probe series)) :: is) free)
      (fun x => Hand σ s (.entity (.probe series) x :: is) free) :=
    (place_makes (by simp)).imp fun x t ht => ht.imp (by grind)
  match r with
  | .register name => exact entity_makes (.probe series) name
  | .make hash tag none frozen =>
    exact .bind (.pure (a := none) fun t ht => ht.nothing) (placed hash tag frozen)
  | .make hash tag (some c) frozen =>
    exact (build_makes series c).bind fun x => placed hash tag frozen (some x)

lemma Kind.build_makes (k : Kind) (r : k.Recipe) :
    (k.build r).Makes (Hand σ s is free) (fun x => Hand σ s (.entity k x :: is) free) := by
  cases k with
  | typeRef => exact TypeRecipe.build_makes r
  | constant => exact ConstantRecipe.build_makes r
  | attr => exact AttributeRecipe.build_makes r
  | parameter => exact ParameterRecipe.build_makes r
  | method => exact MethodRecipe.build_makes r
  | probe series => exact ProbeRecipe.build_makes series r

lemma Session.Hand.copy {t : Session} {k : Kind} {l : EntityList k.Carrier} {a : Nat}
    (h : Hand σ s is (a :: free) t) (hl : .list k l ∈ is) : Hand σ s (.list k (l.copy a) :: is) free t := by
  unfold EntityList.copy
  split
  · exact h.forget.within hl (.refl _)
  · refine ((h.parts hl).list k l.items fun x hx => ?_).imp fun j hj => ?_
    · exact List.mem_append_left _ (List.mem_map_of_mem hx)
    · simp only [EntityList.owned, List.mem_cons, List.mem_append] at hj ⊢
      tauto

lemma Session.Hand.copyParts {t : Session} {k : Kind} {x : Handle k.Carrier} {a : Nat}
    (h : Hand σ s is [a, a + 1] t) (hx : .entity k x ∈ is) : Hand σ s (k.parts (k.copy a x.val) ++ is) [] t := by
  have parts := h.parts hx
  simp only [Item.parts_entity] at parts
  cases k with
  | constant | probe => exact parts.forget.forget
  | typeRef =>
    obtain ⟨id, v⟩ := x
    cases v with
    | named ns name args =>
      refine (parts.copy (k := .typeRef) (l := args) ?_).forget.imp fun j hj => ?_
      · simp [Kind.parts, TypeRef.parts]
      · simp only [Kind.parts, Kind.copy, TypeRef.copy, TypeRef.parts] at hj ⊢
        grind
    | _ => exact parts.forget.forget
  | attr =>
    refine (parts.copy (k := .constant) (l := x.val.positional) ?_).forget.imp fun j hj => ?_
    · simp [Kind.parts, Attribute.parts]
    · simp only [Kind.parts, Kind.copy, Attribute.copy, Attribute.parts] at hj ⊢
      grind
  | parameter =>
    refine (parts.copy (k := .attr) (l := x.val.attributes) ?_).forget.imp fun j hj => ?_
    · simp [Kind.parts, Parameter.parts]
    · simp only [Kind.parts, Kind.copy, Parameter.copy, Parameter.parts] at hj ⊢
      grind
  | method =>
    refine ((parts.copy (k := .parameter) (l := x.val.parameters) ?_).copy (k := .attr) (l := x.val.attributes)
      ?_).imp fun j hj => ?_
    · simp [Kind.parts, Method.parts]
    · simp [Kind.parts, Method.parts]
    · simp only [Kind.parts, Kind.copy, Method.copy, Method.parts] at hj ⊢
      grind

lemma Item.share_makes (i : Item) (hi : i ∈ is) : i.share.Makes (Hand σ s is free)
    (fun j t => Hand σ s (j :: is) free t ∧ ∀ d, j ≠ .definition d) := by
  cases i with
  | list k l => exact label_makes.bind fun a => .pure fun t ht => ⟨ht.copy hi, by simp⟩
  | definition d => exact .failure
  | nothing | text | entity => exact .pure fun t ht => ⟨ht.within hi (.refl _), by simp⟩

theorem ItemRecipe.build_makes (r : ItemRecipe) : r.build.Makes (Hand σ s is free)
    (fun i t => Hand σ s (i :: is) free t ∧ ∀ d, i = .definition d → s.nextObject ≤ d.id) := by
  cases r with
  | nothing => exact .pure fun t ht => ⟨ht.nothing, by simp⟩
  | register name =>
    refine (register_makes name).bind fun i => .given fun _ => ?_
    refine (i.share_makes (by simp)).imp fun j t ht => ⟨ht.1.skip, fun d hd => absurd hd (ht.2 d)⟩
  | text r => exact r.build_makes.bind fun t => .pure fun u hu => ⟨hu, by simp⟩
  | entity k r => exact (k.build_makes r).bind fun x => .pure fun t ht => ⟨ht, by simp⟩
  | list k rs =>
    refine (mapM_makes (fun x => [.entity k x]) rs fun r _ _ => k.build_makes r).bind fun xs => ?_
    refine (list_makes (by simp +contextual)).bind fun l => .pure fun t ht => ⟨ht.imp fun j hj => ?_, by simp⟩
    simp only [List.mem_cons, List.mem_append] at hj ⊢
    tauto
  | definition d =>
    refine d.build_makes.bind fun d => .pure fun t ht => ⟨ht.1, fun e he => ?_⟩
    simpa [← Item.definition.inj he] using ht.2

end CodeModel
