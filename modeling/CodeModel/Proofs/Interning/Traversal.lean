import CodeModel.Proofs.Interning.Slot

/-! Whatever one slot of a row keeps up, held by the slots beside it, the whole row keeps up. -/

namespace CodeModel

def Interning.Sends {α : Type} (act : Interning α) (P : Work → Prop) (Q : α → Work → Prop) : Prop :=
  ∀ w, P w → Q (act.run w).1 (act.run w).2

namespace Interning.Sends

variable {α β : Type} {P P' : Work → Prop} {Q : α → Work → Prop} {R : β → Work → Prop} {φ : Prop}

lemma bind {act : Interning α} {next : α → Interning β} (h : act.Sends P Q) (h' : ∀ a, (next a).Sends (Q a) R) :
    (act >>= next).Sends P R := fun w hw => h' _ _ (h w hw)

lemma pure {a : α} (h : ∀ w, P w → Q a w) : Interning.Sends (Pure.pure a) P Q := h

lemma weaken {act : Interning α} (h : act.Sends P Q) (hP : ∀ w, P' w → P w) : act.Sends P' Q := fun w hw => h w (hP w hw)

lemma given {act : Interning α} (h : φ → act.Sends P Q) : act.Sends (fun w => P w ∧ φ) Q := by
  intro w hw
  exact h hw.2 w hw.1

end Interning.Sends

structure Passes (s : Setting) (outer : Held) (ok : Item → Prop) (P : List Item → List Item → Work → Prop) :
    Prop where
  nothing : ∀ {done rest v}, P done (.nothing :: rest) v → P (done ++ [.nothing]) rest v
  text : ∀ {done rest} (t : Text),
    (poolText s t).Sends (P done (.text t :: rest)) (fun u => P (done ++ [.text u]) rest)
  list : ∀ {done rest} {k : Kind} {l : EntityList k.Carrier}, ok (.list k l) →
    (k.internList s l).Sends (P done (.list k l :: rest)) (fun m => P (done ++ [.list k m]) rest)
  entity : ∀ {done rest} {k : Kind} {x : Handle k.Carrier} {held : Held}, ok (.entity k x) →
    (∀ τ : Store, (∀ p ∈ done ++ rest, τ.Fits p) →
      ∀ id, held id = true ↔ outer id = true ∨ LabelsAny (done ++ rest) id) →
    (k.intern s held x).Sends (P done (.entity k x :: rest)) (fun y => P (done ++ [.entity k y]) rest)

variable {s : Setting} {outer : Held} {ok : Item → Prop} {P : List Item → List Item → Work → Prop}
  {done rest : List Item}

lemma sends_region (hP : Passes s outer ok P) (r : Region) : (poolRegion s r).Sends (P done (r.part :: rest))
    (fun q v => P (done ++ [q.part]) rest v ∧ q.outline = r.outline) := by
  obtain ⟨_ | f, start, stop⟩ := r
  · exact .pure fun v hv => ⟨hP.nothing hv, rfl⟩
  · exact (hP.text f).bind fun g => .pure fun v hv => ⟨hv, rfl⟩

theorem sends_mapM {α β : Type} {act : α → Interning β} {item : α → Item} {item' : β → Item} (as : List α)
    (h : ∀ a ∈ as, ∀ done rest, (act a).Sends (P done (item a :: rest))
      (fun b => P (done ++ [item' b]) rest)) :
    (as.mapM act).Sends (P done (as.map item ++ rest))
      (fun bs v => P (done ++ bs.map item') rest v ∧ bs.length = as.length) := by
  induction as generalizing done with
  | nil => exact .pure fun v hv => ⟨by simpa using hv, rfl⟩
  | cons a as ih =>
    rw [List.mapM_cons]
    refine (h a (by simp) done _).bind fun b => ?_
    refine (ih fun a ha => h a (by simp [ha])).bind fun bs => ?_
    exact .pure fun v hv => ⟨by simpa using hv.1, by simp [hv.2]⟩

lemma sends_elements (hP : Passes s .everything ok P) {k : Kind} (xs : List (Handle k.Carrier))
    (hx : ∀ x ∈ xs, ok (.entity k x)) :
    (xs.mapM (k.intern s .everything)).Sends (P [] (xs.map (.entity k))) (fun ys => P (ys.map (.entity k)) []) := by
  have row : (xs.mapM (k.intern s .everything)).Sends (P [] (xs.map (.entity k) ++ []))
      (fun ys v => P ([] ++ ys.map (.entity k)) [] v ∧ ys.length = xs.length) :=
    sends_mapM xs fun x hm done rest => hP.entity (hx x hm) fun _ _ _ => by simp [Held.everything]
  intro w hw
  simpa using (row w (by simpa using hw)).1

lemma Held.and_marked {held : Held} {mark : Marks → Marks} {τ : Store} (marked : List Item)
    (hf : ∀ i ∈ marked, τ.Fits i) (hmark : mark [] = markAll marked []) {id : Nat} :
    held.and mark id = true ↔ held id = true ∨ LabelsAny marked id := by
  simp [Held.and, hmark, mem_markAll hf [] closed_nil, LabelsAny]

@[simp] lemma labels_literal (l : Literal) (id : Nat) : ¬ l.part.Labels id := by
  cases l <;> simp [Literal.part]

@[simp] lemma labels_region (r : Region) (id : Nat) : ¬ r.part.Labels id := by
  cases h : r.file <;> simp [Region.part, h]

@[simp] lemma labelsAny_texts (ts : List Text) (id : Nat) : ¬ LabelsAny (ts.map .text) id := by
  simp [LabelsAny]

section Kinds

variable {held : Held} (hP : Passes s held ok P)

lemma TypeRef.internAll_eq (xs : List (Handle TypeRef)) :
    internAll s xs = xs.mapM (Kind.intern s .typeRef .everything) := by
  induction xs with
  | nil => rfl
  | cons x xs ih =>
    rw [List.mapM_cons, ← ih]
    rfl

include hP

lemma TypeRef.prepare_sends (t : TypeRef) (ht : ∀ i ∈ t.parts, ok i) :
    (t.prepare s held).Sends (P [] t.parts) (fun u v => P u.parts [] v ∧ u.outline = t.outline) := by
  have only (τ : Store) (_ : ∀ p ∈ ([] ++ [] : List Item), τ.Fits p) (id : Nat) :
      held id = true ↔ held id = true ∨ LabelsAny ([] ++ []) id := by simp
  cases t with
  | unknown | null | dynamic => exact .pure fun v hv => ⟨hv, rfl⟩
  | named ns name args =>
    unfold prepare
    rw [internAll_eq]
    refine (hP.text ns).bind fun ns => ?_
    refine (hP.text name).bind fun name => ?_
    refine (hP.list (ht (.list .typeRef args) (by simp [parts]))).bind fun args => ?_
    exact .pure fun v hv => ⟨hv, rfl⟩
  | array e rank =>
    unfold prepare
    refine (hP.entity (ht (.entity .typeRef e) (by simp [parts])) only).bind fun e => ?_
    exact .pure fun v hv => ⟨hv, rfl⟩
  | byRef e =>
    unfold prepare
    refine (hP.entity (ht (.entity .typeRef e) (by simp [parts])) only).bind fun e => ?_
    exact .pure fun v hv => ⟨hv, rfl⟩

lemma Probe.prepare_sends (series : ProbeSeries) (p : Probe) (hp : ∀ i ∈ p.parts series, ok i) :
    (p.prepare s series held).Sends (P [] (p.parts series))
      (fun q v => P (q.parts series) [] v ∧ q.outline = p.outline) := by
  obtain ⟨hash, tag, _ | x⟩ := p
  · unfold prepare
    exact .pure fun v hv => ⟨hP.nothing hv, rfl⟩
  · unfold prepare
    refine (hP.entity (hp (.entity (.probe series) x) (by simp [parts])) fun _ _ id => by simp).bind fun y => ?_
    exact .pure fun v hv => ⟨hv, rfl⟩

lemma Constant.prepare_sends (c : Constant) (hc : ∀ i ∈ c.parts, ok i) :
    (c.prepare s held).Sends (P [] c.parts) (fun d v => P d.parts [] v ∧ d.outline = c.outline) := by
  obtain ⟨type, literal⟩ := c
  have slot (τ : Store) (_ : ∀ p ∈ [] ++ [literal.part], τ.Fits p) (id : Nat) :
      held id = true ↔ held id = true ∨ LabelsAny ([] ++ [literal.part]) id := by simp [labelsAny_cons]
  refine (hP.entity (hc (.entity .typeRef type) (by simp [parts])) slot).bind fun type => ?_
  cases literal with
  | string t => exact (hP.text t).bind fun t => .pure fun v hv => ⟨hv, rfl⟩
  | _ => exact .pure fun v hv => ⟨hP.nothing hv, rfl⟩

lemma Attribute.internNamed_sends {inner : Held} {pre post : List Item} (ns : List NamedArgument)
    (hns : ∀ i ∈ ns.flatMap NamedArgument.parts, ok i)
    (hinner : ∀ τ : Store, (∀ p ∈ pre, τ.Fits p) → ∀ id, inner id = true ↔ held id = true ∨ LabelsAny pre id)
    (hpost : ∀ id, ¬ LabelsAny post id) (ms : List NamedArgument) :
    (internNamed s inner ms ns).Sends
      (P (pre ++ ms.flatMap NamedArgument.parts) (ns.flatMap NamedArgument.parts ++ post))
      (fun ls v => P (pre ++ ls.flatMap NamedArgument.parts) post v ∧
        ls.length = ms.length + ns.length) := by
  induction ns generalizing ms with
  | nil => exact .pure fun v hv => ⟨hv, rfl⟩
  | cons n ns ih =>
    simp only [List.flatMap_cons, NamedArgument.parts, List.mem_append, List.mem_cons] at hns
    have value (name : Text) (τ : Store)
        (hτ : ∀ p ∈ (pre ++ ms.flatMap NamedArgument.parts ++ [.text name]) ++
          (ns.flatMap NamedArgument.parts ++ post), τ.Fits p)
        (id : Nat) : inner.and (markNamed (ms ++ ns)) id = true ↔
          held id = true ∨ LabelsAny ((pre ++ ms.flatMap NamedArgument.parts ++ [.text name]) ++
            (ns.flatMap NamedArgument.parts ++ post)) id := by
      have marked (p : Item) (hp : p ∈ (ms ++ ns).flatMap NamedArgument.parts) : τ.Fits p :=
        hτ p (by rw [List.flatMap_append] at hp; grind)
      rw [Held.and_marked _ marked (markNamed_eq _ _), hinner τ fun p hp => hτ p (by grind)]
      simp only [List.flatMap_append, labelsAny_append, labelsAny_cons, labelsAny_nil, Item.labels_text, hpost,
        or_false, or_assoc]
    refine (hP.text n.name).bind fun name => ?_
    refine (hP.entity (hns _ (.inl (.inr (.inl rfl)))) (value name)).bind fun c => ?_
    have next := ih (fun i hi => hns i (.inr hi)) (ms ++ [⟨name, c⟩])
    simp only [List.flatMap_append, List.flatMap_cons, List.flatMap_nil, NamedArgument.parts,
      List.length_append] at next
    simpa [Nat.add_assoc, Nat.add_comm 1] using next

lemma Attribute.prepare_sends (a : Attribute) (ha : ∀ i ∈ a.parts, ok i) :
    (a.prepare s held).Sends (P [] a.parts) (fun b v => P b.parts [] v ∧ b.outline = a.outline) := by
  obtain ⟨type, positional, named, region⟩ := a
  have typeHeld (τ : Store) (hτ : ∀ p ∈ [] ++ (.list .constant positional :: (named.flatMap NamedArgument.parts ++
      [region.part])), τ.Fits p) (id : Nat) : held.and (markNamed named ∘ markItems .constant positional) id = true ↔
        held id = true ∨ LabelsAny ([] ++ (.list .constant positional ::
          (named.flatMap NamedArgument.parts ++ [region.part]))) id := by
    rw [Held.and_marked (.list .constant positional :: named.flatMap NamedArgument.parts)
      (fun p hp => hτ p (by grind)) (markNamed_eq _ _)]
    simp only [List.nil_append, labelsAny_append, labelsAny_cons, labelsAny_nil, labels_region, or_false]
  have valuesHeld (type : Handle TypeRef) (positional : EntityList Constant) (τ : Store)
      (hτ : ∀ p ∈ [.entity .typeRef type, .list .constant positional], τ.Fits p) (id : Nat) :
      held.and (markItems .constant positional ∘ Kind.mark .typeRef type) id = true ↔
        held id = true ∨ LabelsAny [.entity .typeRef type, .list .constant positional] id :=
    Held.and_marked _ hτ rfl
  simp only [parts, List.mem_append, List.mem_cons, List.not_mem_nil, or_false] at ha
  have namedParts := fun i hi => ha i (.inl (.inr hi))
  refine (hP.entity (ha (.entity .typeRef type) (by simp)) typeHeld).bind fun type => ?_
  refine (hP.list (ha (.list .constant positional) (by simp))).bind fun positional => ?_
  refine (internNamed_sends hP named namedParts (valuesHeld type positional)
    (by simp [labelsAny_cons]) []).bind fun ns => ?_
  refine .given fun hlen => (sends_region hP region).bind fun q => .given fun hq => .pure fun v hv => ⟨hv, ?_⟩
  simp only [List.length_nil, Nat.zero_add] at hlen
  simp [outline, hlen, hq]

lemma Constant.internOptional_sends {inner : Held} (c : Option (Handle Constant))
    (hc : ok (c.elim .nothing (.entity .constant)))
    (hinner : ∀ τ : Store, (∀ p ∈ done ++ rest, τ.Fits p) →
      ∀ id, inner id = true ↔ held id = true ∨ LabelsAny (done ++ rest) id) :
    (internOptional s inner c).Sends (P done (c.elim .nothing (.entity .constant) :: rest))
      (fun d v => P (done ++ [d.elim .nothing (.entity .constant)]) rest v ∧
        (d.map fun _ => (⟨0, .null⟩ : Handle Constant)) = c.map fun _ => ⟨0, .null⟩) := by
  cases c with
  | none => exact .pure fun v hv => ⟨hP.nothing hv, rfl⟩
  | some c => exact (hP.entity hc hinner).bind fun d => .pure fun v hv => ⟨hv, rfl⟩

lemma Parameter.prepare_sends (p : Parameter) (hp : ∀ i ∈ p.parts, ok i) :
    (p.prepare s held).Sends (P [] p.parts) (fun q v => P q.parts [] v ∧ q.outline = p.outline) := by
  obtain ⟨name, type, attributes, default, region, flags⟩ := p
  simp only [parts, List.mem_cons, List.not_mem_nil, or_false] at hp
  have typeHeld (name : Text) (τ : Store) (hτ : ∀ p ∈ [.text name] ++ [.list .attr attributes,
      default.elim .nothing (.entity .constant), region.part], τ.Fits p) (id : Nat) :
      held.and (markDefault default ∘ markItems .attr attributes) id = true ↔
        held id = true ∨ LabelsAny ([.text name] ++ [.list .attr attributes,
          default.elim .nothing (.entity .constant), region.part]) id := by
    rw [Held.and_marked [.list .attr attributes, default.elim .nothing (.entity .constant)]
      (fun p hp => hτ p (by grind)) (markDefault_eq _ _)]
    simp only [List.cons_append, List.nil_append, labelsAny_cons, labelsAny_nil, Item.labels_text, labels_region,
      or_false, false_or]
  have defaultHeld (name : Text) (type : Handle TypeRef) (attributes : EntityList Attribute) (τ : Store)
      (hτ : ∀ p ∈ [.text name, .entity .typeRef type, .list .attr attributes] ++ [region.part], τ.Fits p)
      (id : Nat) : held.and (markItems .attr attributes ∘ Kind.mark .typeRef type) id = true ↔
        held id = true ∨
          LabelsAny ([.text name, .entity .typeRef type, .list .attr attributes] ++ [region.part]) id := by
    refine (Held.and_marked [.entity .typeRef type, .list .attr attributes] (fun p hp => hτ p (by grind))
      rfl).trans ?_
    simp only [List.cons_append, List.nil_append, labelsAny_cons, labelsAny_nil, Item.labels_text, labels_region,
      or_false, false_or]
  refine (hP.text name).bind fun name => ?_
  refine (hP.entity (hp (.entity .typeRef type) (by simp)) (typeHeld name)).bind fun type => ?_
  refine (hP.list (hp (.list .attr attributes) (by simp))).bind fun attributes => ?_
  refine (Constant.internOptional_sends hP default (hp _ (by simp))
    (defaultHeld name type attributes)).bind fun d => ?_
  refine .given fun hd => (sends_region hP region).bind fun q => .given fun hq => .pure fun v hv => ⟨hv, ?_⟩
  simp [outline, hd, hq]

lemma Method.prepare_sends (m : Method) (hm : ∀ i ∈ m.parts, ok i) :
    (m.prepare s held).Sends (P [] m.parts) (fun n v => P n.parts [] v ∧ n.outline = m.outline) := by
  obtain ⟨name, returns, parameters, attributes, typeParameters, accessibility, modifiers, region⟩ := m
  have returnsHeld (name : Text) (τ : Store) (hτ : ∀ p ∈ [.text name] ++ (.list .parameter parameters ::
      .list .attr attributes :: (typeParameters.map .text ++ [region.part])), τ.Fits p) (id : Nat) :
      held.and (markItems .attr attributes ∘ markItems .parameter parameters) id = true ↔
        held id = true ∨ LabelsAny ([.text name] ++ (.list .parameter parameters ::
          .list .attr attributes :: (typeParameters.map .text ++ [region.part]))) id := by
    refine (Held.and_marked [.list .parameter parameters, .list .attr attributes] (fun p hp => hτ p (by grind))
      rfl).trans ?_
    simp only [List.cons_append, List.nil_append, labelsAny_append, labelsAny_cons, labelsAny_nil,
      Item.labels_text, labels_region, labelsAny_texts, or_false, false_or]
  simp only [parts, List.mem_append, List.mem_cons, List.not_mem_nil, or_false] at hm
  refine (hP.text name).bind fun name => ?_
  refine (hP.entity (hm (.entity .typeRef returns) (by simp)) (returnsHeld name)).bind fun returns => ?_
  refine (hP.list (hm (.list .parameter parameters) (by simp))).bind fun parameters => ?_
  refine (hP.list (hm (.list .attr attributes) (by simp))).bind fun attributes => ?_
  refine (sends_mapM typeParameters fun t _ done rest => hP.text t).bind fun ts => ?_
  refine .given fun hlen => (sends_region hP region).bind fun q => .given fun hq => .pure fun v hv => ⟨hv, ?_⟩
  simp [outline, hlen, hq]

end Kinds

theorem prepare_sends {held : Held} (hP : Passes s held ok P) (k : Kind) (v : k.Carrier)
    (hv : ∀ i ∈ k.parts v, ok i) : (k.prepare s held v).Sends (P [] (k.parts v))
      (fun v' u => P (k.parts v') [] u ∧ k.outline v' = k.outline v) := by
  cases k with
  | typeRef => exact TypeRef.prepare_sends hP v hv
  | constant => exact Constant.prepare_sends hP v hv
  | attr => exact Attribute.prepare_sends hP v hv
  | parameter => exact Parameter.prepare_sends hP v hv
  | method => exact Method.prepare_sends hP v hv
  | probe series => exact Probe.prepare_sends hP series v hv

lemma internParts_sends (hP : Passes s .everything ok P) (v : Definition) (hv : ∀ i ∈ v.parts, ok i) :
    (v.internParts s).Sends (P [] v.parts) (fun w u => P w.parts [] u ∧ w.outline = v.outline) := by
  simp only [Definition.parts, List.mem_cons, List.not_mem_nil, or_false] at hv
  refine (hP.text _).bind fun ns => (hP.text _).bind fun name => ?_
  refine (hP.list (hv _ (by simp))).bind fun bases => (hP.list (hv _ (by simp))).bind fun methods => ?_
  refine (hP.list (hv _ (by simp))).bind fun attributes => (sends_region hP _).bind fun region => ?_
  refine .given fun hq => .pure fun u hu => ⟨hu, ?_⟩
  simp [Definition.outline, hq]

theorem internMembers_sends (hP : Passes s .everything ok P) (d : Handle Definition) (hd : ∀ i ∈ d.val.parts, ok i)
    (hz : d.id ∉ s.frozen) (hevent : ∀ {done v} (n : Nat) (name : String) (methods : Nat), P done [] v →
      P done [] { v with events := v.events ++ [.interned n name methods] }) :
    (Definition.internMembers s d).Sends (P [] d.val.parts)
      (fun e v => P e.val.parts [] v ∧ e.val.outline = d.val.outline ∧ e.id = d.id) := by
  intro w hw
  obtain ⟨hp, ho⟩ := internParts_sends hP d.val hd w hw
  rw [internMembers_run hz, run_unlessFailed]
  split
  · exact ⟨hp, ho, rfl⟩
  · exact ⟨hevent _ _ _ hp, ho, rfl⟩

end CodeModel
