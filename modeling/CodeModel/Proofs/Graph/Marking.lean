import CodeModel.Proofs.Graph.Store

/-! Marking an item marks exactly the labels within it, as long as the marks are closed. -/

namespace CodeModel

def markAll (is : List Item) (m : Marks) : Marks := is.foldl (fun m i => i.mark m) m

@[simp] lemma markAll_nil (m : Marks) : markAll [] m = m := rfl

@[simp] lemma markAll_cons (i : Item) (is : List Item) (m : Marks) :
    markAll (i :: is) m = markAll is (i.mark m) := rfl

lemma markAll_append (is js : List Item) (m : Marks) : markAll (is ++ js) m = markAll js (markAll is m) :=
  List.foldl_append

@[simp] lemma Item.mark_text (t : Text) (m : Marks) : (Item.text t).mark m = m := rfl

@[simp] lemma Item.mark_nothing (m : Marks) : Item.nothing.mark m = m := rfl

@[simp] lemma Item.mark_literal (l : Literal) (m : Marks) : l.part.mark m = m := by cases l <;> rfl

@[simp] lemma Item.mark_region (r : Region) (m : Marks) : r.part.mark m = m := by
  cases h : r.file <;> simp [Region.part, h]

lemma markAll_texts (ts : List Text) (m : Marks) : markAll (ts.map .text) m = m := by
  induction ts <;> simp_all

lemma visitAll_eq (k : Kind) (xs : List (Handle k.Carrier)) (m : Marks) :
    Marks.visitAll k.markBelow xs m = markAll (xs.map (.entity k)) m := by
  simp only [markAll, List.foldl_map]
  rfl

lemma Item.mark_list (k : Kind) (l : EntityList k.Carrier) (m : Marks) :
    (Item.list k l).mark m = markAll (l.items.map (.entity k)) m :=
  visitAll_eq k l.items m

lemma TypeRef.markAll_eq (xs : List (Handle TypeRef)) (m : Marks) :
    TypeRef.markAll xs m = Marks.visitAll TypeRef.markBelow xs m := by
  induction xs generalizing m with
  | nil => rfl
  | cons x xs ih => simp [TypeRef.markAll, ih, Marks.visitAll]

lemma markNamed_eq (ns : List NamedArgument) (m : Marks) :
    markNamed ns m = markAll (ns.flatMap NamedArgument.parts) m := by
  induction ns generalizing m with
  | nil => rfl
  | cons n ns ih =>
    simp only [List.flatMap_cons, markAll_append, ← ih]
    rfl

lemma markDefault_eq (c : Option (Handle Constant)) (m : Marks) :
    markDefault c m = (c.elim .nothing (Item.entity .constant)).mark m := by
  cases c <;> rfl

namespace Kind

lemma markBelow_eq (k : Kind) (v : k.Carrier) (m : Marks) : k.markBelow v m = markAll (k.parts v) m := by
  cases k with
  | typeRef =>
    cases v with
    | named ns name args => exact TypeRef.markAll_eq args.items m
    | _ => rfl
  | constant => simp only [parts, Constant.parts, markAll_cons, markAll_nil, Item.mark_literal]; rfl
  | attr =>
    simp only [parts, Attribute.parts, markAll_append, markAll_cons, markAll_nil, Item.mark_region,
      ← markNamed_eq]
    rfl
  | parameter =>
    simp only [parts, Parameter.parts, markAll_cons, markAll_nil, Item.mark_region, ← markDefault_eq]
    rfl
  | method =>
    simp only [parts, Method.parts, markAll_append, markAll_cons, markAll_nil, Item.mark_region,
      markAll_texts]
    rfl
  | probe series => obtain ⟨hash, tag, _ | x⟩ := v <;> rfl

end Kind

namespace Item

lemma mark_entity (k : Kind) (x : Handle k.Carrier) (m : Marks) :
    (entity k x).mark m = Marks.visit x.id (markAll (k.parts x.val)) m := by
  simp only [mark, Kind.mark, Marks.visit, k.markBelow_eq]

lemma mark_definition (d : Handle Definition) (m : Marks) :
    (definition d).mark m = Marks.visit d.id (markAll d.val.parts) m := by
  have below : d.val.markBelow m = markAll d.val.parts m := by
    simp only [Definition.parts, markAll_cons, markAll_nil, mark_region]
    rfl
  simp only [mark, Definition.mark, Marks.visit, below]

end Item

lemma SharedType.mem_marks {id : Nat} : id ∈ SharedType.marks ↔ ∃ t : SharedType, t.handle.id = id := by
  simp only [SharedType.marks, List.mem_map]
  constructor
  · rintro ⟨t, -, ht⟩
    exact ⟨t, ht⟩
  · rintro ⟨t, ht⟩
    exact ⟨t, by cases t <;> simp [SharedType.all], ht⟩

def Store.Closed (σ : Store) (P : Item → Prop) (m : Marks) : Prop :=
  ∀ id ∈ m, ∀ i, σ.object id = some i → P i → ∀ l, i.Labels l → l ∈ m

def Hereditary (P : Item → Prop) : Prop := ∀ i, P i → ∀ p ∈ i.parts, P p

structure Marked (σ : Store) (P : Item → Prop) (i : Item) (m n : Marks) : Prop where
  grows : ∀ id ∈ m, id ∈ n
  sound : ∀ id ∈ n, id ∈ m ∨ i.Labels id
  complete : P i → ∀ id, i.Labels id → id ∈ n
  closed : σ.Closed P n

variable {σ : Store} {P : Item → Prop}

lemma marked_all (hP : Hereditary P) {i : Item} (is : List Item) (hsub : ∀ p ∈ is, p ∈ i.parts)
    (ih : ∀ p ∈ i.parts, ∀ m, σ.Fits p → σ.Closed P m → Marked σ P p m (p.mark m)) (hf : ∀ p ∈ is, σ.Fits p)
    (m : Marks) (hm : σ.Closed P m) :
    (∀ id ∈ m, id ∈ markAll is m) ∧ (∀ id ∈ markAll is m, id ∈ m ∨ ∃ p ∈ is, p.Labels id) ∧
      (P i → ∀ p ∈ is, ∀ id, p.Labels id → id ∈ markAll is m) ∧ σ.Closed P (markAll is m) := by
  induction is generalizing m with
  | nil => simpa using hm
  | cons p is ihs =>
    simp only [List.mem_cons, forall_eq_or_imp] at hsub hf
    have head := ih p hsub.1 m hf.1 hm
    obtain ⟨hg, hs, hc, hcl⟩ := ihs hsub.2 hf.2 (p.mark m) head.closed
    refine ⟨fun id h => hg id (head.grows id h), fun id h => ?_, fun hp q hq id hl => ?_, hcl⟩
    · rcases hs id h with h | ⟨q, hq, hl⟩
      · apply (head.sound id h).imp_right
        intro hl
        exact ⟨p, by simp, hl⟩
      · exact .inr ⟨q, by simp [hq], hl⟩
    · rcases List.mem_cons.mp hq with rfl | hq
      · exact hg id (head.complete (hP i hp q hsub.1) id hl)
      · exact hc hp q hq id hl

lemma marked_visit (hP : Hereditary P) {i : Item} {id : Nat} (hid : i.label? = some id) (hi : σ.Fits i)
    (ih : ∀ p ∈ i.parts, ∀ m, σ.Fits p → σ.Closed P m → Marked σ P p m (p.mark m)) (m : Marks)
    (hm : σ.Closed P m) : Marked σ P i m (Marks.visit id (markAll i.parts) m) := by
  have known := hi.object (.refl i) hid
  by_cases hmem : id ∈ m
  · have skip : Marks.visit id (markAll i.parts) m = m := by simp [Marks.visit, hmem]
    rw [skip]
    exact ⟨fun _ h => h, fun _ h => .inl h, fun hp l hl => hm id hmem i known hp l hl, hm⟩
  · have enter : Marks.visit id (markAll i.parts) m = id :: markAll i.parts m := by
      simp [Marks.visit, hmem]
    obtain ⟨hg, hs, hc, hcl⟩ := marked_all hP i.parts (fun _ h => h) ih (fun _ => hi.part) m hm
    have complete (hp : P i) (l : Nat) (hl : i.Labels l) : l ∈ id :: markAll i.parts m := by
      rcases Item.labels_iff.mp hl with h | ⟨p, hpart, hl⟩
      · rw [hid] at h
        simp_all
      · exact List.mem_cons_of_mem _ (hc hp p hpart l hl)
    rw [enter]
    refine ⟨fun n h => List.mem_cons_of_mem _ (hg n h), fun n h => ?_, complete, fun n h j hj hp l hl => ?_⟩
    · rcases List.mem_cons.mp h with rfl | h
      · exact .inr (Item.labels_iff.mpr (.inl hid))
      · apply (hs n h).imp_right
        intro hl
        exact Item.labels_iff.mpr (.inr hl)
    · rcases List.mem_cons.mp h with rfl | h
      · obtain rfl : i = j := by simpa [known] using hj
        exact complete hp l hl
      · exact List.mem_cons_of_mem _ (hcl n h j hj hp l hl)

theorem Item.marked (hP : Hereditary P) (i : Item) (m : Marks) (hi : σ.Fits i) (hm : σ.Closed P m) :
    Marked σ P i m (i.mark m) := by
  induction i using Item.induction generalizing m with
  | step i ih =>
    cases i with
    | nothing | text => exact ⟨fun _ h => h, fun _ h => .inl h, by simp, hm⟩
    | entity k x =>
      rw [Item.mark_entity]
      exact marked_visit hP rfl hi ih m hm
    | definition d =>
      rw [Item.mark_definition]
      exact marked_visit hP rfl hi ih m hm
    | list k l =>
      rw [Item.mark_list]
      obtain ⟨hg, hs, hc, hcl⟩ := marked_all hP (i := .list k l) _ (fun _ h => h) ih (fun _ => hi.part) m hm
      refine ⟨hg, fun id h => (hs id h).imp_right fun hl => Item.labels_iff.mpr (.inr hl),
        fun hp id hl => ?_, hcl⟩
      rcases Item.labels_iff.mp hl with h | ⟨p, hpart, hl⟩
      · simp [Item.label?] at h
      · exact hc hp p hpart id hl

lemma hereditary_true : Hereditary fun _ => True := fun _ _ _ _ => trivial

lemma hereditary_isModel : Hereditary Item.IsModel := fun _ h => h.parts

lemma closed_nil : σ.Closed P [] := by simp [Store.Closed]

theorem mem_markAll {is : List Item} (h : ∀ i ∈ is, σ.Fits i) (m : Marks) (hm : σ.Closed (fun _ => True) m)
    (id : Nat) : id ∈ markAll is m ↔ id ∈ m ∨ ∃ i ∈ is, i.Labels id := by
  induction is generalizing m with
  | nil => simp
  | cons i is ih =>
    simp only [List.mem_cons, forall_eq_or_imp] at h
    have head := i.marked hereditary_true m h.1 hm
    rw [markAll_cons, ih h.2 _ head.closed]
    constructor
    · rintro (hid | ⟨j, hj, hl⟩)
      · apply (head.sound id hid).imp_right
        intro hl
        exact ⟨i, by simp, hl⟩
      · exact .inr ⟨j, by simp [hj], hl⟩
    · rintro (hid | ⟨j, hj, hl⟩)
      · exact .inl (head.grows id hid)
      · rcases List.mem_cons.mp hj with rfl | hj
        · exact .inl (head.complete trivial id hl)
        · exact .inr ⟨j, hj, hl⟩

end CodeModel
