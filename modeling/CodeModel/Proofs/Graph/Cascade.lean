import CodeModel.Proofs.Graph.Marking

/-! Each object is marked once, when all that it holds is marked already. -/

namespace CodeModel

inductive Store.Cascade (σ : Store) (P : Item → Prop) (m : Marks) : Marks → Prop
  | refl : Cascade σ P m m
  | mark {n : Marks} {id : Nat} {i : Item} : Cascade σ P m n → σ.object id = some i → id ∉ n →
    (P i → ∀ l, i.Labels l → l ≠ id → l ∈ n) → Cascade σ P m (id :: n)

variable {σ : Store} {P : Item → Prop} {m n o : Marks}

namespace Store.Cascade

lemma trans (h : σ.Cascade P m n) (h' : σ.Cascade P n o) : σ.Cascade P m o := by
  induction h' with
  | refl => exact h
  | mark _ known new below ih => exact .mark ih known new below

lemma closed (h : σ.Cascade P m n) (hm : σ.Closed P m) : σ.Closed P n := by
  induction h with
  | refl => exact hm
  | @mark n id i _ known _ below ih =>
    rintro l hl j hj hp l' hl'
    by_cases he : l' = id
    · exact he ▸ List.mem_cons_self
    apply List.mem_cons_of_mem
    rcases List.mem_cons.mp hl with rfl | hl
    · obtain rfl : i = j := Option.some.inj (known.symm.trans hj)
      exact below hp l' hl' he
    · exact ih l hl j hj hp l' hl'

theorem marks (h : σ.Cascade P m n) : ∃ marks, n = marks.reverse ++ m ∧ marks.Nodup ∧ (∀ id ∈ marks, id ∉ m) ∧
    (∀ before id rest, marks = before ++ id :: rest → ∃ i, σ.object id = some i ∧
      (P i → ∀ l, i.Labels l → l ≠ id → l ∈ before.reverse ++ m)) ∧
    ∀ before rest, marks = before ++ rest → σ.Cascade P m (before.reverse ++ m) := by
  induction h with
  | refl => exact ⟨[], rfl, .nil, by simp, by simp, by simpa using .refl⟩
  | @mark n id i h known new below ih =>
    obtain ⟨marks, rfl, once, fresh, order, cascades⟩ := ih
    have new' : id ∉ marks ∧ id ∉ m := by simpa using new
    refine ⟨marks ++ [id], by simp, List.nodup_append.mpr ⟨once, by simp, ?_⟩, ?_, fun before l rest he => ?_,
      fun before rest he => ?_⟩
    · rintro a ha b hb rfl
      exact new'.1 (List.mem_singleton.mp hb ▸ ha)
    · simpa [or_imp, forall_and] using ⟨fresh, new'.2⟩
    · rcases List.eq_nil_or_concat rest with rfl | ⟨rest, l', rfl⟩
      · obtain ⟨rfl, he⟩ := List.append_inj' he rfl
        obtain rfl : id = l := by simpa using he
        exact ⟨i, known, below⟩
      · have longer : marks ++ [id] = (before ++ l :: rest) ++ [l'] := by simpa using he
        exact order before l rest (List.append_inj' longer rfl).1
    · rcases List.eq_nil_or_concat rest with rfl | ⟨rest, l', rfl⟩
      · obtain rfl : marks ++ [id] = before := by simpa using he
        simpa using .mark h known new below
      · have longer : marks ++ [id] = (before ++ rest) ++ [l'] := by simpa using he
        exact cascades before rest (List.append_inj' longer rfl).1

end Store.Cascade

lemma cascade_all (is : List Item) (ih : ∀ p ∈ is, ∀ m, σ.Fits p → σ.Closed P m → σ.Cascade P m (p.mark m))
    (hf : ∀ p ∈ is, σ.Fits p) (m : Marks) (hm : σ.Closed P m) : σ.Cascade P m (markAll is m) := by
  induction is generalizing m with
  | nil => exact .refl
  | cons p is ihs =>
    simp only [List.mem_cons, forall_eq_or_imp] at ih hf
    have head := ih.1 m hf.1 hm
    exact head.trans (ihs ih.2 hf.2 _ (head.closed hm))

lemma cascade_visit (hP : Hereditary P) {i : Item} {id : Nat} (hid : i.label? = some id) (hi : σ.Fits i)
    (ih : ∀ p ∈ i.parts, ∀ m, σ.Fits p → σ.Closed P m → σ.Cascade P m (p.mark m)) (m : Marks) (hm : σ.Closed P m) :
    σ.Cascade P m (Marks.visit id (markAll i.parts) m) := by
  by_cases hmem : id ∈ m
  · simpa [Marks.visit, hmem] using .refl
  obtain ⟨-, sound, complete, -⟩ := marked_all hP i.parts (fun _ h => h) (fun p _ m hp => p.marked hP m hp)
    (fun _ => hi.part) m hm
  have enter : Marks.visit id (markAll i.parts) m = id :: markAll i.parts m := by simp [Marks.visit, hmem]
  rw [enter]
  refine .mark (cascade_all i.parts ih (fun _ => hi.part) m hm) (hi.object (.refl i) hid) (fun h => ?_)
    fun hp l hl hne => ?_
  · rcases sound id h with h | ⟨p, hp, hl⟩
    · exact hmem h
    · exact hi.acyclic hid p hp hl
  · rcases Item.labels_iff.mp hl with h | ⟨p, hpart, hl⟩
    · exact absurd (Option.some.inj (h.symm.trans hid)) hne
    · exact complete hp p hpart l hl

theorem Item.cascade (hP : Hereditary P) (i : Item) (m : Marks) (hi : σ.Fits i) (hm : σ.Closed P m) :
    σ.Cascade P m (i.mark m) := by
  induction i using Item.induction generalizing m with
  | step i ih =>
    cases i with
    | nothing | text => exact .refl
    | entity k x =>
      rw [Item.mark_entity]
      exact cascade_visit hP rfl hi ih m hm
    | definition d =>
      rw [Item.mark_definition]
      exact cascade_visit hP rfl hi ih m hm
    | list k l =>
      rw [Item.mark_list]
      exact cascade_all (Item.list k l).parts ih (fun _ => hi.part) m hm

end CodeModel
