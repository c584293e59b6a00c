import CodeModel.Proofs.Session.Publication

namespace CodeModel

theorem Item.mark_marked (i : Item) {m : Marks} (h : ∀ l, i.Labels l → l ∈ m) : i.mark m = m := by
  have visited (id : Nat) (below : Marks → Marks) (hid : id ∈ m) : Marks.visit id below m = m := by
    simp [Marks.visit, hid]
  induction i using Item.induction with
  | step i ih =>
    have below (is : List Item) (his : ∀ p ∈ is, p ∈ i.parts) : markAll is m = m := by
      induction is with
      | nil => rfl
      | cons p is ihs =>
        have hp := his p List.mem_cons_self
        rw [markAll_cons, ih p hp fun l hl => h l (labels_iff.mpr (.inr ⟨p, hp, hl⟩))]
        exact ihs fun q hq => his q (List.mem_cons_of_mem p hq)
    cases i with
    | nothing | text => rfl
    | entity k x => rw [mark_entity, visited _ _ (h _ (labels_iff.mpr (.inl rfl)))]
    | definition d => rw [mark_definition, visited _ _ (h _ (labels_iff.mpr (.inl rfl)))]
    | list k l =>
      rw [mark_list]
      exact below _ fun _ hp => hp

namespace Session

variable {σ : Store} {s t u : Session} {r r' : String} {i j : Item} {id : Nat}

structure SameState (s t : Session) : Prop where
  fields : t = { s with frozen := t.frozen, events := t.events }
  marks : ∀ id, id ∈ t.frozen ↔ id ∈ s.frozen

structure Freezes (s : Session) (i : Item) (t : Session) : Prop where
  fields : t = { s with frozen := t.frozen, events := t.events }
  marks : ∀ l, l ∈ t.frozen ↔ l ∈ s.frozen ∨ i.Labels l

namespace Freezes

lemma register? (h : Freezes s i t) (r : String) : t.register? r = s.register? r := by
  rw [h.fields]
  rfl

lemma comm {v w : Session} (hi : Freezes s i t) (hj : Freezes t j u) (hj' : Freezes s j v) (hi' : Freezes v i w) :
    SameState u w where
  fields := by
    rw [hi'.fields, hj'.fields, hj.fields, hi.fields]
  marks l := by
    rw [hi'.marks, hj'.marks, hj.marks, hi.marks, or_right_comm]

end Freezes

theorem Good.freezes (hg : s.Good σ) (hi : s.register? r = some i) (hm : i.IsModel) (hid : i.label? = some id) :
    Freezes s i (step s (.freeze r)).2.2 ∧ (step s (.freeze r)).2.2.Good σ ∧
      (step s (.freeze r)).1 = .frozen true := by
  have fits : σ.Fits i := hg.fits_register hi
  have marked := i.marked hereditary_isModel s.frozen fits hg.closed
  obtain ⟨answer, events, after⟩ := freeze_step hi hid
  have own : id ∈ i.mark s.frozen := marked.complete hm id (Item.labels_iff.mpr (.inl hid))
  rw [after]
  refine ⟨⟨rfl, fun l => ⟨marked.sound l, ?_⟩⟩, (hg.freeze fits).withEvents events, by rw [answer]; simpa using own⟩
  rintro (hl | hl)
  · exact marked.grows l hl
  · exact marked.complete hm l hl

lemma freeze_again (hi : s.register? r = some i) (hid : i.label? = some id) (h : ∀ l, i.Labels l → l ∈ s.frozen) :
    ∃ events, (step s (.freeze r)).2.2 = { s with events } := by
  obtain ⟨-, events, after⟩ := freeze_step hi hid
  exact ⟨events, by rw [after, i.mark_marked h]⟩

lemma Good.marked_later (hg : s.Good σ) (more : List Step) (hi : σ.Fits i) (hz : ∀ l, i.Labels l → l ∈ s.frozen)
    (hj : (s.after more).register? r = some j) (hid : j.label? = some id) (hl : i.Labels id) :
    ∀ l, j.Labels l → l ∈ (s.after more).frozen := by
  obtain ⟨τ, good, later⟩ := after_reaches hg more
  obtain ⟨a, ha, -, known⟩ := hi.object_of_labels hl
  have known' : τ.object id = some j := (good.fits_register hj).object (.refl j) hid
  rw [later.kept id (hz id hl), known, Option.some.injEq] at known'
  subst known'
  rintro l ⟨b, hb, hbl⟩
  exact later.frozen l (hz l ⟨b, hb.trans ha, hbl⟩)

/-- Freezing an item freezes all objects within it and does nothing else. Its order does not matter. -/
theorem freeze_exact (hasher : Hasher) (options : Options) (steps : List Step)
    (hi : ((start hasher options).after steps).register? r = some i) (hm : i.IsModel) (hid : i.label? = some id) :
    let s := (start hasher options).after steps
    let t := (step s (.freeze r)).2.2
    (step s (.freeze r)).1 = .frozen true ∧ Freezes s i t ∧
      (∀ j, Item.Within j i → j.mark t.frozen = t.frozen) ∧
      (∀ more r' j l, (t.after more).register? r' = some j → j.label? = some l → i.Labels l →
        ∃ events, (step (t.after more) (.freeze r')).2.2 = { t.after more with events }) ∧
      ∀ r' j l, s.register? r' = some j → j.IsModel → j.label? = some l →
        SameState (step t (.freeze r')).2.2 (step (step s (.freeze r')).2.2 (.freeze r)).2.2 := by
  intro s t
  obtain ⟨σ, good, -⟩ : ∃ σ, s.Good σ ∧ s.hasher = hasher := start_good hasher options steps
  obtain ⟨freezes, good', answer⟩ := good.freezes hi hm hid
  have whole (l : Nat) (hl : i.Labels l) : l ∈ t.frozen := (freezes.marks l).mpr (.inr hl)
  refine ⟨answer, freezes, fun j hj => j.mark_marked fun l hl => ?_, fun more r' j l hj hl hil => ?_,
    fun r' j l hj hmj hl => ?_⟩
  · obtain ⟨a, ha, hal⟩ := hl
    exact whole l ⟨a, ha.trans hj, hal⟩
  · exact freeze_again hj hl (good'.marked_later more (good.fits_register hi) whole hj hl hil)
  · obtain ⟨first, goodFirst, -⟩ := good.freezes hj hmj hl
    obtain ⟨second, -⟩ := good'.freezes ((freezes.register? r').trans hj) hmj hl
    obtain ⟨last, -⟩ := goodFirst.freezes ((first.register? r).trans hi) hm hid
    exact freezes.comm second first last

theorem freeze_exact_shared :
    let s := (start .colliding ⟨false, 0⟩).after [.bind "e" (.entity .typeRef (.named "N" "E" [])),
      .bind "a" (.entity .attr (.make (.register "e") [] [] ⟨none, ⟨0, 0⟩, ⟨0, 0⟩⟩)),
      .bind "p" (.entity .parameter (.make none (.register "e") [.register "a"] none ⟨none, ⟨0, 0⟩, ⟨0, 0⟩⟩ []))]
    let t := (step s (.freeze "p")).2.2
    4 ∈ t.frozen ∧ (∃ events, (step t (.freeze "e")).2.2 = { t with events }) ∧
      SameState (step t (.freeze "a")).2.2 (step (step s (.freeze "a")).2.2 (.freeze "p")).2.2 := by
  intro s t
  have items : ∃ (x : Handle Parameter) (y : Handle Attribute) (z : Handle TypeRef),
      s.register? "p" = some (.entity .parameter x) ∧ s.register? "a" = some (.entity .attr y) ∧
      t.register? "e" = some (.entity .typeRef z) ∧ z.id = 4 ∧ x.val.type = z := ⟨_, _, _, rfl, rfl, rfl, rfl, rfl⟩
  obtain ⟨x, y, z, hx, hy, hz, label, type⟩ := items
  obtain ⟨-, freezes, -, again, either⟩ := freeze_exact .colliding ⟨false, 0⟩ _ hx rfl rfl
  have within : (Item.entity .parameter x).Labels 4 := by
    refine ⟨.entity .typeRef z, .part ?_ (.refl _), congrArg some label⟩
    simp [Kind.parts, Parameter.parts, type]
  exact ⟨(freezes.marks 4).mpr (.inr within), again [] "e" _ 4 hz (congrArg some label) within, either "a" _ _ hy rfl rfl⟩

end Session

end CodeModel
