import CodeModel.Proofs.Graph.Cascade
import CodeModel.Proofs.Graph.Places
import CodeModel.Proofs.Session.History

namespace CodeModel.Session

variable {s : Session} {r : String} {i : Item} {id : Nat}

lemma freeze_step (hi : s.register? r = some i) (hid : i.label? = some id) :
    (step s (.freeze r)).1 = .frozen ((i.mark s.frozen).contains id) ∧
      ∃ events, (step s (.freeze r)).2.2 = { s with frozen := i.mark s.frozen, events } := by
  have found := register_run_cleared hi
  cases i with
  | entity k x =>
    obtain rfl := Option.some.inj hid
    have frozen : (run (.freeze r)).run { s with events := [] } =
        some (.frozen ((k.mark x s.frozen).contains x.id), { s with frozen := k.mark x s.frozen, events := [] }) := by
      simp [run, freeze, found]
    exact ⟨by rw [step, frozen]; rfl, [], by rw [step, frozen]; rfl⟩
  | definition d =>
    obtain rfl := Option.some.inj hid
    obtain ⟨events, frozen⟩ : ∃ events, (run (.freeze r)).run { s with events := [] } =
        some (.frozen ((Definition.mark d s.frozen).contains d.id),
          { s with frozen := Definition.mark d s.frozen, events }) := by
      by_cases hz : d.id ∈ s.frozen <;> simp [run, freeze, found, hz, emit]
    exact ⟨by rw [step, frozen]; rfl, events, by rw [step, frozen]; rfl⟩
  | _ => cases hid

lemma freeze_frozen (hi : s.register? r = some i) (hid : i.label? = some id) :
    (step s (.freeze r)).2.2.frozen = i.mark s.frozen := by
  obtain ⟨-, events, after⟩ := freeze_step hi hid
  rw [after]

/-- Freezing sets marks from below: after any number of them nothing unfrozen lies within anything frozen. -/
theorem freeze_from_below (hasher : Hasher) (options : Options) (steps : List Step)
    (hi : ((start hasher options).after steps).register? r = some i) (hm : i.IsModel) (hid : i.label? = some id) :
    let s := (start hasher options).after steps
    let t := (step s (.freeze r)).2.2
    ∃ marks : List Nat, t.frozen = marks.reverse ++ s.frozen ∧ marks.Nodup ∧
      (∀ l, l ∈ marks ↔ i.Labels l ∧ l ∉ s.frozen) ∧
      (∀ before l rest, marks = before ++ l :: rest → ∃ j, Item.Within j i ∧ j.label? = some l ∧
        ∀ l', j.Labels l' → l' ≠ l → l' ∈ before.reverse ++ s.frozen) ∧
      ∀ before rest, marks = before ++ rest → ∀ a, s.Holds a → a.IsModel → ∀ l, a.label? = some l →
        l ∈ before.reverse ++ s.frozen → ∀ l', a.Labels l' → l' ∈ before.reverse ++ s.frozen := by
  intro s t
  obtain ⟨σ, good, -⟩ : ∃ σ, s.Good σ ∧ s.hasher = hasher := start_good hasher options steps
  have fits : σ.Fits i := good.fits_register hi
  have marked := i.marked hereditary_isModel s.frozen fits good.closed
  obtain ⟨marks, all, once, fresh, order, cascades⟩ :=
    (i.cascade hereditary_isModel s.frozen fits good.closed).marks
  have member (l : Nat) : l ∈ marks ↔ i.Labels l ∧ l ∉ s.frozen := by
    constructor
    · intro hl
      have set : l ∈ i.mark s.frozen := by simp [all, hl]
      exact ⟨(marked.sound l set).resolve_left (fresh l hl), fresh l hl⟩
    · rintro ⟨hl, hz⟩
      have set := marked.complete hm l hl
      rw [all, List.mem_append, List.mem_reverse] at set
      exact set.resolve_right hz
  refine ⟨marks, (freeze_frozen hi hid).trans all, once, member, fun before l rest he => ?_,
    fun before rest he a ha hma l hal hl => ?_⟩
  · obtain ⟨j, known, below⟩ := order before l rest he
    obtain ⟨j', hj, hjl, known'⟩ := fits.object_of_labels ((member l).mp (by simp [he])).1
    obtain rfl : j = j' := Option.some.inj (known.symm.trans known')
    exact ⟨j, hj, hjl, below (hm.within hj)⟩
  · have known : σ.object l = some a := (good.fits_of_holds ha).object (.refl a) hal
    exact (cascades before rest he).closed good.closed l hl a known hma

theorem freeze_from_below_shared :
    let s := (start .colliding ⟨false, 0⟩).after [.bind "e" (.entity .typeRef (.named "N" "E" [])),
      .bind "a" (.entity .attr (.make (.register "e") [] [] ⟨none, ⟨0, 0⟩, ⟨0, 0⟩⟩)),
      .bind "p" (.entity .parameter (.make none (.register "e") [.register "a"] none ⟨none, ⟨0, 0⟩, ⟨0, 0⟩⟩ []))]
    ∃ i, s.register? "p" = some i ∧ (step s (.freeze "p")).2.2.frozen = [8, 6, 4] ++ s.frozen ∧
      ∀ l, l ∈ [4, 6, 8] ↔ i.Labels l ∧ l ∉ s.frozen := by
  intro s
  have item : ∃ x : Handle Parameter, s.register? "p" = some (.entity .parameter x) := ⟨_, rfl⟩
  obtain ⟨x, hx⟩ := item
  have order : (step s (.freeze "p")).2.2.frozen = [8, 6, 4] ++ s.frozen := by decide +kernel
  obtain ⟨marks, all, -, member, -⟩ := freeze_from_below .colliding ⟨false, 0⟩ _ hx rfl rfl
  have same : marks = [4, 6, 8] := by
    rw [← List.reverse_inj]
    exact List.append_cancel_right (all.symm.trans order)
  exact ⟨_, hx, order, same ▸ member⟩

end CodeModel.Session
