import CodeModel.Proofs.Session.History

namespace CodeModel.Session

/-- An object that is frozen stays the same in all its depth, and all of it stays frozen. -/
theorem frozen_stays (hasher : Hasher) (options : Options) (steps more : List Step) {i j : Item} {id : Nat}
    (hi : ((start hasher options).after steps).Holds i) (hm : i.IsModel) (hid : i.label? = some id)
    (hz : id ∈ ((start hasher options).after steps).frozen)
    (hj : ((start hasher options).after (steps ++ more)).Holds j) (hjd : j.label? = some id) :
    j = i ∧ ∀ l, j.Labels l → l ∈ ((start hasher options).after (steps ++ more)).frozen := by
  obtain ⟨σ, good, -⟩ := start_good hasher options steps
  rw [after_append] at hj ⊢
  obtain ⟨τ, good', later⟩ := after_reaches good more
  have known : σ.object id = some i := (good.fits_of_holds hi).object (.refl i) hid
  have known' : τ.object id = some j := (good'.fits_of_holds hj).object (.refl j) hjd
  rw [later.kept id hz, known, Option.some.injEq] at known'
  subst known'
  exact ⟨rfl, fun l hl => later.frozen l (good.closed id hz i known hm l hl)⟩

theorem frozen_element_stays :
    let steps := [.bind "a" (.entity .typeRef (.named "N" "T" [])), .freeze "a"]
    let more := [.bind "b" (.entity .typeRef (.array (.register "a") 1)), .intern "P" "b", .drop ["a"],
      .get "b" [.element] "c"]
    let s := (start .colliding ⟨false, 0⟩).after steps
    let t := (start .colliding ⟨false, 0⟩).after (steps ++ more)
    ∃ i, s.register? "a" = some i ∧ t.register? "c" = some i ∧ ∀ l, i.Labels l → l ∈ t.frozen := by
  intro steps more s t
  have before : s.register? "a" = some (.entity .typeRef ⟨4, .named ⟨95, "N"⟩ ⟨96, "T"⟩ ⟨false, 3, []⟩⟩) := rfl
  have later : t.register? "c" = some (.entity .typeRef ⟨4, .named ⟨95, "N"⟩ ⟨96, "T"⟩ ⟨false, 3, []⟩⟩) := rfl
  exact ⟨_, before, later, (frozen_stays .colliding ⟨false, 0⟩ steps more (holds_of_register? before) rfl rfl
    (by decide) (holds_of_register? later) rfl).2⟩

/-- Below a frozen object all is frozen. -/
theorem frozen_below (hasher : Hasher) (options : Options) (steps : List Step) {i j : Item} {a b : Nat}
    (hi : ((start hasher options).after steps).Holds i) (hm : i.IsModel) (ha : i.label? = some a)
    (hz : a ∈ ((start hasher options).after steps).frozen) (hj : Item.Within j i) (hb : j.label? = some b) :
    b ∈ ((start hasher options).after steps).frozen := by
  obtain ⟨σ, good, -⟩ := start_good hasher options steps
  have known : σ.object a = some i := (good.fits_of_holds hi).object (.refl i) ha
  exact good.closed a hz i known hm b ⟨j, hj, hb⟩

theorem frozen_below_copy :
    let steps := [.bind "a" (.entity .typeRef (.named "N" "T" [])), .intern "P" "a",
      .bind "b" (.entity .typeRef (.array (.register "a") 1)), .freeze "b", .copyUnfrozen "b" "c",
      .intern "P" "c", .freeze "c"]
    let s := (start .colliding ⟨false, 0⟩).after steps
    ∃ x y : Handle TypeRef, s.register? "c" = some (.entity .typeRef x) ∧
      s.register? "a" = some (.entity .typeRef y) ∧ x.id ∈ s.frozen ∧ y.id ∈ s.frozen := by
  intro steps s
  let y : Handle TypeRef := ⟨4, .named ⟨95, "N"⟩ ⟨96, "T"⟩ ⟨false, 3, []⟩⟩
  have copy : s.register? "c" = some (.entity .typeRef ⟨8, .array y 1⟩) := rfl
  have frozen : 8 ∈ s.frozen := by decide
  refine ⟨⟨8, .array y 1⟩, y, copy, rfl, frozen, ?_⟩
  exact frozen_below .colliding ⟨false, 0⟩ steps (j := .entity .typeRef y) (holds_of_register? copy) rfl rfl frozen
    (.part (List.mem_singleton.mpr rfl) (.refl _)) rfl

end CodeModel.Session
