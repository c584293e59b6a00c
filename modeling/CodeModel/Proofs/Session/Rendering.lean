import CodeModel.Proofs.Session.Sharing
import CodeModel.Proofs.Text.TypeNames

namespace CodeModel

namespace Session

/-- Types are written alike just if they are structurally equal, and if interned then just if they are one object. -/
theorem type_displays_unambiguous :
    (∀ t u : TypeRef, t.Spellable → u.Spellable → (t.display = u.display ↔ t.bare = u.bare)) ∧
    ∀ (hasher : Hasher) (options : Options) (steps : List Step) (m m' n : Nat) (st st' : Step)
      (x y x' y' : Handle TypeRef), steps[m]? = some st → steps[m']? = some st' →
      x.val.Spellable → x'.val.Spellable →
      Interned ((start hasher options).after (steps.take m)) st n (.entity .typeRef x) (.entity .typeRef y) →
      Interned ((start hasher options).after (steps.take m')) st' n (.entity .typeRef x') (.entity .typeRef y') →
      (y.id = y'.id ↔ x.val.display = x'.val.display) := by
  refine ⟨fun t u ht hu => ht.display_iff hu, ?_⟩
  intro hasher options steps m m' n st st' x y x' y' hst hst' spellable spellable' h h'
  rw [spellable.display_iff spellable']
  obtain ⟨σ, good, -⟩ := start_good hasher options []
  rcases Nat.le_total m m' with hle | hle
  · obtain ⟨d, rfl⟩ := Nat.exists_eq_add_of_le hle
    exact interned_iff (k := .typeRef) good rfl hst hst' h h'
  · obtain ⟨d, rfl⟩ := Nat.exists_eq_add_of_le hle
    rw [eq_comm, eq_comm (a := x.val.bare)]
    exact interned_iff (k := .typeRef) good rfl hst' hst h' h

theorem type_displays_of_arrays :
    let steps := [.bind "a" (.entity .typeRef (.named "N" "T" [])), .intern "P" "a",
      .bind "b" (.entity .typeRef (.named "N" "T" [])), .intern "P" "b"]
    let s := (start .colliding ⟨false, 0⟩).after steps
    (∃ y y' : Handle TypeRef, s.register? "a" = some (.entity .typeRef y) ∧
      s.register? "b" = some (.entity .typeRef y') ∧ y.id = y'.id) ∧
    (TypeRef.byRef ⟨0, .ofElement ⟨0, .unknown⟩ 2⟩).display ≠
      (TypeRef.ofElement ⟨0, .byRef ⟨0, .unknown⟩⟩ 2).display := by
  intro steps s
  have interned : Interned ((start .colliding ⟨false, 0⟩).after (steps.take 1)) (.intern "P" "a") 0
      (.entity .typeRef ⟨4, .named ⟨95, "N"⟩ ⟨96, "T"⟩ ⟨false, 3, []⟩⟩)
      (.entity .typeRef ⟨4, .named ⟨95, "N"⟩ ⟨96, "T"⟩ ⟨false, 3, []⟩⟩) :=
    ⟨none, _, _, .intern rfl (by simp) ⟨rfl, ⟨_, _, _, rfl⟩, rfl⟩, .here _ _, .inl rfl⟩
  have again : Interned ((start .colliding ⟨false, 0⟩).after (steps.take 3)) (.intern "P" "b") 0
      (.entity .typeRef ⟨6, .named ⟨97, "N"⟩ ⟨98, "T"⟩ ⟨false, 5, []⟩⟩)
      (.entity .typeRef ⟨4, .named ⟨95, "N"⟩ ⟨96, "T"⟩ ⟨false, 3, []⟩⟩) :=
    ⟨none, _, _, .intern rfl (by simp) ⟨rfl, ⟨_, _, _, rfl⟩, rfl⟩, .here _ _, .inl rfl⟩
  have spellable (i j storage : Nat) : (TypeRef.named ⟨i, "N"⟩ ⟨j, "T"⟩ ⟨false, storage, []⟩).Spellable :=
    .named ⟨by simp, by simp [IsTypeMark], by simp [IsTypeMark], by simp⟩ (by simp) (by simp)
  refine ⟨⟨_, _, rfl, rfl, ?_⟩, fun h => ?_⟩
  · exact (type_displays_unambiguous.2 .colliding ⟨false, 0⟩ steps 1 3 0 _ _ _ _ _ _ rfl rfl (spellable _ _ _)
      (spellable _ _ _) interned again).mpr rfl
  · have same := (type_displays_unambiguous.1 _ _ (.byRef (.array 2 .unknown)) (.array 2 (.byRef .unknown))).mp h
    simp [TypeRef.bare, TypeRef.ofElement] at same

end Session

end CodeModel
