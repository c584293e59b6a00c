import CodeModel.Proofs.Session.Meaning

namespace CodeModel.Session

variable {σ : Store} {s : Session} {k : Kind} {x y : Handle k.Carrier} {a b : String}

structure Contract (s : Session) (k : Kind) : Prop where
  refl : ∀ x, s.Holds (.entity k x) → k.same x.val x.val = true
  symm : ∀ x y, s.Holds (.entity k x) → s.Holds (.entity k y) → k.same x.val y.val = true →
    k.same y.val x.val = true
  trans : ∀ x y z, s.Holds (.entity k x) → s.Holds (.entity k y) → s.Holds (.entity k z) →
    k.same x.val y.val = true → k.same y.val z.val = true → k.same x.val z.val = true
  hash : ∀ x y, s.Holds (.entity k x) → s.Holds (.entity k y) → k.same x.val y.val = true →
    k.fingerprint s.hasher x.val = k.fingerprint s.hasher y.val
  kept : ∀ x y, s.Holds (.entity k x) → s.Holds (.entity k y) → k.contractFailure? s.hasher x.val y.val = none
  value : ∀ x y, s.Holds (.entity k x) → s.Holds (.entity k y) → k.same x.val y.val = true →
    (Item.entity k x).SameValue (.entity k y)
  answers : ∀ a b x y, s.register? a = some (.entity k x) → s.register? b = some (.entity k y) →
    step s (.equals a b) = (.equals (k.same x.val y.val) (k.same x.val y.val) none, [], { s with events := [] })

lemma equals_step (ha : s.register? a = some (.entity k x)) (hb : s.register? b = some (.entity k y)) :
    step s (.equals a b) = (.equals (k.same x.val y.val) (k.same y.val x.val)
      (k.contractFailure? s.hasher x.val y.val), [], { s with events := [] }) := by
  simp [step, run, equals, register_run_cleared ha, register_run_cleared hb]

theorem Good.contract (hg : s.Good σ) (hk : k.isModel = true) : Contract s k where
  refl x _ := k.same_equivalence.refl x.val
  symm _ _ _ _ h := k.same_equivalence.symm h
  trans _ _ _ _ _ _ h h' := k.same_equivalence.trans h h'
  hash _ _ _ _ h := Provider.fingerprint_congr hk h
  kept _ _ _ _ := Provider.contractFailure?_eq_none hk
  value x y hx hy h := by
    have same : k.bare x.val = k.bare y.val :=
      Store.bare_of_same hk (fun _ => (hg.fits_of_holds hx).part) (fun _ => (hg.fits_of_holds hy).part) h
    apply Item.sameValue_of_bare
    simp [Handle.bare, same]
  answers a b x y ha hb := by
    have symmetric : k.same y.val x.val = k.same x.val y.val := by
      rw [Bool.eq_iff_iff]
      exact ⟨k.same_equivalence.symm, k.same_equivalence.symm⟩
    rw [equals_step ha hb, symmetric, Provider.contractFailure?_eq_none hk]

/-- The contract of interning holds in every session, whether or not the entities were prepared. -/
theorem interning_contract (hasher : Hasher) (options : Options) (steps : List Step) (hk : k.isModel = true) :
    Contract ((start hasher options).after steps) k := by
  obtain ⟨σ, good, -⟩ := start_good hasher options steps
  exact good.contract hk

theorem interning_contract_unprepared :
    let a : AttributeRecipe := .make (.shared .dynamic) [] [] ⟨some (.fresh "f"), ⟨1, 1⟩, ⟨2, 1⟩⟩
    let v (storage file : Nat) : Attribute :=
      ⟨⟨2, .dynamic⟩, ⟨false, storage, []⟩, [], ⟨some ⟨file, "f"⟩, ⟨1, 1⟩, ⟨2, 1⟩⟩⟩
    let s := (start .colliding ⟨false, 0⟩).after [.bind "a" (.entity .attr a), .bind "b" (.entity .attr a), .freeze "a"]
    s.register? "a" = some (.entity .attr ⟨4, v 3 95⟩) ∧ s.register? "b" = some (.entity .attr ⟨6, v 5 96⟩) ∧
      4 ∈ s.frozen ∧ 6 ∉ s.frozen ∧ (step s (.equals "a" "b")).1 = .equals true true none ∧
      (Item.entity .attr ⟨4, v 3 95⟩).SameValue (.entity .attr ⟨6, v 5 96⟩) := by
  intro a v s
  have first : s.register? "a" = some (.entity .attr ⟨4, v 3 95⟩) := rfl
  have second : s.register? "b" = some (.entity .attr ⟨6, v 5 96⟩) := rfl
  have contract := interning_contract (k := .attr) .colliding ⟨false, 0⟩
    [.bind "a" (.entity .attr a), .bind "b" (.entity .attr a), .freeze "a"] rfl
  have same : Kind.attr.same (v 3 95) (v 5 96) = true := rfl
  have answer := contract.answers "a" "b" ⟨4, v 3 95⟩ ⟨6, v 5 96⟩ first second
  refine ⟨first, second, by decide, by decide, ?_, ?_⟩
  · rw [answer, same]
  · exact contract.value _ _ (holds_of_register? first) (holds_of_register? second) same

end CodeModel.Session
