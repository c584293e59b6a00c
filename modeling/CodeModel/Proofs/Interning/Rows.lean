import CodeModel.Proofs.Graph.Rank
import CodeModel.Proofs.Interning.Whole

/-! To prepare an entity of whatever kind is to intern the items of a row one after the other. -/

namespace CodeModel

open Interning

variable {s : Setting} {keep : Nat → Prop} {outer : Held} {σ : Store} {w : Work} {is done rest : List Item}

def internRow (s : Setting) (outer : Held) : List Item → List Item → Interning (List Item)
  | done, [] => return done
  | done, i :: rest => do
    let j ← i.intern s (outer.and (markAll (done ++ rest)))
    internRow s outer (done ++ [j]) rest

lemma internRow_run (i : Item) (u : Work) : (internRow s outer done (i :: rest)).run u =
    (internRow s outer (done ++ [((i.intern s (outer.and (markAll (done ++ rest)))).run u).1]) rest).run
      ((i.intern s (outer.and (markAll (done ++ rest)))).run u).2 := by
  rw [internRow, StateT.run_bind]
  rfl

def Row.LeadsTo (s : Setting) (keep : Nat → Prop) (outer : Held) (σ : Store) (w : Work) (is : List Item)
    (r : List Item × Work) (done rest : List Item) (u : Work) : Prop :=
  Row s keep σ w is done rest u ∧ (internRow s outer done rest).run u = r

lemma leadsTo_passes (hk : ∀ id, keep id → outer id = true) (r : List Item × Work) :
    Passes s outer (fun _ => True) (Row.LeadsTo s keep outer σ w is r) where
  nothing h := ⟨h.1.nothing, h.2⟩
  text t u h := ⟨(row_passes hk).text t u h.1, (internRow_run (.text t) u).symm.trans h.2⟩
  list {_ _ k l} _ u h := ⟨(row_passes hk).list (replaceable s (.list k l)) u h.1,
    (internRow_run (.list k l) u).symm.trans h.2⟩
  entity {done rest k x held} _ hheld u h := by
    refine ⟨(row_passes hk).entity (replaceable s (.entity k x)) hheld u h.1, ?_⟩
    obtain ⟨τ, hr, -⟩ := h.1
    have beside (p : Item) (hp : p ∈ done ++ rest) : τ.Fits p := hr.fits p (by grind)
    have same : held = outer.and (markAll (done ++ rest)) := by
      funext id
      rw [Bool.eq_iff_iff, hheld τ beside, Held.and_marked _ beside rfl]
    rw [same]
    exact (internRow_run (.entity k x) u).symm.trans h.2

theorem prepare_row (k : Kind) (v : k.Carrier) (held : Held) (hw : w.Good s.hasher σ) (hf : ∀ i ∈ k.parts v, σ.Fits i) :
    (internRow s held [] (k.parts v)).run w =
      (k.parts ((k.prepare s held v).run w).1, ((k.prepare s held v).run w).2) := by
  obtain ⟨⟨-, same⟩, -⟩ := prepare_sends (leadsTo_passes (fun _ (h : held _ = true) => h) _) k v
    (fun _ _ => trivial) w ⟨row_start hw hf, rfl⟩
  exact same.symm

theorem elements_row {k : Kind} (xs : List (Handle k.Carrier)) (hw : w.Good s.hasher σ)
    (hf : ∀ i ∈ xs.map (Item.entity k), σ.Fits i) :
    (internRow s .everything [] (xs.map (.entity k))).run w =
      (((xs.mapM (k.intern s .everything)).run w).1.map (.entity k), ((xs.mapM (k.intern s .everything)).run w).2) := by
  obtain ⟨-, same⟩ := sends_elements (leadsTo_passes (fun _ (_ : True) => rfl) _) xs
    (fun _ _ => trivial) w ⟨row_start hw hf, rfl⟩
  exact same.symm

theorem internParts_row (v : Definition) (hw : w.Good s.hasher σ) (hf : ∀ i ∈ v.parts, σ.Fits i) :
    (internRow s .everything [] v.parts).run w = (((v.internParts s).run w).1.parts, ((v.internParts s).run w).2) := by
  obtain ⟨⟨-, same⟩, -⟩ := internParts_sends (leadsTo_passes (fun _ (_ : True) => rfl) _) v
    (fun _ _ => trivial) w ⟨row_start hw hf, rfl⟩
  exact same.symm

lemma internParts_outline (s : Setting) (v : Definition) (hw : w.Good s.hasher σ) (hf : ∀ i ∈ v.parts, σ.Fits i) :
    ((v.internParts s).run w).1.outline = v.outline :=
  (internParts_sends (row_passes fun _ (_ : True) => rfl) v (fun i _ => replaceable s i) w
    (row_start hw hf)).2

theorem slot_sends (hk : ∀ id, keep id → outer id = true) {i : Item} (hi : ∀ d, i ≠ .definition d) :
    (i.intern s (outer.and (markAll (done ++ rest)))).Sends (Row s keep σ w is done (i :: rest))
      (fun j => Row s keep σ w is (done ++ [j]) rest) := by
  intro u hu
  cases i with
  | nothing => exact hu.nothing
  | text t => exact (row_passes hk).text t u hu
  | list k l => exact (row_passes hk).list (replaceable s _) u hu
  | definition d => exact absurd rfl (hi d)
  | entity k x =>
    refine (row_passes hk).entity (replaceable s _) (fun τ hτ id => ?_) u hu
    exact Held.and_marked _ hτ rfl

end CodeModel
