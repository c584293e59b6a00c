import CodeModel.Proofs.Session.History

namespace CodeModel

namespace Provider

variable {h : Hasher} {p : Provider}

def Confirms (h : Hasher) (p : Provider) : Item → Prop
  | .nothing => True
  | .text t => p.pool.isPooled h t = true
  | .entity k x => ∀ held, p.isCanonical h held k x = true
  | .list k l => l.items = [] ∨ p.isCanonicalList h k l = true
  | .definition _ => False

lemma Sound.confirms (hp : p.Sound h) {i : Item} (hi : p.Canonical h i) : p.Confirms h i := by
  cases i with
  | nothing => trivial
  | text t =>
    have found : p.pool.find? h t.val = some t := hi
    simp [Confirms, TextPool.isPooled, found]
  | entity k x => exact fun held => hp.isCanonical held hi
  | list k l => exact hp.passes_list hi
  | definition => exact hi

end Provider

namespace Session

/-- All that canonical entities and recorded lists hold is canonical in the same provider. -/
theorem tables_closed (hasher : Hasher) (options : Options) (steps : List Step) {b : String × Provider}
    (hb : b ∈ ((start hasher options).after steps).providers) :
    (∀ k, ∀ e ∈ b.2.entities k, ∀ i, Item.Within i (.entity k e.entity) →
      b.2.Canonical hasher i ∧ b.2.Confirms hasher i) ∧
    (∀ k, ∀ r ∈ b.2.lists k, r.items ≠ [] ∧ ∀ i, Item.Within i (.list k r.list) →
      b.2.Canonical hasher i ∧ b.2.Confirms hasher i) ∧
    ∀ k, (b.2.lists k).Pairwise fun r r' => r.items.map Handle.id ≠ r'.items.map Handle.id := by
  obtain ⟨σ, good, same⟩ := start_good hasher options steps
  have sound := good.sound b hb
  rw [same] at sound
  have below {i j : Item} (hj : b.2.Canonical hasher j) (hi : Item.Within i j) :
      b.2.Canonical hasher i ∧ b.2.Confirms hasher i := by
    have canonical := sound.canonical_within hj hi
    exact ⟨canonical, sound.confirms canonical⟩
  refine ⟨fun k e he i hi => below (j := .entity k e.entity) ⟨e, he, rfl⟩ hi, fun k r hr => ?_, sound.recordOnce⟩
  exact ⟨sound.recordFull k r hr, fun i hi => below (j := .list k r.list) (.inr ⟨r, hr, rfl⟩) hi⟩

theorem tables_closed_after_failure :
    let s := (start .colliding ⟨false, 0⟩).after [
      .bind "f" (.entity .typeRef (.named "N" "F" [])), .freeze "f",
      .bind "a" (.entity .typeRef (.named "N" "T" [.named "N" "A" [], .register "f"])), .intern "P" "a"]
    s.providers.map (fun b => (b.2.entities .typeRef).length) = [4] ∧ ∃ b ∈ s.providers,
      ∀ e ∈ b.2.entities .typeRef, ∀ i ∈ TypeRef.parts e.entity.val, b.2.Confirms .colliding i := by
  intro s
  have entries : s.providers.map (fun b => (b.2.entities .typeRef).length) = [4] := by decide +kernel
  have one : s.providers.length = 1 := by simpa using congrArg List.length entries
  obtain ⟨b, hb⟩ := List.exists_mem_of_length_pos (one ▸ Nat.one_pos)
  refine ⟨entries, b, hb, fun e he i hi => ?_⟩
  exact ((tables_closed .colliding ⟨false, 0⟩ _ hb).1 .typeRef e he i (.part hi (.refl i))).2

end Session

end CodeModel
