import CodeModel.Proofs.Tables.Growth
import CodeModel.Proofs.Tables.Protocol

namespace CodeModel

variable {h : Hasher} {p : Provider} {k : Kind}

abbrev Kind.protocol (h : Hasher) : Protocol where
  Index := Kind
  Value := Kind.Carrier
  hash := Kind.fingerprint h
  same := Kind.same
  decEq := inferInstance

theorem Kind.protocol_lawful (h : Hasher) : (Kind.protocol h).Lawful := Kind.same_equivalence

lemma Kind.agree_of_matches {v w : k.Carrier} (ho : k.outline v = k.outline w)
    (hp : List.Forall₂ Item.Matches (k.parts v) (k.parts w)) : (Kind.protocol h).Agree v w := by
  have same := Kind.same_of_matches ho hp
  refine ⟨?_, same⟩
  cases hk : k.isModel with
  | true => exact Provider.fingerprint_congr hk same
  | false =>
    cases k with
    | probe series =>
      obtain ⟨hash, tag, child⟩ := v
      obtain ⟨hash', tag', child'⟩ := w
      simp only [outline, Probe.outline, Probe.mk.injEq] at ho
      exact ho.1
    | _ => cases hk

lemma agree_probe {a b : ProbeSeries} {v w : Probe} :
    (Kind.protocol h).Agree (i := .probe a) v (j := .probe b) w ↔ a = b ∧ v.hash = w.hash ∧ v.tag = w.tag := by
  constructor
  · intro agree
    obtain rfl : a = b := Kind.probe.inj agree.index
    obtain ⟨hash, same⟩ := Protocol.agree_iff.mp agree
    exact ⟨rfl, hash, by simpa [Kind.same, Probe.same] using same⟩
  · rintro ⟨rfl, hash, tag⟩
    exact ⟨hash, by simp [Kind.same, Probe.same, tag]⟩

namespace Provider

lemma find?_protocol (v : k.Carrier) : p.find? h k v = (Kind.protocol h).find? p.entities k v := rfl

lemma canonicalCount_protocol (v : k.Carrier) : p.canonicalCount h k v = (Kind.protocol h).count p.entities k v := rfl

lemma register_entities (p : Provider) (x : Handle k.Carrier) :
    (p.register h k x).entities = (Kind.protocol h).register p.entities k x := by
  funext j
  by_cases hj : j = k
  · subst hj
    exact (putAt_same ..).trans (Protocol.register_self (P := Kind.protocol h) p.entities x).symm
  · exact (putAt_other _ _ hj).trans (Protocol.register_other (P := Kind.protocol h) (T := p.entities) x hj).symm

lemma free_iff {id : Nat} : (Kind.protocol h).Free p.entities id ↔ ¬ p.Registered id := by
  simp [Protocol.Free, Registered, HasEntry]

lemma register_run {x : Handle k.Carrier} (hx : ¬ p.Registered x.id) (hn : p.find? h k x.val = none) :
    (Kind.protocol h).Run p.entities (p.register h k x).entities := by
  have step := Protocol.Step.settle (P := Kind.protocol h) (i := k) (free_iff.mpr hx)
  rw [Protocol.settle_new (P := Kind.protocol h) (T := p.entities) (i := k) hn] at step
  exact .single (register_entities (h := h) p x ▸ step)

lemma register_shared_run (t : SharedType) (hx : ¬ p.Registered t.handle.id)
    (hn : ∀ e ∈ p.entities .typeRef, TypeRef.same e.entity.val t.handle.val = false) :
    (Kind.protocol h).Run p.entities (p.register h .typeRef t.handle).entities :=
  register_run hx (find?_typeRef_none hn)

theorem create_run (h : Hasher) (number label : Nat) (options : Options) :
    (Kind.protocol h).Run (Kind.protocol h).empty (create h number label options).entities := by
  have blank (pool : TextPool) (id : Nat) : ¬ Registered ⟨number, pool, fun _ => [], fun _ => [], 0, 0, 0, 0⟩ id := by
    simp [Registered, HasEntry]
  simp only [create, SharedType.all, List.foldl_cons, List.foldl_nil]
  refine .trans (.trans (register_shared_run .unknown (blank _ _) ?_) (register_shared_run .null ?_ ?_))
    (register_shared_run .dynamic ?_ ?_)
  · simp
  · simp only [registered_register, blank]
    decide
  · simp [register, putAt_same, SharedType.handle, TypeRef.same]
  · simp only [registered_register, blank]
    decide
  · simp [register, putAt_same, SharedType.handle, TypeRef.same]

end Provider

end CodeModel
