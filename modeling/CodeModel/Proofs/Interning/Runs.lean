import CodeModel.Intern.Prepare
import Mathlib.Tactic.Lemma

/-! The operations of canonicalization case by case: what each gives, and the work it leaves. -/

namespace CodeModel

open Interning

variable {s : Setting} {w : Work} {k : Kind} {α : Type}

lemma run_unlessFailed (x : α) (act : Interning α) (w : Work) :
    (unlessFailed x act).run w = if w.failure.isSome then (x, w) else act.run w := by
  cases hf : w.failure <;> simp [unlessFailed, hf]
  rfl

lemma unlessFailed_run_failed {x : α} {act : Interning α} (hf : w.failure.isSome = true) :
    (unlessFailed x act).run w = (x, w) := by
  rw [run_unlessFailed, if_pos hf]

lemma unlessFailed_run {x : α} {act : Interning α} (hf : w.failure = none) :
    (unlessFailed x act).run w = act.run w := by
  rw [run_unlessFailed, if_neg (by simp [hf])]

lemma ifPreparable_frozen {id : Nat} {entity : String} {x : α} {act : Interning α} (hz : id ∈ s.frozen) :
    (ifPreparable s id entity x act).run w = (x, { w with failure := some (.preparedAfterFreeze entity) }) := by
  have refused : (s.frozen.state id).checkPreparable entity = .error (.preparedAfterFreeze entity) := by
    rw [Frozen.state, if_pos (by simpa using hz)]
    rfl
  rw [ifPreparable, refused]
  rfl

lemma ifPreparable_open {id : Nat} {entity : String} {x : α} {act : Interning α} (hz : id ∉ s.frozen) :
    ifPreparable s id entity x act = act := by
  have allowed : (s.frozen.state id).checkPreparable entity = .ok () := by
    rw [Frozen.state, if_neg (by simpa using hz)]
    rfl
  rw [ifPreparable, allowed]

lemma poolText_run (t : Text) (hf : w.failure = none) :
    (poolText s t).run w = ((w.provider.pool.adopt s.hasher t).1,
      { w with provider := { w.provider with pool := (w.provider.pool.adopt s.hasher t).2 } }) :=
  unlessFailed_run hf

section Settle

variable {x : Handle k.Carrier}

lemma settle_run_found {y : Handle k.Carrier} (hf : w.failure = none)
    (hy : w.provider.find? s.hasher k x.val = some y) :
    (settle s k x).run w = (y, { w with
      provider := w.provider.hit
      events := w.events ++ [.reused w.provider.number k] }) := by
  refine (unlessFailed_run hf).trans ?_
  simp [hy, update, emit]
  rfl

lemma settle_run_new (hf : w.failure = none) (hn : w.provider.find? s.hasher k x.val = none) :
    (settle s k x).run w = (x, { w with
      provider := (w.provider.register s.hasher k x).miss
      events := w.events ++ [.registered w.provider.number k] }) := by
  refine (unlessFailed_run hf).trans ?_
  simp [hn, update, emit]
  rfl

end Settle

section Canonicalize

variable {held : Held} {x : Handle k.Carrier} {prepare : Held → Interning k.Carrier}

lemma canonicalize_run_canonical (hf : w.failure = none)
    (hc : w.provider.isCanonical s.hasher held k x = true) :
    (canonicalize s k held x prepare).run w = (x, w) := by
  refine (unlessFailed_run hf).trans ?_
  simp [hc]
  rfl

lemma canonicalize_run_frozen (hf : w.failure = none)
    (hc : w.provider.isCanonical s.hasher held k x ≠ true) (hz : x.id ∈ s.frozen) :
    (canonicalize s k held x prepare).run w =
      (x, { w with failure := some (.preparedAfterFreeze k.name) }) := by
  refine (unlessFailed_run hf).trans ?_
  simp only [StateT.run_bind, StateT.run_get, pure_bind, if_neg hc]
  exact ifPreparable_frozen hz

lemma canonicalize_run_shared (hf : w.failure = none)
    (hc : w.provider.isCanonical s.hasher held k x ≠ true) (hz : x.id ∉ s.frozen)
    (hs : (held x.id || w.provider.holds x.id) = true) :
    (canonicalize s k held x prepare).run w = (do
      let v ← prepare Held.everything
      unlessFailed x do
        let id ← fresh
        settle s k ⟨id, v⟩ : Interning _).run { w with events := w.events ++ [.copying w.provider.number k] } := by
  refine (unlessFailed_run hf).trans ?_
  simp [hc, ifPreparable_open hz, show held x.id = true ∨ w.provider.holds x.id = true by simpa using hs, emit]

lemma canonicalize_run_sole (hf : w.failure = none)
    (hc : w.provider.isCanonical s.hasher held k x ≠ true) (hz : x.id ∉ s.frozen)
    (hs : (held x.id || w.provider.holds x.id) ≠ true) :
    (canonicalize s k held x prepare).run w = (do
      let v ← prepare held
      settle s k ⟨x.id, v⟩ : Interning _).run w := by
  refine (unlessFailed_run hf).trans ?_
  simp [hc, ifPreparable_open hz, show ¬ (held x.id = true ∨ w.provider.holds x.id = true) by simpa using hs]

variable {act : Interning k.Carrier}

lemma copy_run_failed (hf : (act.run w).2.failure.isSome = true) :
    (do let v ← act
        unlessFailed x do
          let id ← fresh
          settle s k ⟨id, v⟩ : Interning _).run w = (x, (act.run w).2) := by
  rw [StateT.run_bind]
  exact unlessFailed_run_failed hf

lemma copy_run (hf : (act.run w).2.failure = none) :
    (do let v ← act
        unlessFailed x do
          let id ← fresh
          settle s k ⟨id, v⟩ : Interning _).run w =
      (settle s k ⟨(act.run w).2.next, (act.run w).1⟩).run { (act.run w).2 with next := (act.run w).2.next + 1 } := by
  rw [StateT.run_bind]
  exact unlessFailed_run hf

end Canonicalize

section Lists

variable {items : List (Handle k.Carrier)}

lemma sealList_run_found {r : Record k.Carrier} (hr : w.provider.findList? s.hasher k items = some r) :
    (sealList s k items).run w = (⟨true, r.storage, r.items⟩, { w with
      provider := w.provider.hit
      events := w.events ++ [.listed w.provider.number k items.length] }) := by
  simp [sealList, hr, update, emit]
  rfl

lemma sealList_run_new (hn : w.provider.findList? s.hasher k items = none) :
    (sealList s k items).run w = (⟨true, w.next, items⟩, { w with
      provider := (w.provider.recordList s.hasher k w.next items).miss
      next := w.next + 1
      events := w.events ++ [.listed w.provider.number k items.length] }) := by
  simp [sealList, hn, update, emit, fresh]
  rfl

variable {l : EntityList k.Carrier} {elements : Interning (List (Handle k.Carrier))}

lemma canonicalizeList_run_done (hf : w.failure = none)
    (hd : l.items = [] ∨ w.provider.isCanonicalList s.hasher k l = true) :
    (canonicalizeList s k l elements).run w = (l, w) := by
  refine (unlessFailed_run hf).trans ?_
  simp [hd]
  rfl

lemma canonicalizeList_run_elements (hf : w.failure = none)
    (hd : ¬ (l.items = [] ∨ w.provider.isCanonicalList s.hasher k l = true)) :
    (canonicalizeList s k l elements).run w =
      (unlessFailed l (sealList s k (elements.run w).1)).run (elements.run w).2 := by
  refine (unlessFailed_run hf).trans ?_
  simp [hd]
  rfl

end Lists

lemma prepareInPlace_run_frozen {held : Held} {x : Handle k.Carrier} (hz : x.id ∈ s.frozen) :
    (k.prepareInPlace s held x).run w = (x, { w with failure := some (.preparedAfterFreeze k.name) }) :=
  ifPreparable_frozen hz

lemma prepareInPlace_run {held : Held} {x : Handle k.Carrier} (hz : x.id ∉ s.frozen) :
    (k.prepareInPlace s held x).run w =
      (⟨x.id, ((k.prepare s held x.val).run w).1⟩, ((k.prepare s held x.val).run w).2) := by
  rw [Kind.prepareInPlace, ifPreparable_open hz]
  rfl

lemma internMembers_run_frozen {d : Handle Definition} (hz : d.id ∈ s.frozen) :
    (Definition.internMembers s d).run w =
      (d, { w with failure := some (.preparedAfterFreeze Definition.kindName) }) :=
  ifPreparable_frozen hz

section Failures

lemma settle_run_failed {x : Handle k.Carrier} (hf : w.failure.isSome = true) : (settle s k x).run w = (x, w) :=
  unlessFailed_run_failed hf

lemma in_place_run_failed {x : Handle k.Carrier} {act : Interning k.Carrier} (hf : (act.run w).2.failure.isSome = true) :
    (do let v ← act; settle s k ⟨x.id, v⟩ : Interning _).run w = (⟨x.id, (act.run w).1⟩, (act.run w).2) := by
  rw [StateT.run_bind]
  exact settle_run_failed hf

lemma settle_failure (x : Handle k.Carrier) : ((settle s k x).run w).2.failure = w.failure := by
  cases hf : w.failure with
  | some e =>
    rw [settle_run_failed (by simp [hf])]
    exact hf
  | none =>
    cases hy : w.provider.find? s.hasher k x.val with
    | some y =>
      rw [settle_run_found hf hy]
      exact hf
    | none =>
      rw [settle_run_new hf hy]
      exact hf

lemma sealList_failure (items : List (Handle k.Carrier)) :
    ((sealList s k items).run w).2.failure = w.failure := by
  cases hr : w.provider.findList? s.hasher k items with
  | some r => rw [sealList_run_found hr]
  | none => rw [sealList_run_new hr]

theorem Kind.intern_run_failed {held : Held} {x : Handle k.Carrier} (hf : w.failure = none)
    (he : ((k.intern s held x).run w).2.failure ≠ none) :
    (k.intern s held x).run w = (x, { w with failure := some (.preparedAfterFreeze k.name) }) ∨
      ∃ y held' es, y.id = x.id ∧ (es = [] ∨ es = [.copying w.provider.number k]) ∧
        (k.intern s held x).run w =
          (y, ((k.prepare s held' x.val).run { w with events := w.events ++ es }).2) := by
  unfold Kind.intern at he ⊢
  by_cases hcanonical : w.provider.isCanonical s.hasher held k x = true
  · rw [canonicalize_run_canonical hf hcanonical] at he
    exact absurd hf he
  by_cases hfrozen : x.id ∈ s.frozen
  · exact .inl (canonicalize_run_frozen hf hcanonical hfrozen)
  right
  by_cases hshared : (held x.id || w.provider.holds x.id) = true
  · rw [canonicalize_run_shared hf hcanonical hfrozen hshared] at he ⊢
    refine ⟨x, .everything, [.copying w.provider.number k], rfl, .inr rfl, ?_⟩
    cases hv : ((k.prepare s .everything x.val).run
        { w with events := w.events ++ [.copying w.provider.number k] }).2.failure with
    | some e => exact copy_run_failed (by simp [hv])
    | none =>
      rw [copy_run hv, settle_failure] at he
      exact absurd hv he
  · rw [canonicalize_run_sole hf hcanonical hfrozen hshared, StateT.run_bind] at he ⊢
    refine ⟨⟨x.id, ((k.prepare s held x.val).run w).1⟩, held, [], rfl, .inl rfl, ?_⟩
    have failed : ((k.prepare s held x.val).run w).2.failure ≠ none := fun h => he ((settle_failure _).trans h)
    simp only [List.append_nil]
    exact settle_run_failed (Option.ne_none_iff_isSome.mp failed)

theorem Kind.internList_run_failed {l : EntityList k.Carrier} (hf : w.failure = none)
    (he : ((k.internList s l).run w).2.failure ≠ none) :
    (k.internList s l).run w = (l, ((l.items.mapM (k.intern s .everything)).run w).2) := by
  unfold Kind.internList at he ⊢
  by_cases hdone : l.items = [] ∨ w.provider.isCanonicalList s.hasher k l = true
  · rw [canonicalizeList_run_done hf hdone] at he
    exact absurd hf he
  · rw [canonicalizeList_run_elements hf hdone, run_unlessFailed] at he ⊢
    split at he
    next hv => exact if_pos hv
    next hv =>
      rw [sealList_failure] at he
      exact absurd (Option.ne_none_iff_isSome.mp he) hv

def Definition.internParts (s : Setting) (d : Definition) : Interning Definition := do
  let ns ← poolText s d.ns
  let name ← poolText s d.name
  let bases ← Kind.internList s .typeRef d.bases
  let methods ← Kind.internList s .method d.methods
  let attributes ← Kind.internList s .attr d.attributes
  let region ← poolRegion s d.region
  return { d with ns, name, bases, methods, attributes, region }

lemma internMembers_run {d : Handle Definition} (hz : d.id ∉ s.frozen) :
    (Definition.internMembers s d).run w = (unlessFailed ⟨d.id, ((d.val.internParts s).run w).1⟩ (do
      emit (.interned (← get).provider.number ((d.val.internParts s).run w).1.fullName
        ((d.val.internParts s).run w).1.methods.length)
      return ⟨d.id, ((d.val.internParts s).run w).1⟩) : Interning _).run ((d.val.internParts s).run w).2 := by
  rw [Definition.internMembers, ifPreparable_open hz]
  rfl

lemma Definition.internMembers_id (d : Handle Definition) : ((internMembers s d).run w).1.id = d.id := by
  by_cases hfrozen : d.id ∈ s.frozen
  · rw [internMembers_run_frozen hfrozen]
  · rw [internMembers_run hfrozen, run_unlessFailed]
    split <;> rfl

theorem Definition.internMembers_run_failed {d : Handle Definition}
    (he : ((internMembers s d).run w).2.failure ≠ none) :
    ((internMembers s d).run w).2 = { w with failure := some (.preparedAfterFreeze kindName) } ∨
      ((internMembers s d).run w).2 = ((d.val.internParts s).run w).2 := by
  by_cases hfrozen : d.id ∈ s.frozen
  · rw [internMembers_run_frozen hfrozen]
    exact .inl rfl
  · rw [internMembers_run hfrozen, run_unlessFailed] at he ⊢
    split at he
    next hv => rw [if_pos hv]; exact .inr rfl
    next hv => exact absurd (Option.ne_none_iff_isSome.mp he) hv

end Failures

end CodeModel
