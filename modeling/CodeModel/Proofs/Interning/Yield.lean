import CodeModel.Proofs.Graph.Size
import CodeModel.Proofs.Interning.Tally

/-! The look-up comes after the parts were prepared, and no part of an entity has the value of the entity. -/

namespace CodeModel

lemma Item.size_within {i j : Item} (h : Within i j) : i.size ≤ j.size := by
  induction h with
  | refl => exact le_rfl
  | part hp _ ih => exact ih.trans (size_part hp).le

theorem Item.bare_notMem_parts {i p : Item} (hp : p ∈ i.parts) : i.bare ∉ p.values := by
  rintro ⟨a, ha, -, value⟩
  have size : a.size = i.size := by rw [← size_bare a, value, size_bare]
  have smaller := size_part hp
  have within := size_within ha
  omega

variable {s : Setting} {keep : Nat → Prop} {σ : Store} {w : Work} {k : Kind} {x : Handle k.Carrier} {held : Held}

lemma Provider.registered_iff {h : Hasher} {p : Provider} (hf : p.Fits h σ) (hx : σ.Fits (.entity k x)) :
    p.Registered x.id ↔ p.HasEntry k x := by
  constructor
  · rintro ⟨j, y, hy, hid⟩
    have known := (hf _ (.entry hy)).knows
    rw [Store.Knows, hid, hx.knows, Option.some.injEq, Item.entity.injEq] at known
    obtain ⟨rfl, hxy⟩ := known
    rwa [eq_of_heq hxy]
  · intro entry
    exact ⟨k, x, entry, rfl⟩

lemma Provider.bare_notMem_stock {h : Hasher} {p : Provider}
    (hn : ∀ z, p.Canonical h (.entity k z) → (Item.entity k z).bare ≠ (Item.entity k x).bare) :
    (Item.entity k x).bare ∉ p.stock h := by
  rintro ⟨i, hi, hb⟩
  cases i with
  | entity j z =>
    obtain ⟨rfl, -⟩ := Item.entity.inj hb
    exact hn z hi hb
  | _ => cases hb

variable {act : Interning k.Carrier}

lemma find?_prepared (hk : k.isModel = true) (hw : w.Good s.hasher σ) (hx : σ.Fits (.entity k x))
    (hact : PreparesCounting s w.provider.Settled keep k act σ w x.val) (hf : (act.run w).2.failure = none)
    (hnew : (Item.entity k x).bare ∉ w.provider.stock s.hasher) :
    (act.run w).2.provider.find? s.hasher k (act.run w).1 = none := by
  obtain ⟨⟨τ, hrow, hc, ho⟩, tallies⟩ := hact
  have means := means_entity (a := x.id) (b := (act.run w).2.next) ho hrow.value
  have wrapped := hrow.wrap (i := .entity k x) (j := .entity k ⟨(act.run w).2.next, (act.run w).1⟩)
    (u := { (act.run w).2 with next := (act.run w).2.next + 1 }) hw hx rfl rfl means rfl (Nat.le_succ _) id
    (.inl ⟨le_rfl, Nat.lt_succ_self _⟩)
  have look := wrapped.good.sound.find?_eq_none_iff wrapped.good.fits hk (wrapped.fits _ (List.mem_singleton_self _))
    (hc hf)
  rw [means hk] at look
  have stock : (act.run w).2.provider.stock s.hasher =
      w.provider.stock s.hasher ∪ {v | ∃ p ∈ k.parts x.val, v ∈ p.values} :=
    tallies.stock hf fun i hi => hw.sound.values_subset hi.canonical
  refine look.mpr fun known => ?_
  rcases stock ▸ known with hold | ⟨p, hp, hv⟩
  · exact hnew hold
  · exact Item.bare_notMem_parts (i := .entity k x) hp hv

lemma copy_new (hf : (act.run w).2.failure = none)
    (hn : (act.run w).2.provider.find? s.hasher k (act.run w).1 = none) :
    ((do
      let v ← act
      Interning.unlessFailed x do
        let id ← Interning.fresh
        settle s k ⟨id, v⟩ : Interning _).run w).1.id = (act.run w).2.next := by
  rw [copy_run hf]
  exact congrArg (·.1.id) (settle_run_new (w := { (act.run w).2 with next := (act.run w).2.next + 1 })
    (x := ⟨(act.run w).2.next, (act.run w).1⟩) hf hn)

lemma in_place_new (hf : (act.run w).2.failure = none)
    (hn : (act.run w).2.provider.find? s.hasher k (act.run w).1 = none) :
    ((do let v ← act; settle s k ⟨x.id, v⟩ : Interning _).run w).1.id = x.id := by
  rw [StateT.run_bind]
  exact congrArg (·.1.id) (settle_run_new (x := ⟨x.id, (act.run w).1⟩) hf hn)

theorem Kind.intern_new (hk : k.isModel = true) (hw : w.Good s.hasher σ) (hx : σ.Fits (.entity k x))
    (hheld : ∀ id, keep id → held id = true) (hf : w.failure = none)
    (he : ((k.intern s held x).run w).2.failure = none)
    (hnew : (Item.entity k x).bare ∉ w.provider.stock s.hasher) :
    if held x.id then w.next ≤ ((k.intern s held x).run w).1.id else ((k.intern s held x).run w).1.id = x.id := by
  have unregistered : ¬ w.provider.HasEntry k x := fun entry => hnew ⟨.entity k x, entry, rfl⟩
  have counting (keep' : Nat → Prop) (held' : Held) (v : Work) (hv : v.Good s.hasher σ) (hp : v.provider = w.provider)
      (hheld' : ∀ id, keep' id → held' id = true) :
      PreparesCounting s w.provider.Settled keep' k (k.prepare s held' x.val) σ v x.val := by
    refine prepare_counts (fun i hi => counted s _ i (Item.IsModel.parts (i := .entity k x) hk i hi)) hheld' hv
      (fun _ => hx.part) fun i _ a _ => ?_
    rw [hp]
  have hcanonical : ¬ w.provider.isCanonical s.hasher held k x = true := fun hc =>
    unregistered (Provider.entry_of_isCanonical hw.fits hx hc)
  have unheld : w.provider.holds x.id = false := by
    simpa [← Provider.holds_iff] using (Provider.registered_iff hw.fits hx).not.mpr unregistered
  unfold Kind.intern at he ⊢
  by_cases hfrozen : x.id ∈ s.frozen
  · rw [canonicalize_run_frozen hf hcanonical hfrozen] at he
    cases he
  cases hshared : held x.id with
  | true =>
    have good := hw.withEvents (w.events ++ [.copying w.provider.number k])
    have copied := counting (fun _ => True) .everything _ good rfl fun _ _ => rfl
    rw [canonicalize_run_shared hf hcanonical hfrozen (by simp [hshared])] at he ⊢
    cases hv : ((k.prepare s .everything x.val).run
        { w with events := w.events ++ [.copying w.provider.number k] }).2.failure with
    | some e =>
      rw [copy_run_failed (by simp [hv]), hv] at he
      cases he
    | none =>
      have new := find?_prepared hk good hx copied hv hnew
      obtain ⟨τ, hrow, -⟩ := copied.prepares
      rw [copy_new hv new, if_pos rfl]
      exact hrow.next
  | false =>
    rw [canonicalize_run_sole hf hcanonical hfrozen (by simp [hshared, unheld])] at he ⊢
    have hv : ((k.prepare s held x.val).run w).2.failure = none := (settle_failure _).symm.trans he
    have new := find?_prepared hk hw hx (counting keep held w hw rfl hheld) hv hnew
    rw [in_place_new hv new, if_neg Bool.false_ne_true]

end CodeModel
