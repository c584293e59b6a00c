import CodeModel.Proofs.Interning.Whole

/-! A list is interned for its elements alone, whatever storage they stand in. -/

namespace CodeModel

variable {s : Setting} {σ : Store} {w : Work} {k : Kind} {l m : EntityList k.Carrier}

lemma intern_entry {held : Held} {x : Handle k.Carrier} (hf : w.failure = none) (hp : w.provider.Sound s.hasher)
    (hx : w.provider.HasEntry k x) : (k.intern s held x).run w = (x, w) :=
  canonicalize_run_canonical hf (hp.isCanonical held hx)

lemma intern_entries {xs : List (Handle k.Carrier)} (hf : w.failure = none) (hp : w.provider.Sound s.hasher)
    (hx : ∀ x ∈ xs, w.provider.HasEntry k x) : (xs.mapM (k.intern s .everything)).run w = (xs, w) := by
  induction xs with
  | nil => rfl
  | cons x xs ih =>
    simp only [List.mem_cons, forall_eq_or_imp] at hx
    rw [List.mapM_cons, StateT.run_bind, intern_entry hf hp hx.1]
    exact congrArg (fun r => (x :: r.1, r.2)) (ih hx.2)

theorem internList_recorded (hw : w.Good s.hasher σ) (hl : σ.Fits (.list k l)) (hf : w.failure = none)
    {r : Record k.Carrier} (hr : r ∈ w.provider.lists k) (ids : l.items.map Handle.id = r.items.map Handle.id) :
    ((k.internList s l).run w).1 = r.list ∧ ((k.internList s l).run w).2.failure = none := by
  have recorded : σ.Fits (.list k r.list) := hw.fits _ (.record hr)
  have items : l.items = r.items :=
    Store.items_eq (fun _ => hl.element) (fun _ hx => recorded.element hx) ids
  have full : l.items ≠ [] := items ▸ hw.sound.recordFull k r hr
  unfold Kind.internList
  by_cases hc : w.provider.isCanonicalList s.hasher k l = true
  · rw [canonicalizeList_run_done hf (.inr hc)]
    rcases Provider.canonical_of_isCanonicalList hw.sound hw.fits hl hc with hn | ⟨r', hr', rfl⟩
    · exact absurd hn full
    · rw [hw.sound.record_eq hr' hr ids]
      exact ⟨rfl, hf⟩
  · have entries (x : Handle k.Carrier) (hx : x ∈ l.items) : w.provider.HasEntry k x :=
      hw.sound.recordParts k r hr x (items ▸ hx)
    rw [canonicalizeList_run_elements hf (by simp [full, hc]), intern_entries hf hw.sound entries,
      unlessFailed_run hf]
    cases found : w.provider.findList? s.hasher k l.items with
    | none => exact absurd ids.symm (hw.sound.findList?_none found hr)
    | some r' =>
      obtain ⟨hr', ids'⟩ := Provider.findList?_some found
      rw [sealList_run_found found, hw.sound.record_eq hr' hr (ids'.trans ids)]
      exact ⟨rfl, hf⟩

lemma sealList_items {τ : Store} {v : Work} {xs : List (Handle k.Carrier)} (hv : v.Good s.hasher τ)
    (hx : ∀ x ∈ xs, τ.Fits (.entity k x)) : ((sealList s k xs).run v).1.items = xs := by
  cases found : v.provider.findList? s.hasher k xs with
  | none => rw [sealList_run_new found]
  | some r =>
    obtain ⟨hr, ids⟩ := Provider.findList?_some found
    have recorded : τ.Fits (.list k r.list) := hv.fits _ (.record hr)
    rw [sealList_run_found found]
    exact Store.items_eq (fun _ hx => recorded.element hx) hx ids

lemma internList_failed (hf : w.failure.isSome = true) : (k.internList s l).run w = (l, w) :=
  unlessFailed_run_failed hf

theorem internList_elements (hw : w.Good s.hasher σ) (hl : σ.Fits (.list k l)) :
    List.Forall₂ Item.Means (l.items.map (.entity k)) (((k.internList s l).run w).1.items.map (.entity k)) := by
  cases hf : w.failure with
  | some e =>
    rw [internList_failed (by simp [hf])]
    exact Rewrite.means_refl _
  | none =>
    unfold Kind.internList
    by_cases hdone : l.items = [] ∨ w.provider.isCanonicalList s.hasher k l = true
    · rw [canonicalizeList_run_done hf hdone]
      exact Rewrite.means_refl _
    · have start : Row s (fun _ => True) σ w (l.items.map (.entity k)) [] (l.items.map (.entity k)) w :=
        row_start hw fun _ => hl.part
      obtain ⟨τ, hr, -⟩ := sends_elements (row_passes fun _ _ => rfl) l.items (fun x _ => replaceable s _) w start
      rw [List.append_nil] at hr
      rw [canonicalizeList_run_elements hf hdone, run_unlessFailed]
      split
      · exact Rewrite.means_refl _
      · rw [sealList_items hr.good fun x hx => hr.fits _ (List.mem_map_of_mem hx)]
        exact hr.value

lemma open_of_unrecorded (hw : w.Good s.hasher σ) (hl : σ.Fits (.list k l)) (hn : l.items ≠ [])
    (hr : ¬ ∃ r ∈ w.provider.lists k, l.items.map Handle.id = r.items.map Handle.id) :
    ¬ (l.items = [] ∨ w.provider.isCanonicalList s.hasher k l = true) := by
  rintro (h | h)
  · exact hn h
  · rcases Provider.canonical_of_isCanonicalList hw.sound hw.fits hl h with h | ⟨r, hr', rfl⟩
    · exact hn h
    · exact hr ⟨r, hr', rfl⟩

theorem internList_congr (hw : w.Good s.hasher σ) (hl : σ.Fits (.list k l)) (hm : σ.Fits (.list k m))
    (items : m.items = l.items) :
    ((k.internList s m).run w).1.items = ((k.internList s l).run w).1.items ∧
      ((k.internList s m).run w).2.failure = ((k.internList s l).run w).2.failure ∧
      (l.items ≠ [] → ((k.internList s l).run w).2.failure = none →
        ((k.internList s m).run w).1 = ((k.internList s l).run w).1) := by
  cases hf : w.failure with
  | some e =>
    rw [internList_failed (by simp [hf]), internList_failed (by simp [hf])]
    exact ⟨items, rfl, fun _ h => by simp [hf] at h⟩
  | none =>
    by_cases hn : l.items = []
    · unfold Kind.internList
      rw [canonicalizeList_run_done hf (.inl hn), canonicalizeList_run_done hf (.inl (items.trans hn))]
      exact ⟨items, rfl, fun h => absurd hn h⟩
    by_cases hr : ∃ r ∈ w.provider.lists k, l.items.map Handle.id = r.items.map Handle.id
    · obtain ⟨r, hr, ids⟩ := hr
      obtain ⟨hl, hlf⟩ := internList_recorded hw hl hf hr ids
      obtain ⟨hm, hmf⟩ := internList_recorded hw hm hf hr (items ▸ ids)
      rw [hl, hm, hlf, hmf]
      exact ⟨rfl, rfl, fun _ _ => rfl⟩
    · unfold Kind.internList
      rw [canonicalizeList_run_elements hf (open_of_unrecorded hw hl hn hr),
        canonicalizeList_run_elements hf (open_of_unrecorded hw hm (items ▸ hn) (items ▸ hr)), items, run_unlessFailed,
        run_unlessFailed]
      split
      next failed => exact ⟨items, rfl, fun _ h => absurd h (Option.isSome_iff_ne_none.mp failed)⟩
      next => exact ⟨rfl, rfl, fun _ _ => rfl⟩

end CodeModel
