import CodeModel.Proofs.Session.Closure
import CodeModel.Proofs.Session.Providers
import CodeModel.Proofs.Session.Sharing

namespace CodeModel.Session

variable {σ : Store} {s t : Session} {st : Step} {p : String} {q q' : Provider} {k : Kind}
  {x y z : Handle k.Carrier}

lemma Good.entry_unchanged (hg : t.Good σ) (hq : t.providers.lookup p = some q) (hz : q.HasEntry k z) {i : Item}
    (hi : t.Holds i) (hl : i.label? = some z.id) : i = .entity k z := by
  have known : σ.object z.id = some (.entity k z) := (hg.providers _ (mem_of_lookup hq) _ (.entry hz)).knows
  have known' : σ.object z.id = some i := (hg.fits_of_holds hi).object (.refl i) hl
  rw [known] at known'
  exact (Option.some.inj known').symm

lemma Good.record_unchanged (hg : t.Good σ) (hq : t.providers.lookup p = some q) {r : Record k.Carrier}
    (hr : r ∈ q.lists k) {l : EntityList k.Carrier} (hl : t.Holds (.list k l)) (hn : l.items ≠ [])
    (hs : l.storage = r.storage) : l = r.list := by
  have bound := mem_of_lookup hq
  have full := (hg.sound _ bound).recordFull k r hr
  exact Store.list_eq (hg.fits_of_holds hl) (hg.providers _ bound _ (.record hr)) hn full hs

lemma Interned.eq_entry (hg : t.Good σ) (hq : t.providers.lookup p = some q) (hk : k.isModel = true)
    (hz : q.HasEntry k z) (h : Interned t st q.number (.entity k x) (.entity k y))
    (value : k.bare x.val = k.bare z.val) : y = z := by
  obtain ⟨τ, good, later, value', b, hb, hn, hy⟩ := h.entry hg hk
  have hz' := (later.grows hg (mem_of_lookup hq) hb hn).entry k z hz
  have fits := good.providers b hb
  have same : y.id = z.id := (good.entry_iff hk hb hy hz').mpr (value'.trans value)
  exact Store.entity_eq (fits _ (.entry hy)) (fits _ (.entry hz')) same

/-- While a provider lives its entities stay canonical, its lists keep their elements and its texts their handles. -/
theorem canonical_stays (hasher : Hasher) (options : Options) (steps more : List Step)
    (hq : ((start hasher options).after steps).providers.lookup p = some q) (he : ∀ st ∈ more, ¬ st.Ends p) :
    let t := (start hasher options).after (steps ++ more)
    ∃ q', t.providers.lookup p = some q' ∧ q'.number = q.number ∧
      (∀ k z, q.HasEntry k z → q'.HasEntry k z ∧ q'.Confirms hasher (.entity k z) ∧
        (∀ i, t.Holds i → i.label? = some z.id → i = .entity k z) ∧
        ∀ st x y, k.isModel = true → Interned t st q.number (.entity k x) (.entity k y) →
          k.bare x.val = k.bare z.val → y = z) ∧
      (∀ id ∈ ((start hasher options).after steps).frozen, id ∈ t.frozen) ∧
      (∀ k, ∀ r ∈ q.lists k, r ∈ q'.lists k ∧ q'.Confirms hasher (.list k r.list) ∧
        ∀ l, t.Holds (.list k l) → l.items ≠ [] → l.storage = r.storage → l = r.list) ∧
      (∀ v u, q.pool.find? hasher v = some u → q'.pool.find? hasher v = some u) ∧
      q.stats.AtMost q'.stats := by
  intro t
  obtain ⟨σ, good, hash⟩ := start_good hasher options steps
  obtain ⟨q', hq', grows⟩ := after_lookup good he hq
  obtain ⟨τ, good', later⟩ := after_reaches good more
  rw [← after_append] at hq' good' later
  have sound := good'.sound _ (mem_of_lookup hq')
  rw [later.hasher, hash] at sound
  rw [hash] at grows
  refine ⟨q', hq', grows.number, fun k z hz => ?_, later.frozen, fun k r hr => ?_, grows.pool.find, grows.stats⟩
  · have entry := grows.entry k z hz
    refine ⟨entry, sound.confirms (i := .entity k z) entry, fun i hi hl => good'.entry_unchanged hq' entry hi hl,
      fun st x y hk h value => ?_⟩
    rw [← grows.number] at h
    exact h.eq_entry good' hq' hk entry value
  · have record := grows.record k r hr
    exact ⟨record, sound.confirms (i := .list k r.list) (.inr ⟨r, record, rfl⟩), fun l hl hn hs =>
      good'.record_unchanged hq' record hl hn hs⟩

theorem canonical_stays_unheld :
    let steps := [.bind "a" (.entity .typeRef (.named "N" "T" [])), .intern "P" "a"]
    let more := [.newProvider "Q" ⟨false, 0⟩, .intern "Q" "a", .drop ["a"],
      .bind "b" (.entity .typeRef (.named "N" "T" []))]
    let s := (start .colliding ⟨false, 0⟩).after steps
    let t := (start .colliding ⟨false, 0⟩).after (steps ++ more)
    ∃ x y : Handle TypeRef, s.register? "a" = some (.entity .typeRef x) ∧
      (step t (.intern "P" "b")).2.2.register? "b" = some (.entity .typeRef y) ∧ y = x := by
  intro steps more s t
  let x : Handle TypeRef := ⟨4, .named ⟨95, "N"⟩ ⟨96, "T"⟩ ⟨false, 3, []⟩⟩
  have bound : (s.providers.lookup "P").isSome = true := by decide +kernel
  obtain ⟨q, hq⟩ := Option.isSome_iff_exists.mp bound
  have number : q.number = 0 := by
    have : (s.providers.lookup "P").map Provider.number = some 0 := by decide +kernel
    simpa [hq] using this
  have entry : q.HasEntry .typeRef x := by
    have known : (s.providers.lookup "P").map (fun q => (q.entities .typeRef).map Entry.entity) =
      some [SharedType.unknown.handle, SharedType.null.handle, SharedType.dynamic.handle, x] := rfl
    rw [hq, Option.map_some, Option.some.injEq] at known
    have listed : x ∈ (q.entities .typeRef).map Entry.entity := by simp [known]
    exact List.mem_map.mp listed
  have again : Interned t (.intern "P" "b") 0
      (.entity .typeRef ⟨7, .named ⟨191, "N"⟩ ⟨192, "T"⟩ ⟨false, 6, []⟩⟩) (.entity .typeRef x) :=
    ⟨none, _, _, .intern rfl (by simp) ⟨rfl, ⟨_, _, _, rfl⟩, rfl⟩, .here _ _, .inl rfl⟩
  obtain ⟨q', -, -, kept, -⟩ := canonical_stays .colliding ⟨false, 0⟩ steps more hq (by simp [more, Step.Ends])
  rw [← number] at again
  exact ⟨x, x, rfl, rfl, (kept .typeRef x entry).2.2.2 _ _ _ rfl again rfl⟩

end CodeModel.Session
