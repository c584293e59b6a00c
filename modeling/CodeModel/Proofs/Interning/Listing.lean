import CodeModel.Proofs.Interning.Relisting
import CodeModel.Proofs.Interning.Yield

namespace CodeModel

variable {s : Setting} {σ : Store} {w : Work} {k : Kind} {l : EntityList k.Carrier}

theorem internList_writes_nothing (hw : w.Good s.hasher σ) (hl : σ.Fits (.list k l)) :
    ∃ τ, Rewrite s (fun _ => True) σ w [.list k l] τ ((k.internList s l).run w).2
      [.list k ((k.internList s l).run w).1] := by
  obtain ⟨τ, hr, -⟩ : Replaces s (fun _ => True) (k.internList s l) (.list k) σ w (.list k l) :=
    internList_replaces k l hw hl
  exact ⟨τ, hr⟩

lemma internList_empty (hf : w.failure = none) (hn : l.items = []) : (k.internList s l).run w = (l, w) :=
  canonicalizeList_run_done hf (.inl hn)

lemma internList_full (hw : w.Good s.hasher σ) (hl : σ.Fits (.list k l)) (hn : l.items ≠ []) :
    ((k.internList s l).run w).1.items ≠ [] :=
  elements_full (internList_elements hw hl) hn

theorem internList_records (hw : w.Good s.hasher σ) (hl : σ.Fits (.list k l)) (hn : l.items ≠ [])
    (he : ((k.internList s l).run w).2.failure = none) :
    ∃ a ∈ ((k.internList s l).run w).2.provider.lists k, a.list = ((k.internList s l).run w).1 := by
  obtain ⟨τ, -, hc⟩ : Replaces s (fun _ => True) (k.internList s l) (.list k) σ w (.list k l) :=
    internList_replaces k l hw hl
  exact (hc he).resolve_left (internList_full hw hl hn)

section Failing

variable (hw : w.Good s.hasher σ) (hl : σ.Fits (.list k l)) (hf : w.failure = none)
  (he : ((k.internList s l).run w).2.failure ≠ none)

include hw hl hf he

theorem internList_failed_sequence {a : Record k.Carrier}
    (ha : a ∈ ((k.internList s l).run w).2.provider.lists k) : a.items.map Handle.id ≠ l.items.map Handle.id := by
  intro ids
  obtain ⟨τ, hr⟩ := internList_writes_nothing hw hl
  have recorded : τ.Fits (.list k a.list) := hr.good.fits _ (.record ha)
  have kept : τ.Fits (.list k l) := hr.fits_of_keep hw hl fun _ _ => trivial
  have items : a.items = l.items := Store.items_eq (fun _ => recorded.element) (fun _ => kept.element) ids
  have entries (x : Handle k.Carrier) (hx : x ∈ l.items) : w.provider.HasEntry k x := by
    have entry := hr.good.sound.recordParts k a ha x (items ▸ hx)
    apply (Provider.registered_iff hw.fits (hl.element hx)).mp
    rcases hr.registered x.id ⟨k, x, entry, rfl⟩ with ⟨-, hn⟩ | registered | hn
    · exact absurd trivial hn
    · exact registered
    · exact absurd (hw.object _ _ (hl.element hx).knows) hn.not_gt
  rw [Kind.internList_run_failed hf he, intern_entries hf hw.sound entries] at he
  exact he hf

theorem internList_failed_value (hk : k.isModel = true) {a : Record k.Carrier}
    (ha : a ∈ ((k.internList s l).run w).2.provider.lists k) (value : (Item.list k a.list).bare = (Item.list k l).bare) :
    a ∈ w.provider.lists k := by
  obtain ⟨τ, hr⟩ := internList_writes_nothing hw hl
  have tallies : Tallies w.provider.Settled (·.FrozenIn s.frozen) [.list k l] (w.inventory s.hasher)
      (((k.internList s l).run w).2.inventory s.hasher) :=
    @Item.intern_tallies s (fun _ => False) σ w (.list k l) .nothing hk hw hl nofun hf
  have recorded : ((k.internList s l).run w).2.provider.Canonical s.hasher (.list k a.list) := .inr ⟨a, ha, rfl⟩
  have full := hr.good.sound.recordFull k a ha
  rcases tallies.stock_failed he ⟨_, recorded, rfl⟩ with ⟨i, hi, hb⟩ | ⟨p, hp, hv⟩
  · have same := hr.good.sound.matches_of_bare ((Item.isModel_bare i).mp (hb ▸ (Item.isModel_bare _).mpr hk))
      (.mono hr.grows hi) recorded hb
    cases same with
    | refl =>
      rcases hi with hn | ⟨b, hb, same⟩
      · exact absurd hn full
      · have ids : b.items.map Handle.id = a.items.map Handle.id := congrArg (·.items.map Handle.id) same
        rwa [← hr.good.sound.record_eq (hr.grows.record k b hb) ha ids]
    | empty _ hn => exact absurd hn full
  · rw [value] at hv
    exact absurd hv (Item.bare_notMem_parts hp)

end Failing

end CodeModel
