import CodeModel.Proofs.Interning.Traversal

namespace CodeModel

def Row (s : Setting) (keep : Nat → Prop) (σ : Store) (w : Work) (is done rest : List Item) (v : Work) : Prop :=
  ∃ τ, Rewrite s keep σ w is τ v (done ++ rest) ∧
    (v.failure = none → ∀ j ∈ done, v.provider.Canonical s.hasher j)

def Replaceable (s : Setting) : Item → Prop
  | .entity k x => ∀ (keep : Nat → Prop) held σ w, w.Good s.hasher σ → σ.Fits (.entity k x) →
      (∀ id, keep id → held id = true) → Replaces s keep (k.intern s held x) (.entity k) σ w (.entity k x)
  | .list k l => ∀ keep σ w, w.Good s.hasher σ → σ.Fits (.list k l) →
      Replaces s keep (k.internList s l) (.list k) σ w (.list k l)
  | _ => True

variable {s : Setting} {keep : Nat → Prop} {outer : Held} {σ : Store} {w : Work} {is done rest : List Item}

lemma row_start (hw : w.Good s.hasher σ) (hf : ∀ i ∈ is, σ.Fits i) : Row s keep σ w is [] is w :=
  ⟨σ, .refl hw hf rfl rfl id, by simp⟩

lemma Row.nothing {v : Work} (h : Row s keep σ w is done (.nothing :: rest) v) :
    Row s keep σ w is (done ++ [.nothing]) rest v := by
  obtain ⟨τ, hr, hc⟩ := h
  refine ⟨τ, by simpa using hr, fun hf j hj => ?_⟩
  rcases List.mem_append.mp hj with hj | hj
  · exact hc hf j hj
  · rw [List.mem_singleton.mp hj]
    trivial

lemma Row.withEvents {v : Work} (h : Row s keep σ w is done rest v) (events : List Event) :
    Row s keep σ w is done rest { v with events } := by
  obtain ⟨τ, hr, hc⟩ := h
  exact ⟨τ, hr.trans (.refl hr.good hr.fits rfl rfl id), hc⟩

theorem sends_slot {α : Type} {act : Interning α} {item : α → Item} {i : Item}
    (h : ∀ τ v, v.Good s.hasher τ → (∀ p ∈ done ++ rest, τ.Fits p) → τ.Fits i →
      Replaces s (fun id => keep id ∨ LabelsAny (done ++ rest) id) act item τ v i) :
    act.Sends (Row s keep σ w is done (i :: rest)) (fun a => Row s keep σ w is (done ++ [item a]) rest) := by
  rintro v ⟨τ, hr, hc⟩
  have beside (p : Item) (hp : p ∈ done ++ rest) : τ.Fits p := hr.fits p (by grind)
  obtain ⟨υ, hslot, hcanonical⟩ := h τ v hr.good beside (hr.fits i (by simp))
  refine ⟨υ, by simpa using hr.trans (hslot.frame hr.good beside), fun hf j hj => ?_⟩
  rcases List.mem_append.mp hj with hj | hj
  · exact (hc (hslot.calm hf) j hj).mono hslot.grows
  · exact List.mem_singleton.mp hj ▸ hcanonical hf

lemma row_passes (hk : ∀ id, keep id → outer id = true) : Passes s outer (Replaceable s) (Row s keep σ w is) where
  nothing h := h.nothing
  text t := sends_slot fun _ _ hv _ ht => poolText_replaces t hv ht
  list hl := sends_slot fun τ v hv _ hf => hl _ τ v hv hf
  entity hx hheld := sends_slot fun τ v hv hp hf => hx _ _ τ v hv hf fun id hid =>
    (hheld τ hp id).mpr (hid.imp_left (hk id))

lemma replaceable_list {k : Kind} {l : EntityList k.Carrier} (h : ∀ x ∈ l.items, Replaceable s (.entity k x)) :
    Replaceable s (.list k l) := by
  intro keep σ w hw hl
  refine canonicalizeList_replaces k l _ hw hl ?_
  obtain ⟨τ, hr, hc⟩ := sends_elements (row_passes fun _ _ => rfl) l.items h w (row_start hw fun _ => hl.part)
  exact ⟨τ, by simpa using hr, fun hf y hy => hc hf (.entity k y) (List.mem_map_of_mem hy)⟩

lemma prepare_prepares (k : Kind) (v : k.Carrier) (hv : ∀ i ∈ k.parts v, Replaceable s i) {held : Held}
    (hheld : ∀ id, keep id → held id = true) (hw : w.Good s.hasher σ) (hf : ∀ i ∈ k.parts v, σ.Fits i) :
    Prepares s keep k (k.prepare s held v) σ w v := by
  obtain ⟨⟨τ, hr, hc⟩, ho⟩ := prepare_sends (row_passes hheld) k v hv w (row_start hw hf)
  exact ⟨τ, by simpa using hr, hc, ho⟩

theorem replaceable (s : Setting) (i : Item) : Replaceable s i := by
  induction i using Item.induction with
  | step i ih =>
    cases i with
    | nothing | text | definition => trivial
    | list k l => exact replaceable_list (by simpa using ih)
    | entity k x =>
      intro keep held σ w hw hx hheld
      exact canonicalize_replaces k held x _ hw hx hheld fun keep' held' v hv hheld' =>
        prepare_prepares k x.val ih hheld' hv fun _ => hx.part

end CodeModel
