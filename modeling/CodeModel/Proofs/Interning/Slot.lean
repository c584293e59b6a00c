import CodeModel.Proofs.Interning.Rewrite
import CodeModel.Proofs.Interning.Runs

namespace CodeModel

open Interning

variable {s : Setting} {keep : Nat → Prop} {σ τ : Store} {w : Work}

def Replaces {α : Type} (s : Setting) (keep : Nat → Prop) (act : Interning α) (item : α → Item) (σ : Store)
    (w : Work) (i : Item) : Prop :=
  ∃ τ, Rewrite s keep σ w [i] τ (act.run w).2 [item (act.run w).1] ∧
    ((act.run w).2.failure = none → (act.run w).2.provider.Canonical s.hasher (item (act.run w).1))

def Prepares (s : Setting) (keep : Nat → Prop) (k : Kind) (act : Interning k.Carrier) (σ : Store) (w : Work)
    (v : k.Carrier) : Prop :=
  ∃ τ, Rewrite s keep σ w (k.parts v) τ (act.run w).2 (k.parts (act.run w).1) ∧
    ((act.run w).2.failure = none → ∀ p ∈ k.parts (act.run w).1, (act.run w).2.provider.Canonical s.hasher p) ∧
    k.outline (act.run w).1 = k.outline v

lemma bares_of_means {is js : List Item} (h : List.Forall₂ Item.Means is js) (hm : ∀ i ∈ is, i.IsModel) :
    js.map Item.bare = is.map Item.bare := by
  induction h with
  | nil => rfl
  | cons hij _ ih =>
    simp only [List.mem_cons, forall_eq_or_imp] at hm
    simp [hij hm.1, ih hm.2]

lemma means_entity {k : Kind} {v v' : k.Carrier} {a b : Nat} (ho : k.outline v' = k.outline v)
    (hp : List.Forall₂ Item.Means (k.parts v) (k.parts v')) :
    (Item.entity k ⟨a, v⟩).Means (.entity k ⟨b, v'⟩) := by
  intro hk
  have parts := bares_of_means hp (Item.IsModel.parts (i := .entity k ⟨a, v⟩) hk)
  simp [Handle.bare, Kind.bare_congr ho parts]

lemma replaces_failed {α : Type} {x : α} {item : α → Item} {act : Interning α} (hw : w.Good s.hasher σ)
    (hx : σ.Fits (item x)) (hf : w.failure.isSome = true) :
    Replaces s keep (unlessFailed x act) item σ w (item x) := by
  rw [Replaces, unlessFailed_run_failed hf]
  refine ⟨σ, .refl hw (by simpa using hx) rfl rfl id, fun hn => ?_⟩
  have none : w.failure = none := hn
  simp [none] at hf

lemma Replaces.unlessFailed {α : Type} {x : α} {item : α → Item} {act : Interning α} (hw : w.Good s.hasher σ)
    (hx : σ.Fits (item x)) (h : w.failure = none → Replaces s keep act item σ w (item x)) :
    Replaces s keep (unlessFailed x act) item σ w (item x) := by
  cases hf : w.failure with
  | some e => exact replaces_failed hw hx (by simp [hf])
  | none =>
    rw [Replaces, unlessFailed_run hf]
    exact h hf

lemma Replaces.of_run {α : Type} {act : Interning α} {item : α → Item} {i : Item} {a : α} {v : Work}
    (hrun : act.run w = (a, v)) (hr : Rewrite s keep σ w [i] τ v [item a])
    (hc : v.failure = none → v.provider.Canonical s.hasher (item a)) : Replaces s keep act item σ w i := by
  rw [Replaces, hrun]
  exact ⟨τ, hr, hc⟩

lemma Replaces.weaken {keep' : Nat → Prop} {α : Type} {act : Interning α} {item : α → Item} {i : Item}
    (h : Replaces s keep' act item σ w i) (hk : ∀ id < w.next, keep id → keep' id) :
    Replaces s keep act item σ w i := by
  obtain ⟨τ, hr, hc⟩ := h
  exact ⟨τ, hr.weaken hk, hc⟩

theorem poolText_replaces (t : Text) (hw : w.Good s.hasher σ) (ht : σ.Fits (.text t)) :
    Replaces s keep (poolText s t) .text σ w (.text t) := by
  cases hf : w.failure with
  | some e => exact replaces_failed hw ht (by simp [hf])
  | none =>
    have grown := TextPool.grows_adopt (h := s.hasher) w.provider.pool t
    have found := TextPool.find?_adopt s.hasher w.provider.pool t
    have val := TextPool.adopt_val s.hasher w.provider.pool t
    have texts (a : String) (u : Text) (hu : (w.provider.pool.adopt s.hasher t).2.find? s.hasher a = some u) :
        σ.Fits (.text u) := by
      rcases TextPool.find?_of_adopt hu with hu | rfl
      · exact hw.fits _ (.text hu)
      · exact ht
    refine .of_run (poolText_run t hf)
      ⟨⟨hw.sound.withPool grown (hw.sound.filed.adopt t), Provider.fits_pool hw.fits texts, hw.object, hw.list⟩, ?_,
      .refl σ, rfl, Provider.grows_pool grown, le_rfl, fun _ => hf, .cons (fun _ => ?_) .nil,
      fun id i hi => ⟨i, hi, .refl i⟩, fun _ => .inl rfl, fun id hl => ?_, fun _ hr => .inr (.inl hr),
      fun _ _ hr => .inl hr, .refl⟩ fun _ => ?_
    · simpa using texts _ _ found
    · simp [Text.bare, val]
    · simp [labelsAny_cons] at hl
    · exact TextPool.find?_self s.hasher found

lemma Rewrite.exchange {i j : Item} {v : Work} (hv : v.Good s.hasher τ)
    (hj : v.provider.Canonical s.hasher j) (value : i.Means j) (he : σ.Extends τ)
    (ht : τ.text = σ.text) (ho : τ.object = σ.object) (hg : w.provider.Grows s.hasher v.provider)
    (hn : w.next ≤ v.next)
    (hc : v.failure = none → w.failure = none)
    (hr : ∀ id, v.provider.Registered id → (i.Labels id ∧ ¬ keep id) ∨ w.provider.Registered id)
    (hs : ∀ k, ∀ r ∈ v.provider.lists k, r ∈ w.provider.lists k ∨ w.next ≤ r.storage)
    (tables : (Kind.protocol s.hasher).Run w.provider.entities v.provider.entities) :
    Rewrite s keep σ w [i] τ v [j] where
  good := hv
  fits := by simpa using hj.fits hv.fits
  extends' := he
  texts := ht
  grows := hg
  next := hn
  calm := hc
  value := .cons value .nil
  persists id i hi := ⟨i, ho ▸ hi, .refl i⟩
  changes id := .inl (congrFun ho id)
  labels id hl := by
    simp only [labelsAny_cons, labelsAny_nil, or_false] at hl
    exact .inr (.inl (hv.sound.registered_of_labels hj hl))
  registered id h := by
    simp only [labelsAny_cons, labelsAny_nil, or_false]
    exact (hr id h).imp_right .inl
  recorded := hs
  tables := tables

theorem settle_replaces (k : Kind) (x : Handle k.Carrier) (hw : w.Good s.hasher σ)
    (hx : σ.Fits (.entity k x)) (hk : ¬ keep x.id) (hr : ¬ w.provider.Registered x.id)
    (hp : w.failure = none → ∀ p ∈ k.parts x.val, w.provider.Canonical s.hasher p) :
    Replaces s keep (settle s k x) (.entity k) σ w (.entity k x) := by
  cases hf : w.failure with
  | some e => exact replaces_failed hw hx (by simp [hf])
  | none =>
    cases hy : w.provider.find? s.hasher k x.val with
    | some y =>
      obtain ⟨entry, -, same⟩ := hw.sound.find?_some hy
      have value : (Item.entity k x).Means (.entity k y) := fun hk => by
        have := Store.bare_of_same hk (fun _ => (hw.fits _ (.entry entry)).part) (fun _ => hx.part) same
        simp [Handle.bare, this]
      exact .of_run (settle_run_found hf hy)
        (.exchange ⟨hw.sound.hit, Provider.fits_hit hw.fits, hw.object, hw.list⟩ entry value (.refl σ) rfl rfl
          (Provider.grows_hit _ _) le_rfl (fun _ => hf) (fun _ hr => .inr hr) (fun _ _ hr => .inl hr) .refl) fun _ => entry
    | none =>
      have entry : (w.provider.register s.hasher k x).HasEntry k x := Provider.hasEntry_register.mpr (.inr rfl)
      have grown : w.provider.Grows s.hasher (w.provider.register s.hasher k x).miss :=
        (Provider.grows_register _ _ k x).trans (Provider.grows_miss _ _)
      refine .of_run (settle_run_new hf hy)
        (.exchange ⟨(hw.sound.register (hp hf) hy).miss,
          Provider.fits_miss (Provider.fits_register.mpr ⟨hw.fits, hx⟩), hw.object, hw.list⟩ entry (.refl _)
          (.refl σ) rfl rfl grown le_rfl (fun _ => hf) (fun id hr => ?_) (fun _ _ hr => .inl hr)
          (Provider.register_run hr hy)) fun _ => entry
      rcases Provider.registered_register.mp hr with hr | rfl
      · exact .inr hr
      · exact .inl ⟨Item.labels_iff.mpr (.inl rfl), hk⟩

lemma Replaces.of_run_eq {α : Type} {act act' : Interning α} {item : α → Item} {i j : Item} {v : Work}
    (hrun : act.run w = act'.run v) (hr : Rewrite s keep σ w [i] τ v [j])
    (h : Replaces s keep act' item τ v j) : Replaces s keep act item σ w i := by
  obtain ⟨υ, hr', hc⟩ := h
  rw [Replaces, hrun]
  exact ⟨υ, hr.trans hr', hc⟩

section Arms

variable {k : Kind} {x : Handle k.Carrier} (act : Interning k.Carrier)

lemma replaces_in_place (hw : w.Good s.hasher σ) (hx : σ.Fits (.entity k x)) (hk : ¬ keep x.id)
    (hr : ¬ w.provider.Registered x.id) (hz : x.id ∉ s.frozen) (hact : Prepares s keep k act σ w x.val) :
    Replaces s keep (do let v ← act; settle s k ⟨x.id, v⟩) (.entity k) σ w (.entity k x) := by
  obtain ⟨τ, hrow, hc, ho⟩ := hact
  have wrapped := hrow.wrap (i := .entity k x) (j := .entity k ⟨x.id, (act.run w).1⟩) (u := (act.run w).2) hw hx
    rfl rfl (means_entity ho hrow.value) rfl le_rfl id (.inr ⟨rfl, hk, hr, hz⟩)
  have unused := (hrow.unused (i := .entity k x) hw hx rfl (.inr ⟨rfl, hr⟩)).2
  refine .of_run_eq ?_ wrapped
    (settle_replaces k _ wrapped.good (wrapped.fits _ (List.mem_singleton_self _)) hk unused hc)
  rw [StateT.run_bind]
  rfl

lemma replaces_by_copy (hw : w.Good s.hasher σ) (hx : σ.Fits (.entity k x))
    (hact : Prepares s (fun _ => True) k act σ w x.val) :
    Replaces s keep (do
      let v ← act
      unlessFailed x do
        let id ← fresh
        settle s k ⟨id, v⟩) (.entity k) σ w (.entity k x) := by
  obtain ⟨τ, hrow, hc, ho⟩ := hact
  cases hf : (act.run w).2.failure with
  | some e =>
    refine .of_run (copy_run_failed (by simp [hf])) (hrow.stay hw (by simpa using hx)) ?_
    simp [hf]
  | none =>
    have wrapped := hrow.wrap (i := .entity k x) (j := .entity k ⟨(act.run w).2.next, (act.run w).1⟩)
      (u := { (act.run w).2 with next := (act.run w).2.next + 1 }) hw hx rfl rfl (means_entity ho hrow.value) rfl
      (Nat.le_succ _) id (.inl ⟨le_rfl, Nat.lt_succ_self _⟩)
    -- the label of the copy is new: to keep all that was there is to keep what has a lower label
    refine Replaces.weaken ?_ fun id hid _ => hid
    have unused := (hrow.unused (i := .entity k x) hw hx rfl (.inl le_rfl)).2
    exact .of_run_eq (copy_run hf) (wrapped.weaken fun _ _ _ => trivial)
      (settle_replaces k _ wrapped.good (wrapped.fits _ (List.mem_singleton_self _)) hrow.next.not_gt unused hc)

end Arms

theorem canonicalize_replaces (k : Kind) (held : Held) (x : Handle k.Carrier)
    (prepare : Held → Interning k.Carrier) (hw : w.Good s.hasher σ) (hx : σ.Fits (.entity k x))
    (hheld : ∀ id, keep id → held id = true)
    (hprepare : ∀ keep' held' v, v.Good s.hasher σ → (∀ id, keep' id → held' id = true) →
      Prepares s keep' k (prepare held') σ v x.val) :
    Replaces s keep (canonicalize s k held x prepare) (.entity k) σ w (.entity k x) := by
  cases hf : w.failure with
  | some e => exact replaces_failed hw hx (by simp [hf])
  | none =>
    by_cases hcanonical : w.provider.isCanonical s.hasher held k x = true
    · exact .of_run (canonicalize_run_canonical hf hcanonical) (.refl hw (by simpa using hx) rfl rfl id) fun _ =>
        Provider.entry_of_isCanonical hw.fits hx hcanonical
    by_cases hfrozen : x.id ∈ s.frozen
    · exact .of_run (canonicalize_run_frozen hf hcanonical hfrozen)
        (.refl hw (by simpa using hx) rfl rfl nofun) nofun
    by_cases hshared : (held x.id || w.provider.holds x.id) = true
    · have good := hw.withEvents (w.events ++ [.copying w.provider.number k])
      exact .of_run_eq (canonicalize_run_shared hf hcanonical hfrozen hshared)
        (.refl hw (by simpa using hx) rfl rfl id)
        (replaces_by_copy (prepare Held.everything) good hx (hprepare _ _ _ good fun _ _ => rfl))
    · refine .of_run_eq (canonicalize_run_sole hf hcanonical hfrozen hshared)
        (.refl hw (by simpa using hx) rfl rfl id)
        (replaces_in_place (prepare held) hw hx (fun hk => ?_) (fun hr => ?_) hfrozen (hprepare _ _ _ hw hheld))
      · simp [hheld x.id hk] at hshared
      · simp [Provider.holds_iff.mpr hr] at hshared

theorem sealList_replaces (k : Kind) (l : EntityList k.Carrier) (items : List (Handle k.Carrier))
    (hw : w.Good s.hasher σ) (hfull : items ≠ []) (hitems : ∀ x ∈ items, w.provider.HasEntry k x)
    (value : k.isModel = true → items.map (Handle.bare k.bare) = l.items.map (Handle.bare k.bare)) :
    Replaces s keep (sealList s k items) (.list k) σ w (.list k l) := by
  have means (m : EntityList k.Carrier) (hm : m.items = items) : (Item.list k l).Means (.list k m) := fun hk => by
    simp [EntityList.bare, hm, value hk]
  have element (x : Handle k.Carrier) (hx : x ∈ items) : σ.Fits (.entity k x) :=
    hw.fits _ (.entry (hitems x hx))
  cases hr : w.provider.findList? s.hasher k items with
  | some r =>
    obtain ⟨hmem, ids⟩ := Provider.findList?_some hr
    have recorded : σ.Fits (.list k r.list) := hw.fits _ (.record hmem)
    have same : r.items = items := Store.items_eq (fun x hx => recorded.element hx) element ids
    have canonical : w.provider.hit.Canonical s.hasher (.list k r.list) := .inr ⟨r, hmem, rfl⟩
    exact .of_run (sealList_run_found hr)
      (.exchange ⟨hw.sound.hit, Provider.fits_hit hw.fits, hw.object, hw.list⟩ canonical (means _ same) (.refl σ)
        rfl rfl (Provider.grows_hit _ _) le_rfl id (fun _ hr => .inr hr) (fun _ _ hr => .inl hr) .refl) fun _ => canonical
  | none =>
    have unused : σ.list w.next = none := by
      by_contra hs
      obtain ⟨a, ha⟩ := Option.ne_none_iff_exists'.mp hs
      exact absurd (hw.list _ a ha) (lt_irrefl _)
    have sealed : (σ.putList w.next (k, true, items.map Handle.id)).Fits (.list k ⟨true, w.next, items⟩) := by
      refine Store.fits_iff.mpr ⟨fun _ => by simp [Store.putList], fun p hp => ?_⟩
      obtain ⟨x, hx, rfl⟩ := List.mem_map.mp hp
      exact (element x hx).putList _ unused
    have grown : w.provider.Grows s.hasher (w.provider.recordList s.hasher k w.next items).miss :=
      (Provider.grows_recordList _ _ k w.next items).trans (Provider.grows_miss _ _)
    have canonical := Provider.canonical_recordList s.hasher w.provider k w.next items
    refine .of_run (sealList_run_new hr)
      (.exchange ⟨(hw.sound.recordList hfull hitems hr).miss, Provider.fits_miss (Provider.fits_recordList
        (fun i hi => (hw.fits i hi).putList _ unused) sealed),
        fun id i hi => (hw.object id i hi).trans (Nat.lt_succ_self _),
        fun id a ha => ?_⟩ canonical (means _ rfl) (Store.putList_extends _ unused) rfl rfl grown
        (Nat.le_succ _) id (fun _ hr => .inr hr) (fun j r hr => ?_) .refl) fun _ => canonical
    · by_cases he : id = w.next
      · exact he ▸ Nat.lt_succ_self _
      · simp only [Store.putList, he, if_false] at ha
        exact (hw.list id a ha).trans (Nat.lt_succ_self _)
    · rcases Provider.mem_lists_recordList.mp hr with hr | ⟨rfl, rfl⟩
      · exact .inl hr
      · exact .inr le_rfl

section Elements

variable {k : Kind} {xs ys : List (Handle k.Carrier)}

lemma elements_full (h : List.Forall₂ Item.Means (xs.map (.entity k)) (ys.map (.entity k))) (hn : xs ≠ []) :
    ys ≠ [] := by
  have length := h.length_eq
  simp only [List.length_map] at length
  intro he
  exact hn (List.eq_nil_of_length_eq_zero (by simp [length, he]))

lemma elements_bare (h : List.Forall₂ Item.Means (xs.map (.entity k)) (ys.map (.entity k)))
    (hk : k.isModel = true) : ys.map (Handle.bare k.bare) = xs.map (Handle.bare k.bare) := by
  have bares := bares_of_means h (by simpa using fun x _ => hk)
  have entity : Function.Injective (Item.entity k) := fun x y hxy => by simpa using hxy
  exact entity.list_map (by simpa [Function.comp_def] using bares)

end Elements

theorem canonicalizeList_replaces (k : Kind) (l : EntityList k.Carrier)
    (elements : Interning (List (Handle k.Carrier))) (hw : w.Good s.hasher σ) (hl : σ.Fits (.list k l))
    (helements : ∃ τ, Rewrite s (fun _ => True) σ w (l.items.map (.entity k)) τ (elements.run w).2
        ((elements.run w).1.map (.entity k)) ∧
      ((elements.run w).2.failure = none →
        ∀ y ∈ (elements.run w).1, (elements.run w).2.provider.HasEntry k y)) :
    Replaces s keep (canonicalizeList s k l elements) (.list k) σ w (.list k l) := by
  cases hf : w.failure with
  | some e => exact replaces_failed hw hl (by simp [hf])
  | none =>
    by_cases hdone : l.items = [] ∨ w.provider.isCanonicalList s.hasher k l = true
    · refine .of_run (canonicalizeList_run_done hf hdone) (.refl hw (by simpa using hl) rfl rfl id) fun _ => ?_
      rcases hdone with hn | hc
      · exact .inl hn
      · exact Provider.canonical_of_isCanonicalList hw.sound hw.fits hl hc
    · obtain ⟨τ, hrow, hc⟩ := helements
      have stay : Rewrite s keep σ w [.list k l] τ (elements.run w).2 [.list k l] :=
        hrow.stay hw (by simpa using hl)
      have full := elements_full hrow.value fun hn => hdone (.inl hn)
      have sealed : Replaces s keep (unlessFailed l (sealList s k (elements.run w).1)) (.list k) τ
          (elements.run w).2 (.list k l) :=
        .unlessFailed stay.good (stay.fits _ (List.mem_singleton_self _)) fun hf =>
          sealList_replaces k l _ stay.good full (hc hf) (elements_bare hrow.value)
      exact .of_run_eq (canonicalizeList_run_elements hf hdone) stay sealed

end CodeModel
