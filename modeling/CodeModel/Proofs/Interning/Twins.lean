import CodeModel.Proofs.Interning.Rows
import CodeModel.Proofs.Tables.Twins

/-! Calls on twins take the same turns, one slot after the other, and leave twins. -/

namespace CodeModel

open Interning

structure Work.Twin (h : Hasher) (d : Seeding) (w v : Work) : Prop where
  provider : w.provider.Twin h d v.provider
  next : w.next = v.next
  events : w.events = v.events
  failure : w.failure = v.failure

def Interning.Pairs {α β : Type} (h : Hasher) (d : Seeding) (R : α → β → Prop) (act : Interning α)
    (act' : Interning β) (w v : Work) : Prop :=
  R (act.run w).1 (act'.run v).1 ∧ (act.run w).2.Twin h d (act'.run v).2

lemma Work.Good.withNext {h : Hasher} {σ : Store} {w : Work} (hw : w.Good h σ) {n : Nat} (hn : w.next ≤ n) :
    Work.Good h σ { w with next := n } :=
  ⟨hw.sound, hw.fits, fun id i hi => (hw.object id i hi).trans_le hn, fun id a ha => (hw.list id a ha).trans_le hn⟩

lemma Work.Twin.withNext {h : Hasher} {d : Seeding} {w v : Work} (hwv : w.Twin h d v) {m n : Nat} (hmn : m = n) :
    Work.Twin h d { w with next := m } { v with next := n } :=
  { hwv with next := hmn }

variable {s : Setting} {d : Seeding} {keep : Nat → Prop} {outer : Held} {σ τ : Store} {w v : Work}

section Operations

variable {α β : Type} {R : α → β → Prop} {act : Interning α} {act' : Interning β}

lemma Interning.Pairs.of_run {h : Hasher} {a : α} {b : β} {w' v' : Work} (hw : act.run w = (a, w'))
    (hv : act'.run v = (b, v')) (hab : R a b) (hwv : w'.Twin h d v') : Pairs h d R act act' w v := by
  rw [Pairs, hw, hv]
  exact ⟨hab, hwv⟩

lemma Interning.Pairs.map {h : Hasher} {γ δ : Type} {S : γ → δ → Prop} {f : α → γ} {g : β → δ}
    (hr : Pairs h d R act act' w v) (hfg : ∀ a b, R a b → S (f a) (g b)) : Pairs h d S (f <$> act) (g <$> act') w v :=
  ⟨hfg _ _ hr.1, hr.2⟩

lemma Interning.Pairs.unlessFailed {h : Hasher} {a : α} {b : β} (hwv : w.Twin h d v) (hab : R a b)
    (hopen : w.failure = none → v.failure = none → Pairs h d R (unlessFailed a act) (unlessFailed b act') w v) :
    Pairs h d R (Interning.unlessFailed a act) (Interning.unlessFailed b act') w v := by
  cases hf : w.failure with
  | some e =>
    have hf' : v.failure = some e := hwv.failure ▸ hf
    exact .of_run (unlessFailed_run_failed (by simp [hf])) (unlessFailed_run_failed (by simp [hf'])) hab hwv
  | none => exact hopen hf (hwv.failure ▸ hf)

lemma poolText_pairs {t u : Text} (hwv : w.Twin s.hasher d v) (htu : t.Twin d u) :
    Pairs s.hasher d (Text.Twin d) (poolText s t) (poolText s u) w v := by
  refine .unlessFailed hwv htu fun hf hf' => ?_
  obtain ⟨text, pool⟩ := hwv.provider.pool.adopt htu
  exact .of_run (poolText_run t hf) (poolText_run u hf') text { hwv with provider := hwv.provider.withPool pool }

variable {k : Kind} {x y : Handle k.Carrier}

theorem settle_pairs (hw : w.Good s.hasher σ) (hv : v.Good s.hasher τ) (hwv : w.Twin s.hasher d v)
    (hxy : x.Twin d k y) (hx : w.failure = none → ∀ p ∈ k.parts x.val, w.provider.Canonical s.hasher p)
    (hy : v.failure = none → ∀ p ∈ k.parts y.val, v.provider.Canonical s.hasher p) :
    Pairs s.hasher d (Handle.Twin d k) (settle s k x) (settle s k y) w v := by
  refine .unlessFailed hwv hxy fun hf hf' => ?_
  have found := hwv.provider.find? hw.sound hv.sound hw.fits hv.fits (Item.twin_entity.mp hxy).2 (hx hf) (hy hf')
  rcases rel_cases found with ⟨hn, hn'⟩ | ⟨z, z', hz, hz', twins⟩
  · exact .of_run (settle_run_new hf hn) (settle_run_new hf' hn') hxy
      ⟨(hwv.provider.register hxy).miss, hwv.next, by rw [hwv.events, hwv.provider.number], hwv.failure⟩
  · exact .of_run (settle_run_found hf hz) (settle_run_found hf' hz') twins
      ⟨hwv.provider.hit, hwv.next, by rw [hwv.events, hwv.provider.number], hwv.failure⟩

structure PreparesTwins (s : Setting) (d : Seeding) (keep : Nat → Prop) (k : Kind) (act act' : Interning k.Carrier)
    (σ τ : Store) (w v : Work) (x y : k.Carrier) : Prop where
  left : Prepares s keep k act σ w x
  right : Prepares s keep k act' τ v y
  pairs : Pairs s.hasher d (Kind.Twin d k) act act' w v

section Arms

variable {act act' : Interning k.Carrier}

lemma in_place_pairs (h : PreparesTwins s d keep k act act' σ τ w v x.val y.val) (hid : x.id = y.id) :
    Pairs s.hasher d (Handle.Twin d k) (do let u ← act; settle s k ⟨x.id, u⟩) (do let u ← act'; settle s k ⟨y.id, u⟩)
      w v := by
  obtain ⟨_, hr, hc, -⟩ := h.left
  obtain ⟨_, hr', hc', -⟩ := h.right
  rw [Pairs, StateT.run_bind, StateT.run_bind]
  exact settle_pairs hr.good hr'.good h.pairs.2 (Item.twin_entity.mpr ⟨hid, h.pairs.1⟩) hc hc'

lemma by_copy_pairs (h : PreparesTwins s d keep k act act' σ τ w v x.val y.val) (hxy : x.Twin d k y) :
    Pairs s.hasher d (Handle.Twin d k)
      (do let u ← act
          unlessFailed x do
            let id ← fresh
            settle s k ⟨id, u⟩)
      (do let u ← act'
          unlessFailed y do
            let id ← fresh
            settle s k ⟨id, u⟩) w v := by
  obtain ⟨_, hr, hc, -⟩ := h.left
  obtain ⟨_, hr', hc', -⟩ := h.right
  obtain ⟨values, works⟩ := h.pairs
  rw [Pairs, StateT.run_bind, StateT.run_bind]
  refine Pairs.unlessFailed works hxy fun hf hf' => ?_
  have good := hr.good.withNext (Nat.le_succ _)
  have good' := hr'.good.withNext (Nat.le_succ _)
  have twins := works.withNext (congrArg (· + 1) works.next)
  have settled := settle_pairs good good' twins (x := ⟨_, _⟩) (y := ⟨_, _⟩)
    (Item.twin_entity.mpr ⟨works.next, values⟩) hc hc'
  rw [Pairs, unlessFailed_run hf, unlessFailed_run hf']
  exact settled

end Arms

theorem canonicalize_pairs {held : Held} {prepare prepare' : Held → Interning k.Carrier} (hw : w.Good s.hasher σ)
    (hv : v.Good s.hasher τ) (hx : σ.Fits (.entity k x)) (hy : τ.Fits (.entity k y)) (hwv : w.Twin s.hasher d v)
    (hxy : x.Twin d k y)
    (hprepare : ∀ held' w' v', w'.Good s.hasher σ → v'.Good s.hasher τ → w'.Twin s.hasher d v' →
      PreparesTwins s d (held' · = true) k (prepare held') (prepare' held') σ τ w' v' x.val y.val) :
    Pairs s.hasher d (Handle.Twin d k) (canonicalize s k held x prepare) (canonicalize s k held y prepare') w v := by
  have hid : x.id = y.id := (Item.twin_entity.mp hxy).1
  refine .unlessFailed hwv hxy fun hf hf' => ?_
  change Pairs s.hasher d _ (canonicalize s k held x prepare) (canonicalize s k held y prepare') w v
  have same : w.provider.isCanonical s.hasher held k x = v.provider.isCanonical s.hasher held k y :=
    hwv.provider.isCanonical hw.sound hv.sound hw.fits hv.fits hx hy hid held
  by_cases hcanonical : w.provider.isCanonical s.hasher held k x = true
  · exact .of_run (canonicalize_run_canonical hf hcanonical) (canonicalize_run_canonical hf' (same ▸ hcanonical)) hxy
      hwv
  have open' : v.provider.isCanonical s.hasher held k y ≠ true := same ▸ hcanonical
  by_cases hfrozen : x.id ∈ s.frozen
  · exact .of_run (canonicalize_run_frozen hf hcanonical hfrozen) (canonicalize_run_frozen hf' open' (hid ▸ hfrozen))
      hxy { hwv with failure := rfl }
  have mutable : y.id ∉ s.frozen := hid ▸ hfrozen
  have holds : (held y.id || v.provider.holds y.id) = (held x.id || w.provider.holds x.id) := by
    rw [← hid, hwv.provider.holds]
  by_cases hshared : (held x.id || w.provider.holds x.id) = true
  · have good := hw.withEvents (w.events ++ [.copying w.provider.number k])
    have good' := hv.withEvents (v.events ++ [.copying v.provider.number k])
    have twins : Work.Twin s.hasher d { w with events := w.events ++ [.copying w.provider.number k] }
        { v with events := v.events ++ [.copying v.provider.number k] } :=
      { hwv with events := by rw [hwv.events, hwv.provider.number] }
    rw [Pairs, canonicalize_run_shared hf hcanonical hfrozen hshared,
      canonicalize_run_shared hf' open' mutable (holds ▸ hshared)]
    exact by_copy_pairs (hprepare .everything _ _ good good' twins) hxy
  · rw [Pairs, canonicalize_run_sole hf hcanonical hfrozen hshared,
      canonicalize_run_sole hf' open' mutable (holds ▸ hshared)]
    exact in_place_pairs (hprepare held w v hw hv hwv) hid

lemma sealList_pairs {xs ys : List (Handle k.Carrier)} (hw : w.provider.Sound s.hasher) (hv : v.provider.Sound s.hasher)
    (hwv : w.Twin s.hasher d v) (hxy : List.Forall₂ (Handle.Twin d k) xs ys) :
    Pairs s.hasher d (EntityList.Twin d k) (sealList s k xs) (sealList s k ys) w v := by
  have length : xs.length = ys.length := hxy.length_eq
  rcases rel_cases (hwv.provider.findList? hw hv (Item.ids_of_twins hxy)) with ⟨hn, hn'⟩ | ⟨r, r', hr, hr', twins⟩
  · have new : EntityList.Twin d k ⟨true, w.next, xs⟩ ⟨true, v.next, ys⟩ :=
      Item.twin_list.mpr ⟨rfl, hwv.next, hxy⟩
    have recorded := hwv.provider.recordList w.next hxy
    refine .of_run (sealList_run_new hn) (sealList_run_new hn') new ⟨?_, ?_, ?_, hwv.failure⟩
    · rw [← hwv.next]
      exact recorded.miss
    · rw [hwv.next]
    · rw [hwv.events, hwv.provider.number, length]
  · refine .of_run (sealList_run_found hr) (sealList_run_found hr') twins ⟨hwv.provider.hit, hwv.next, ?_, hwv.failure⟩
    rw [hwv.events, hwv.provider.number, length]

theorem canonicalizeList_pairs {l m : EntityList k.Carrier} {elements elements' : Interning (List (Handle k.Carrier))}
    (hw : w.Good s.hasher σ) (hv : v.Good s.hasher τ) (hwv : w.Twin s.hasher d v) (hlm : l.Twin d k m)
    (helements : Pairs s.hasher d (List.Forall₂ (Handle.Twin d k)) elements elements' w v)
    (sound : (elements.run w).2.provider.Sound s.hasher) (sound' : (elements'.run v).2.provider.Sound s.hasher) :
    Pairs s.hasher d (EntityList.Twin d k) (canonicalizeList s k l elements) (canonicalizeList s k m elements') w
      v := by
  refine .unlessFailed hwv hlm fun hf hf' => ?_
  change Pairs s.hasher d _ (canonicalizeList s k l elements) (canonicalizeList s k m elements') w v
  have empty : l.items = [] ↔ m.items = [] := by
    rw [← List.length_eq_zero_iff, ← List.length_eq_zero_iff, hlm.items.length_eq]
  have same := hwv.provider.isCanonicalList hw.sound hv.sound hlm
  by_cases hdone : l.items = [] ∨ w.provider.isCanonicalList s.hasher k l = true
  · exact .of_run (canonicalizeList_run_done hf hdone)
      (canonicalizeList_run_done hf' (hdone.imp empty.mp fun h => same ▸ h)) hlm hwv
  · have hdone' : ¬ (m.items = [] ∨ v.provider.isCanonicalList s.hasher k m = true) := by
      rwa [← empty, ← same]
    obtain ⟨items, works⟩ := helements
    rw [Pairs, canonicalizeList_run_elements hf hdone, canonicalizeList_run_elements hf' hdone', run_unlessFailed,
      run_unlessFailed, works.failure]
    split
    · exact ⟨hlm, works⟩
    · exact sealList_pairs sound sound' works items

end Operations

section Items

def Paired (s : Setting) (d : Seeding) (i : Item) : Prop := ∀ j held w v σ τ, i.Twin d j → w.Good s.hasher σ →
  v.Good s.hasher τ → σ.Fits i → τ.Fits j → w.Twin s.hasher d v →
    Pairs s.hasher d (Item.Twin d) (i.intern s held) (j.intern s held) w v

theorem row_pairs {is is' done done' rest rest' : List Item} {w₀ v₀ : Work} (hk : ∀ id, keep id → outer id = true)
    (h : ∀ i ∈ rest, Paired s d i) (hn : ∀ i ∈ rest, ∀ x, i ≠ .definition x)
    (hrow : Row s keep σ w₀ is done rest w) (hrow' : Row s keep τ v₀ is' done' rest' v)
    (hdone : List.Forall₂ (Item.Twin d) done done') (hrest : List.Forall₂ (Item.Twin d) rest rest')
    (hwv : w.Twin s.hasher d v) :
    Pairs s.hasher d (List.Forall₂ (Item.Twin d)) (internRow s outer done rest) (internRow s outer done' rest') w
      v := by
  induction rest generalizing done done' rest' w v with
  | nil =>
    cases hrest
    exact ⟨hdone, hwv⟩
  | cons i rest ih =>
    simp only [List.mem_cons, forall_eq_or_imp] at h hn
    cases hrest with
    | @cons _ j _ rest' hij hrest =>
      -- the slots beside the two mark the same labels, so both calls have the same holders
      have held : markAll (done ++ rest) = markAll (done' ++ rest') := Item.markAll_twins (List.rel_append hdone hrest)
      have hj : ∀ x, j ≠ .definition x := by
        rintro x rfl
        cases hij
        exact hn.1 _ rfl
      obtain ⟨_, hr, -⟩ := id hrow
      obtain ⟨_, hr', -⟩ := id hrow'
      have slot := h.1 j (outer.and (markAll (done ++ rest))) w v _ _ hij hr.good hr'.good (hr.fits i (by simp))
        (hr'.fits j (by simp)) hwv
      have next := slot_sends hk hn.1 w hrow
      have next' := slot_sends hk hj v hrow'
      rw [← held] at next'
      rw [Pairs, internRow_run, internRow_run, ← held]
      exact ih h.2 hn.2 next next' (List.rel_append hdone (.cons slot.1 .nil)) hrest slot.2

section Rows

variable {is js : List Item}

lemma whole_row_pairs (outer : Held) (h : ∀ i ∈ is, Paired s d i) (hn : ∀ i ∈ is, ∀ x, i ≠ .definition x)
    (hij : List.Forall₂ (Item.Twin d) is js) (hw : w.Good s.hasher σ) (hv : v.Good s.hasher τ)
    (hi : ∀ i ∈ is, σ.Fits i) (hj : ∀ j ∈ js, τ.Fits j) (hwv : w.Twin s.hasher d v) :
    Pairs s.hasher d (List.Forall₂ (Item.Twin d)) (internRow s outer [] is) (internRow s outer [] js) w v :=
  row_pairs (fun _ (h : outer _ = true) => h) h hn (row_start hw hi) (row_start hv hj) .nil hij hwv

lemma prepare_pairs {k : Kind} {x y : k.Carrier} (held : Held) (h : ∀ i ∈ k.parts x, Paired s d i)
    (hn : ∀ i ∈ k.parts x, ∀ e, i ≠ .definition e) (hxy : k.Twin d x y) (hw : w.Good s.hasher σ)
    (hv : v.Good s.hasher τ) (hx : ∀ i ∈ k.parts x, σ.Fits i) (hy : ∀ i ∈ k.parts y, τ.Fits i)
    (hwv : w.Twin s.hasher d v) :
    PreparesTwins s d (held · = true) k (k.prepare s held x) (k.prepare s held y) σ τ w v x y := by
  have left := prepare_prepares k x (fun i _ => replaceable s i) (fun id (h : held id = true) => h) hw hx
  have right := prepare_prepares k y (fun i _ => replaceable s i) (fun id (h : held id = true) => h) hv hy
  obtain ⟨parts, works⟩ := whole_row_pairs held h hn hxy.2 hw hv hx hy hwv
  rw [prepare_row k x held hw hx, prepare_row k y held hv hy] at parts works
  obtain ⟨-, -, -, outline⟩ := id left
  obtain ⟨-, -, -, outline'⟩ := id right
  exact ⟨left, right, ⟨outline.trans (hxy.1.trans outline'.symm), parts⟩, works⟩

lemma elements_pairs {k : Kind} {xs ys : List (Handle k.Carrier)} (h : ∀ x ∈ xs, Paired s d (.entity k x))
    (hxy : List.Forall₂ (Handle.Twin d k) xs ys) (hw : w.Good s.hasher σ) (hv : v.Good s.hasher τ)
    (hx : ∀ x ∈ xs, σ.Fits (.entity k x)) (hy : ∀ y ∈ ys, τ.Fits (.entity k y)) (hwv : w.Twin s.hasher d v) :
    Pairs s.hasher d (List.Forall₂ (Handle.Twin d k)) (xs.mapM (k.intern s .everything))
      (ys.mapM (k.intern s .everything)) w v := by
  have fits : ∀ i ∈ xs.map (Item.entity k), σ.Fits i := by simpa using hx
  have fits' : ∀ i ∈ ys.map (Item.entity k), τ.Fits i := by simpa using hy
  have twins : List.Forall₂ (Item.Twin d) (xs.map (.entity k)) (ys.map (.entity k)) := by simpa using hxy
  obtain ⟨items, works⟩ := whole_row_pairs .everything (by simpa using h) (by simp) twins hw hv fits fits' hwv
  rw [elements_row xs hw fits, elements_row ys hv fits'] at items works
  exact ⟨by simpa using items, works⟩

end Rows

lemma internMembers_pairs {x y : Handle Definition} (h : ∀ i ∈ x.val.parts, Paired s d i) (hxy : x.val.Twin d y.val)
    (hid : x.id = y.id) (hw : w.Good s.hasher σ) (hv : v.Good s.hasher τ) (hx : ∀ i ∈ x.val.parts, σ.Fits i)
    (hy : ∀ i ∈ y.val.parts, τ.Fits i) (hwv : w.Twin s.hasher d v) :
    Pairs s.hasher d (fun a b => Item.Twin d (.definition a) (.definition b)) (Definition.internMembers s x)
      (Definition.internMembers s y) w v := by
  by_cases hfrozen : x.id ∈ s.frozen
  · exact .of_run (internMembers_run_frozen hfrozen) (internMembers_run_frozen (hid ▸ hfrozen))
      (Item.twin_definition.mpr ⟨hid, hxy⟩) { hwv with failure := rfl }
  obtain ⟨parts, works⟩ := whole_row_pairs .everything h
    (fun i hi => Item.part_ne_definition (i := .definition x) hi) hxy.2 hw hv hx hy hwv
  rw [internParts_row x.val hw hx, internParts_row y.val hv hy] at parts works
  have outline := internParts_outline s x.val hw hx
  have outline' := internParts_outline s y.val hv hy
  have twins : ((x.val.internParts s).run w).1.Twin d ((y.val.internParts s).run v).1 :=
    ⟨outline.trans (hxy.1.trans outline'.symm), parts⟩
  have members : Item.Twin d (.definition ⟨x.id, ((x.val.internParts s).run w).1⟩)
      (.definition ⟨y.id, ((y.val.internParts s).run v).1⟩) := Item.twin_definition.mpr ⟨hid, twins⟩
  rw [Pairs, internMembers_run hfrozen, internMembers_run (hid ▸ hfrozen), run_unlessFailed, run_unlessFailed,
    works.failure]
  split
  · exact ⟨members, works⟩
  · have name := twins.fullName
    have length := (Definition.twin_iff.mp twins).2.2.2.2.2.1.length
    have event : Event.interned ((x.val.internParts s).run w).2.provider.number ((x.val.internParts s).run w).1.fullName
        ((x.val.internParts s).run w).1.methods.length =
          .interned ((y.val.internParts s).run v).2.provider.number ((y.val.internParts s).run v).1.fullName
            ((y.val.internParts s).run v).1.methods.length := by
      rw [works.provider.number, name, length]
    exact ⟨members, { works with events := congrArg₂ (fun es e => es ++ [e]) works.events event }⟩

theorem entity_paired {k : Kind} {x : Handle k.Carrier} (h : ∀ i ∈ k.parts x.val, Paired s d i) :
    Paired s d (.entity k x) := by
  intro j held w v σ τ hij hw hv hx hy hwv
  cases hij with
  | @entity _ _ y hid ho hp =>
    have hxy : x.Twin d k y := .entity hid ho hp
    have prepared (held : Held) (w v : Work) (hw : w.Good s.hasher σ) (hv : v.Good s.hasher τ)
        (hwv : w.Twin s.hasher d v) : PreparesTwins s d (held · = true) k (k.prepare s held x.val)
          (k.prepare s held y.val) σ τ w v x.val y.val :=
      prepare_pairs held h (fun i hi => Item.part_ne_definition (i := .entity k x) hi) ⟨ho, hp⟩ hw hv
        (fun _ => hx.part) (fun _ => hy.part) hwv
    exact (canonicalize_pairs hw hv hx hy hwv hxy prepared).map fun _ _ h => h

theorem list_paired {k : Kind} {l : EntityList k.Carrier} (h : ∀ x ∈ l.items, Paired s d (.entity k x)) :
    Paired s d (.list k l) := by
  intro j held w v σ τ hij hw hv hl hm hwv
  cases hij with
  | @list _ _ m hs hn hi =>
    have hlm : l.Twin d k m := .list hs hn hi
    have elements := elements_pairs h hlm.items hw hv (fun _ => hl.element) (fun _ => hm.element) hwv
    obtain ⟨τ₁, row, -⟩ := sends_elements (row_passes fun _ (_ : True) => rfl) l.items
      (fun x _ => replaceable s (.entity k x)) w (row_start hw fun _ => hl.part)
    obtain ⟨τ₂, row', -⟩ := sends_elements (row_passes fun _ (_ : True) => rfl) m.items
      (fun x _ => replaceable s (.entity k x)) v (row_start hv fun _ => hm.part)
    exact (canonicalizeList_pairs hw hv hwv hlm elements row.good.sound row'.good.sound).map fun _ _ h => h

theorem definition_paired {x : Handle Definition} (h : ∀ i ∈ x.val.parts, Paired s d i) :
    Paired s d (.definition x) := by
  intro j held w v σ τ hij hw hv hx hy hwv
  cases hij with
  | @definition _ y hid ho hp =>
    exact (internMembers_pairs h ⟨ho, hp⟩ hid hw hv (fun _ => hx.part) (fun _ => hy.part) hwv).map fun _ _ h => h

theorem paired (s : Setting) (d : Seeding) (i : Item) : Paired s d i := by
  induction i using Item.induction with
  | step i ih =>
    cases i with
    | nothing =>
      intro j held w v σ τ hij hw hv hi hj hwv
      cases hij
      exact ⟨.nothing, hwv⟩
    | text t =>
      intro j held w v σ τ hij hw hv hi hj hwv
      cases hij with
      | text htu => exact (poolText_pairs hwv htu).map fun _ _ => .text
    | entity k x => exact entity_paired ih
    | list k l => exact list_paired (by simpa using ih)
    | definition x => exact definition_paired ih

lemma prepareInPlace_pairs {k : Kind} {x y : Handle k.Carrier} (held : Held) (hxy : x.Twin d k y)
    (hw : w.Good s.hasher σ) (hv : v.Good s.hasher τ) (hx : σ.Fits (.entity k x)) (hy : τ.Fits (.entity k y))
    (hwv : w.Twin s.hasher d v) :
    Pairs s.hasher d (Handle.Twin d k) (k.prepareInPlace s held x) (k.prepareInPlace s held y) w v := by
  obtain ⟨hid, values⟩ := Item.twin_entity.mp hxy
  by_cases hfrozen : x.id ∈ s.frozen
  · exact .of_run (prepareInPlace_run_frozen hfrozen) (prepareInPlace_run_frozen (hid ▸ hfrozen)) hxy
      { hwv with failure := rfl }
  · obtain ⟨prepared, works⟩ := (prepare_pairs held (fun i _ => paired s d i)
      (fun i hi => Item.part_ne_definition (i := .entity k x) hi) values hw hv (fun _ => hx.part) (fun _ => hy.part)
      hwv).pairs
    exact .of_run (prepareInPlace_run hfrozen) (prepareInPlace_run (hid ▸ hfrozen))
      (Item.twin_entity.mpr ⟨hid, prepared⟩) works

end Items

end CodeModel
