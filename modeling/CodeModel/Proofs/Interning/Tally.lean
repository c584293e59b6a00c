import CodeModel.Proofs.Interning.Inventory
import CodeModel.Proofs.Interning.Whole
import CodeModel.Proofs.Tables.Stock

/-! An entity that is sole-held and prepared in place counts as one that is shared and copied. -/

namespace CodeModel

open Interning

variable {s : Setting} {keep : Nat → Prop} {σ τ : Store} {w v : Work} {settled : Item → Prop} {i j : Item}

def Work.inventory (h : Hasher) (w : Work) : Inventory := ⟨w.provider.stock h, w.provider.stats, w.failure⟩

def Counts (s : Setting) (settled : Item → Prop) (w : Work) (i : Item) (v : Work) : Prop :=
  ∀ rest K, Tallies settled (·.FrozenIn s.frozen) rest (v.inventory s.hasher) K →
    Tallies settled (·.FrozenIn s.frozen) (i :: rest) (w.inventory s.hasher) K

def Agrees (settled : Item → Prop) (p : Provider) (i : Item) : Prop :=
  ∀ a, Item.Within a i → (p.Settled a ↔ settled a)

lemma Agrees.part {p : Provider} (h : Agrees settled p i) (hj : j ∈ i.parts) : Agrees settled p j :=
  fun a ha => h a (.part hj ha)

theorem Rewrite.settled_iff {is js : List Item} (h : Rewrite s keep σ w is τ v js) (hw : w.Good s.hasher σ)
    (hi : σ.Fits i) (hk : ∀ id, i.Labels id → keep id) : v.provider.Settled i ↔ w.provider.Settled i := by
  refine ⟨fun hs => ?_, .mono h.grows⟩
  cases i with
  | entity k x =>
    have bound := hw.object _ _ hi.knows
    rcases h.registered x.id ⟨k, x, hs, rfl⟩ with ⟨-, hn⟩ | ⟨k', x', hx', hid⟩ | hn
    · exact absurd (hk _ (Item.labels_iff.mpr (.inl rfl))) hn
    · have known := (hw.fits _ (.entry hx')).knows
      rw [Store.Knows, hid, hi.knows, Option.some.injEq, Item.entity.injEq] at known
      obtain ⟨rfl, hx⟩ := known
      rwa [eq_of_heq hx]
    · exact absurd bound hn.not_gt
  | list k l =>
    rcases hs with hl | ⟨r, hr, rfl⟩
    · exact .inl hl
    · rcases h.recorded k r hr with hr | hn
      · exact .inr ⟨r, hr, rfl⟩
      · exact absurd (hw.list _ _ (hi.knows (h.good.sound.recordFull k r hr))) hn.not_gt
  | _ => exact hs.elim

lemma Rewrite.agrees {is js : List Item} (h : Rewrite s keep σ w is τ v js) (hw : w.Good s.hasher σ)
    (hi : σ.Fits i) (hk : ∀ id, i.Labels id → keep id) (ha : Agrees settled w.provider i) :
    Agrees settled v.provider i := fun a hai =>
  (h.settled_iff hw (hi.within hai) fun id ⟨b, hb, hl⟩ => hk id ⟨b, hb.trans hai, hl⟩).trans (ha a hai)

section Counting

lemma counts_failed (hf : w.failure.isSome = true) : Counts s settled w i w := by
  intro rest K h
  rw [h.of_failed hf]
  exact .failed hf

lemma counts_guarded {α : Type} {a : α} {act next : Interning α} (hact : act = unlessFailed a next)
    (h : w.failure = none → Counts s settled w i (act.run w).2) : Counts s settled w i (act.run w).2 := by
  cases hf : w.failure with
  | some e =>
    rw [hact, unlessFailed_run_failed (by simp [hf])]
    exact counts_failed (by simp [hf])
  | none => exact h hf

lemma counts_frozen (hf : w.failure = none) (hs : ¬ settled i) (hz : i.FrozenIn s.frozen) :
    Counts s settled w i { w with failure := some (.preparedAfterFreeze i.kindName) } := by
  intro rest K h
  rw [h.of_failed rfl]
  exact .frozen hf hs hz

lemma counts_settled (hf : w.failure = none) (hs : settled i) : Counts s settled w i w :=
  fun _ _ h => .settled hf hs h

lemma counts_visit {u : Work} (hf : w.failure = none) (hs : ¬ settled i) (hz : ¬ i.FrozenIn s.frozen)
    (hp : Tallies settled (·.FrozenIn s.frozen) i.parts (w.inventory s.hasher) (u.inventory s.hasher))
    (hv : v.inventory s.hasher = (u.inventory s.hasher).visit i.bare) : Counts s settled w i v :=
  fun _ _ h => .visit hf hs hz hp (hv ▸ h)

lemma not_frozenIn_text (t : Text) (z : Frozen) : ¬ (Item.text t).FrozenIn z := by
  simp [Item.FrozenIn, Item.label?]

lemma not_frozenIn_list {k : Kind} (l : EntityList k.Carrier) (z : Frozen) : ¬ (Item.list k l).FrozenIn z := by
  simp [Item.FrozenIn, Item.label?]

lemma frozenIn_entity {k : Kind} {x : Handle k.Carrier} {z : Frozen} :
    (Item.entity k x).FrozenIn z ↔ x.id ∈ z := by
  simp [Item.FrozenIn, Item.label?]

section Settling

variable {q : Provider} {h : Hasher} {z : Frozen} {a : Item}

lemma Provider.Settled.of_canonical (ha : q.Canonical h a) (hz : a.FrozenIn z) : q.Settled a := by
  cases a with
  | entity | list => exact ha
  | text t => exact absurd hz (not_frozenIn_text t z)
  | nothing => simp [Item.FrozenIn, Item.label?] at hz
  | definition => exact ha.elim

lemma Provider.Sound.settled_within (hq : q.Sound h) (hi : q.Settled i) (ha : Item.Within a i) (hz : a.FrozenIn z) :
    q.Settled a :=
  .of_canonical (hq.canonical_within hi.canonical ha) hz

end Settling

lemma counts_nothing (hs : ¬ settled .nothing) : Counts s settled w .nothing w := by
  cases hf : w.failure with
  | some e => exact counts_failed (by simp [hf])
  | none =>
    have stocked : Item.nothing.bare ∈ (w.inventory s.hasher).stock := ⟨.nothing, trivial, rfl⟩
    refine counts_visit hf hs (by simp [Item.FrozenIn, Item.label?]) (.nil _) ?_
    rw [Inventory.visit_known hf stocked (by simp)]
    rfl

theorem poolText_counts (t : Text) (hs : ¬ settled (.text t)) :
    Counts s settled w (.text t) ((poolText s t).run w).2 := by
  refine counts_guarded rfl fun hf => ?_
  rw [poolText_run t hf]
  refine counts_visit hf hs (not_frozenIn_text t _) (.nil _) ?_
  cases hp : w.provider.pool.find? s.hasher t.val with
  | none =>
    rw [Inventory.visit_new hf (Provider.pool_find?_eq_none_iff.mp hp) (by simp)]
    have stock := Provider.stock_insert (h := s.hasher) fun _ => Provider.canonical_adopt hp
    have size := TextPool.size_adopt_new s.hasher hp
    simp [Work.inventory, stock, Provider.stats, size, Stats.enter]
  | some u =>
    rw [TextPool.adopt_old s.hasher hp, Inventory.visit_found hf Provider.pool_find?_eq_none_iff hp (by simp)]
    rfl

variable {k : Kind}

theorem settle_inventory {x : Handle k.Carrier} (hk : k.isModel = true) (hw : w.Good s.hasher σ)
    (hx : σ.Fits (.entity k x)) (hp : w.failure = none → ∀ p ∈ k.parts x.val, w.provider.Canonical s.hasher p) :
    ((settle s k x).run w).2.inventory s.hasher =
      (w.inventory s.hasher).visit (Item.entity k x).bare := by
  cases hf : w.failure with
  | some e =>
    have failed : w.failure.isSome = true := by simp [hf]
    rw [settle, unlessFailed_run_failed failed, Inventory.visit_failed failed]
  | none =>
    have look := hw.sound.find?_eq_none_iff hw.fits hk hx (hp hf)
    cases hy : w.provider.find? s.hasher k x.val with
    | none =>
      rw [settle_run_new hf hy, Inventory.visit_new hf (look.mp hy) (by simp)]
      have stock := Provider.stock_insert (p := w.provider) (h := s.hasher) (j := .entity k x)
        fun _ => Provider.canonical_register
      simp only [Work.inventory, Inventory.mk.injEq]
      exact ⟨stock, rfl, trivial⟩
    | some y =>
      rw [settle_run_found hf hy, Inventory.visit_found hf look hy (by simp)]
      rfl

theorem sealList_inventory {l : EntityList k.Carrier} (hk : k.isModel = true) (hw : w.Good s.hasher σ)
    (hf : w.failure = none) (hl : l.items ≠ []) (hc : ∀ x ∈ l.items, w.provider.HasEntry k x) :
    ((sealList s k l.items).run w).2.inventory s.hasher =
      (w.inventory s.hasher).visit (Item.list k l).bare := by
  have look := hw.sound.findList?_eq_none_iff hw.fits hk hl hc
  cases hr : w.provider.findList? s.hasher k l.items with
  | none =>
    rw [sealList_run_new hr, Inventory.visit_new hf (look.mp hr) (by simp)]
    have stock := Provider.stock_insert (p := w.provider) (h := s.hasher)
      (j := .list k ⟨true, w.next, l.items⟩) fun _ => Provider.canonical_recordList_iff
    simp only [Work.inventory, Inventory.mk.injEq]
    exact ⟨stock, rfl, trivial⟩
  | some r =>
    rw [sealList_run_found hr, Inventory.visit_found hf look hr (by simp)]
    rfl

end Counting

section Slots

variable {k : Kind}

structure PreparesCounting (s : Setting) (settled : Item → Prop) (keep : Nat → Prop) (k : Kind)
    (act : Interning k.Carrier) (σ : Store) (w : Work) (v : k.Carrier) : Prop where
  prepares : Prepares s keep k act σ w v
  tallies : Tallies settled (·.FrozenIn s.frozen) (k.parts v) (w.inventory s.hasher)
    ((act.run w).2.inventory s.hasher)

variable {x : Handle k.Carrier} {act : Interning k.Carrier}

lemma counts_in_place (hk : k.isModel = true) (hw : w.Good s.hasher σ) (hx : σ.Fits (.entity k x))
    (hf : w.failure = none) (hs : ¬ settled (.entity k x)) (hz : x.id ∉ s.frozen)
    (hkeep : ¬ keep x.id) (hr : ¬ w.provider.Registered x.id)
    (hact : PreparesCounting s settled keep k act σ w x.val) :
    Counts s settled w (.entity k x) ((do let v ← act; settle s k ⟨x.id, v⟩ : Interning _).run w).2 := by
  obtain ⟨⟨τ, hrow, hc, ho⟩, tallies⟩ := hact
  have means := means_entity (a := x.id) (b := x.id) ho hrow.value
  have wrapped := hrow.wrap (i := .entity k x) (j := .entity k ⟨x.id, (act.run w).1⟩) (u := (act.run w).2) hw hx
    rfl rfl means rfl le_rfl id (.inr ⟨rfl, hkeep, hr, hz⟩)
  refine counts_visit hf hs (frozenIn_entity.not.mpr hz) tallies ?_
  rw [← means hk]
  exact settle_inventory hk wrapped.good (wrapped.fits _ (List.mem_singleton_self _)) hc

lemma counts_by_copy (hk : k.isModel = true) (hw : w.Good s.hasher σ) (hx : σ.Fits (.entity k x))
    (hf : w.failure = none) (hs : ¬ settled (.entity k x)) (hz : x.id ∉ s.frozen)
    (hact : PreparesCounting s settled (fun _ => True) k act σ w x.val) :
    Counts s settled w (.entity k x) ((do
      let v ← act
      unlessFailed x do
        let id ← fresh
        settle s k ⟨id, v⟩ : Interning _).run w).2 := by
  obtain ⟨⟨τ, hrow, hc, ho⟩, tallies⟩ := hact
  refine counts_visit hf hs (frozenIn_entity.not.mpr hz) tallies ?_
  cases he : (act.run w).2.failure with
  | some e =>
    have failed : (act.run w).2.failure.isSome = true := by simp [he]
    rw [copy_run_failed failed, Inventory.visit_failed failed]
  | none =>
    have means := means_entity (a := x.id) (b := (act.run w).2.next) ho hrow.value
    have wrapped := hrow.wrap (i := .entity k x) (j := .entity k ⟨(act.run w).2.next, (act.run w).1⟩)
      (u := { (act.run w).2 with next := (act.run w).2.next + 1 }) hw hx rfl rfl means rfl
      (Nat.le_succ _) id (.inl ⟨le_rfl, Nat.lt_succ_self _⟩)
    rw [copy_run he, ← means hk]
    exact settle_inventory hk wrapped.good (wrapped.fits _ (List.mem_singleton_self _)) hc

theorem canonicalize_counts (held : Held) (prepare : Held → Interning k.Carrier) (hk : k.isModel = true)
    (hw : w.Good s.hasher σ) (hx : σ.Fits (.entity k x)) (hheld : ∀ id, keep id → held id = true)
    (ha : Agrees settled w.provider (.entity k x))
    (hprepare : ∀ keep' held' v, v.Good s.hasher σ → v.provider = w.provider →
      (∀ id, keep' id → held' id = true) →
      PreparesCounting s settled keep' k (prepare held') σ v x.val) :
    Counts s settled w (.entity k x) ((canonicalize s k held x prepare).run w).2 := by
  have agree : w.provider.HasEntry k x ↔ settled (.entity k x) := ha _ (.refl _)
  refine counts_guarded rfl fun hf => ?_
  by_cases hcanonical : w.provider.isCanonical s.hasher held k x = true
  · rw [canonicalize_run_canonical hf hcanonical]
    exact counts_settled hf (agree.mp (Provider.entry_of_isCanonical hw.fits hx hcanonical))
  have open' : ¬ settled (.entity k x) := fun hs => hcanonical (hw.sound.isCanonical held (agree.mpr hs))
  by_cases hfrozen : x.id ∈ s.frozen
  · rw [canonicalize_run_frozen hf hcanonical hfrozen]
    exact counts_frozen hf open' (frozenIn_entity.mpr hfrozen)
  by_cases hshared : (held x.id || w.provider.holds x.id) = true
  · have good := hw.withEvents (w.events ++ [.copying w.provider.number k])
    rw [canonicalize_run_shared hf hcanonical hfrozen hshared]
    have copied := counts_by_copy hk good hx hf open' hfrozen (hprepare _ _ _ good rfl fun _ _ => rfl)
    exact copied
  · rw [canonicalize_run_sole hf hcanonical hfrozen hshared]
    refine counts_in_place hk hw hx hf open' hfrozen (fun hk => ?_) (fun hr => ?_) (hprepare _ _ _ hw rfl hheld)
    · simp [hheld x.id hk] at hshared
    · simp [Provider.holds_iff.mpr hr] at hshared

theorem canonicalizeList_counts {l : EntityList k.Carrier} {elements : Interning (List (Handle k.Carrier))}
    (hk : k.isModel = true) (hw : w.Good s.hasher σ) (hl : σ.Fits (.list k l))
    (ha : Agrees settled w.provider (.list k l))
    (helements : ∃ τ, Rewrite s (fun _ => True) σ w (l.items.map (.entity k)) τ (elements.run w).2
        ((elements.run w).1.map (.entity k)) ∧
      ((elements.run w).2.failure = none →
        ∀ y ∈ (elements.run w).1, (elements.run w).2.provider.HasEntry k y))
    (tallies : Tallies settled (·.FrozenIn s.frozen) (l.items.map (.entity k)) (w.inventory s.hasher)
      ((elements.run w).2.inventory s.hasher)) :
    Counts s settled w (.list k l) ((canonicalizeList s k l elements).run w).2 := by
  have agree : (l.items = [] ∨ ∃ r ∈ w.provider.lists k, r.list = l) ↔ settled (.list k l) := ha _ (.refl _)
  refine counts_guarded rfl fun hf => ?_
  by_cases hdone : l.items = [] ∨ w.provider.isCanonicalList s.hasher k l = true
  · rw [canonicalizeList_run_done hf hdone]
    refine counts_settled hf (agree.mp ?_)
    rcases hdone with hn | hc
    · exact .inl hn
    · exact Provider.canonical_of_isCanonicalList hw.sound hw.fits hl hc
  have open' : ¬ settled (.list k l) := fun hs => hdone (hw.sound.passes_list (agree.mpr hs))
  obtain ⟨τ, hrow, hc⟩ := helements
  rw [canonicalizeList_run_elements hf hdone]
  refine counts_visit hf open' (not_frozenIn_list l _) tallies ?_
  cases he : (elements.run w).2.failure with
  | some e =>
    have failed : (elements.run w).2.failure.isSome = true := by simp [he]
    rw [unlessFailed_run_failed failed, Inventory.visit_failed failed]
  | none =>
    have full := elements_full hrow.value fun hn => hdone (.inl hn)
    have value : (Item.list k l).bare = (Item.list k ⟨true, 0, (elements.run w).1⟩).bare := by
      simp [EntityList.bare, elements_bare hrow.value hk]
    rw [unlessFailed_run he, value]
    exact sealList_inventory (l := ⟨true, 0, (elements.run w).1⟩) hk hrow.good he full (hc he)

end Slots

structure Ledger (s : Setting) (settled : Item → Prop) (keep : Nat → Prop) (σ : Store) (w : Work)
    (is done rest : List Item) (v : Work) : Prop where
  row : Row s keep σ w is done rest v
  agrees : ∀ p ∈ rest, Agrees settled v.provider p
  counts : ∀ K, Tallies settled (·.FrozenIn s.frozen) rest (v.inventory s.hasher) K →
    Tallies settled (·.FrozenIn s.frozen) is (w.inventory s.hasher) K

def Counted (s : Setting) (settled : Item → Prop) : Item → Prop
  | .entity k x => ∀ (keep : Nat → Prop) held σ w, w.Good s.hasher σ → σ.Fits (.entity k x) →
      (∀ id, keep id → held id = true) → Agrees settled w.provider (.entity k x) →
      Counts s settled w (.entity k x) ((k.intern s held x).run w).2
  | .list k l => ∀ σ w, w.Good s.hasher σ → σ.Fits (.list k l) → Agrees settled w.provider (.list k l) →
      Counts s settled w (.list k l) ((k.internList s l).run w).2
  | _ => True

section Rows

variable {is done rest : List Item}

lemma ledger_start (hw : w.Good s.hasher σ) (hf : ∀ i ∈ is, σ.Fits i)
    (ha : ∀ i ∈ is, Agrees settled w.provider i) : Ledger s settled keep σ w is [] is w :=
  ⟨row_start hw hf, ha, fun _ => id⟩

theorem ledger_slot {α : Type} {act : Interning α} {item : α → Item}
    (hreplaces : ∀ τ v, v.Good s.hasher τ → (∀ p ∈ done ++ rest, τ.Fits p) → τ.Fits i →
      Replaces s (fun id => keep id ∨ LabelsAny (done ++ rest) id) act item τ v i)
    (hcounts : ∀ τ v, v.Good s.hasher τ → (∀ p ∈ done ++ rest, τ.Fits p) → τ.Fits i →
      Agrees settled v.provider i → Counts s settled v i (act.run v).2) :
    act.Sends (Ledger s settled keep σ w is done (i :: rest))
      (fun a => Ledger s settled keep σ w is (done ++ [item a]) rest) := by
  rintro v ⟨hrow, hagrees, hledger⟩
  obtain ⟨τ, hr, -⟩ := id hrow
  have beside (p : Item) (hp : p ∈ done ++ rest) : τ.Fits p := hr.fits p (by grind)
  have slot : τ.Fits i := hr.fits i (by simp)
  obtain ⟨υ, hslot, -⟩ := hreplaces τ v hr.good beside slot
  refine ⟨sends_slot hreplaces v hrow, fun p hp => ?_, fun K hK => hledger K ?_⟩
  · have later := List.mem_append_right done hp
    exact hslot.agrees hr.good (beside p later) (fun id hl => .inr ⟨p, later, hl⟩)
      (hagrees p (List.mem_cons_of_mem _ hp))
  · exact hcounts τ v hr.good beside slot (hagrees i List.mem_cons_self) rest K hK

lemma ledger_passes {outer : Held} (hk : ∀ id, keep id → outer id = true) :
    Passes s outer (Counted s settled) (Ledger s settled keep σ w is) where
  nothing h := ⟨h.row.nothing, fun p hp => h.agrees p (List.mem_cons_of_mem _ hp), fun K hK =>
    h.counts K (counts_nothing ((h.agrees _ List.mem_cons_self _ (.refl _)).not.mp id) _ K hK)⟩
  text t := ledger_slot (fun _ _ hv _ ht => poolText_replaces t hv ht) fun _ _ _ _ _ ha =>
    poolText_counts t ((ha _ (.refl _)).not.mp id)
  list hl := ledger_slot (fun _ _ hv _ hf => internList_replaces _ _ hv hf) fun τ v hv _ hf ha => hl τ v hv hf ha
  entity hx hheld := ledger_slot
    (fun τ _ hv hp hf => intern_replaces _ _ _ hv hf fun id hid => (hheld τ hp id).mpr (hid.imp_left (hk id)))
    fun τ v hv hp hf ha => hx _ _ τ v hv hf (fun id hid => (hheld τ hp id).mpr (Or.imp_left (hk id) hid)) ha

end Rows

variable {k : Kind}

lemma counted_list {l : EntityList k.Carrier} (hk : k.isModel = true)
    (h : ∀ x ∈ l.items, Counted s settled (.entity k x)) : Counted s settled (.list k l) := by
  intro σ w hw hl ha
  obtain ⟨⟨τ, hr, hc⟩, -, tallies⟩ := sends_elements (ledger_passes fun _ _ => rfl) l.items h w
    (ledger_start hw (fun _ => hl.part) fun _ => ha.part)
  refine canonicalizeList_counts hk hw hl ha ⟨τ, by simpa using hr, fun hf y hy => ?_⟩ (tallies _ (.nil _))
  exact hc hf (.entity k y) (List.mem_map_of_mem hy)

lemma prepare_counts {x : k.Carrier} (h : ∀ i ∈ k.parts x, Counted s settled i) {held : Held}
    (hheld : ∀ id, keep id → held id = true) (hw : w.Good s.hasher σ) (hf : ∀ i ∈ k.parts x, σ.Fits i)
    (ha : ∀ i ∈ k.parts x, Agrees settled w.provider i) :
    PreparesCounting s settled keep k (k.prepare s held x) σ w x where
  prepares := prepare_prepares k x (fun i _ => replaceable s i) hheld hw hf
  tallies := (prepare_sends (ledger_passes hheld) k x h w (ledger_start hw hf ha)).1.counts _ (.nil _)

theorem counted (s : Setting) (settled : Item → Prop) (i : Item) (hm : i.IsModel) : Counted s settled i := by
  induction i using Item.induction with
  | step i ih =>
    -- each slot of the row counts by itself; that the slots do not disturb each other is in the ledger
    have parts (j : Item) (hj : j ∈ i.parts) : Counted s settled j := ih j hj (hm.parts j hj)
    cases i with
    | nothing | text | definition => trivial
    | list k l => exact counted_list hm (by simpa using parts)
    | entity k x =>
      intro keep held σ w hw hx hheld ha
      refine canonicalize_counts held _ hm hw hx hheld ha fun keep' held' v hv hp hheld' => ?_
      exact prepare_counts parts hheld' hv (fun _ => hx.part) fun j hj => hp ▸ ha.part hj

theorem internMembers_counts (d : Handle Definition) (hw : w.Good s.hasher σ) (hd : σ.Fits (.definition d))
    (hf : w.failure = none) (ha : Agrees settled w.provider (.definition d)) :
    Counts s settled w (.definition d) ((Definition.internMembers s d).run w).2 := by
  have open' : ¬ settled (.definition d) := (ha _ (.refl _)).not.mp id
  by_cases hfrozen : d.id ∈ s.frozen
  · rw [internMembers_run_frozen hfrozen]
    exact counts_frozen hf open' ⟨d.id, rfl, hfrozen⟩
  · have members (i : Item) (hi : i ∈ d.val.parts) : Counted s settled i :=
      counted s settled i (Item.IsModel.parts (i := .definition d) trivial i hi)
    have passes : Passes s .everything (Counted s settled) (Ledger s settled (fun _ => False) σ w d.val.parts) :=
      ledger_passes fun _ _ => rfl
    obtain ⟨ledger, -⟩ := internMembers_sends passes d members hfrozen
      (fun _ _ _ h => ⟨h.row.withEvents _, h.agrees, h.counts⟩) w
      (ledger_start hw (fun _ => hd.part) fun _ => ha.part)
    refine counts_visit hf open' ?_ (ledger.counts _ (.nil _)) rfl
    simpa [Item.FrozenIn, Item.label?] using hfrozen

theorem Item.intern_tallies (i : Item) (held : Held) (hm : i.IsModel) (hw : w.Good s.hasher σ) (hi : σ.Fits i)
    (hheld : ∀ id, keep id → held id = true) (hf : w.failure = none) :
    Tallies w.provider.Settled (·.FrozenIn s.frozen) [i] (w.inventory s.hasher)
      (((i.intern s held).run w).2.inventory s.hasher) := by
  have agrees : Agrees w.provider.Settled w.provider i := fun _ _ => .rfl
  suffices counts : Counts s w.provider.Settled w i ((i.intern s held).run w).2 from counts [] _ (.nil _)
  cases i with
  | nothing => exact counts_nothing id
  | text t => exact poolText_counts t id
  | entity k x => exact counted s _ (.entity k x) hm keep held σ w hw hi hheld agrees
  | list k l => exact counted s _ (.list k l) hm σ w hw hi agrees
  | definition d => exact internMembers_counts d hw hi hf agrees

end CodeModel
