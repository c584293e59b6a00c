import CodeModel.Proofs.Interning.Halting

namespace CodeModel

open Interning

variable {s : Setting} {keep : Nat → Prop} {σ τ : Store} {w v : Work} {settled : Item → Prop} {i j : Item}
  {is js done rest : List Item}

def Stopped (s : Setting) (settled : Item → Prop) (v : Work) (is js : List Item) : Prop :=
  ∃ f ls ms, Halts s settled v.provider f is js ls ms

structure Ends (s : Setting) (settled : Item → Prop) (is : List Item) (v : Work) (js : List Item) : Prop where
  came : v.failure = none → List.Forall₂ (Came s settled v.provider) is js
  stopped : v.failure ≠ none → Stopped s settled v is js

def Deep (s : Setting) (settled : Item → Prop) : Prop :=
  ∀ i, settled i → ∀ a, Item.Within a i → a.FrozenIn s.frozen → settled a

lemma came_of_counts (hd : Deep s settled) (hm : i.IsModel) (hr : Rewrite s keep σ w [i] τ v [j])
    (hc : v.failure = none → v.provider.Canonical s.hasher j) (counts : Counts s settled w i v)
    (hf : v.failure = none) : Came s settled v.provider i j where
  clear := by
    have tallies := counts [] _ (.nil _)
    have failure : v.failure = w.failure.or (obstacle settled (·.FrozenIn s.frozen) [i]) := tallies.failure hd
    rw [hf, hr.calm hf, Option.none_or, eq_comm] at failure
    exact obstacle_eq_none_iff.mp failure
  value := (List.forall₂_cons.mp hr.value).1 hm
  result := .inl (hc hf)

structure Trail (s : Setting) (settled : Item → Prop) (keep : Nat → Prop) (σ : Store) (w : Work)
    (is done rest : List Item) (v : Work) : Prop where
  ledger : Ledger s settled keep σ w is done rest v
  came : v.failure = none → ∃ as, is = as ++ rest ∧ List.Forall₂ (Came s settled v.provider) as done
  stopped : v.failure ≠ none → Stopped s settled v is (done ++ rest)

lemma Trail.ends (h : Trail s settled keep σ w is js [] v) : Ends s settled is v js where
  came hf := by
    obtain ⟨as, rfl, came⟩ := h.came hf
    rwa [List.append_nil]
  stopped hf := by
    have stopped := h.stopped hf
    rwa [List.append_nil] at stopped

def Stoppable (s : Setting) (settled : Item → Prop) : Item → Prop
  | .entity k x => ∀ (keep : Nat → Prop) held σ w, w.Good s.hasher σ → σ.Fits (.entity k x) →
      (∀ id, keep id → held id = true) → Agrees settled w.provider (.entity k x) → w.failure = none →
      ((k.intern s held x).run w).2.failure ≠ none →
      Stopped s settled ((k.intern s held x).run w).2 [.entity k x] [.entity k ((k.intern s held x).run w).1]
  | .list k l => ∀ σ w, w.Good s.hasher σ → σ.Fits (.list k l) → Agrees settled w.provider (.list k l) →
      w.failure = none → ((k.internList s l).run w).2.failure ≠ none →
      Stopped s settled ((k.internList s l).run w).2 [.list k l] [.list k ((k.internList s l).run w).1]
  | _ => True

section Rows

lemma trail_start (hf : w.failure = none) (hw : w.Good s.hasher σ) (hfit : ∀ i ∈ is, σ.Fits i)
    (ha : ∀ i ∈ is, Agrees settled w.provider i) : Trail s settled keep σ w is [] is w :=
  ⟨ledger_start hw hfit ha, fun _ => ⟨[], rfl, .nil⟩, fun hn => absurd hf hn⟩

lemma Trail.came_through {u : Work} (h : Trail s settled keep σ w is done (i :: rest) v) (hf : v.failure = none)
    (hg : v.provider.Grows s.hasher u.provider) (hu : Came s settled u.provider i j) :
    ∃ as, is = as ++ rest ∧ List.Forall₂ (Came s settled u.provider) as (done ++ [j]) := by
  obtain ⟨as, rfl, came⟩ := h.came hf
  exact ⟨as ++ [i], by simp, List.rel_append (came.imp fun _ _ h => h.mono hg) (.cons hu .nil)⟩

lemma Trail.stopped_at {u : Work} (h : Trail s settled keep σ w is done (i :: rest) v) (hf : v.failure = none)
    (hg : v.provider.Grows s.hasher u.provider) (hu : Stopped s settled u [i] [j]) :
    Stopped s settled u is (done ++ [j] ++ rest) := by
  obtain ⟨as, rfl, came⟩ := h.came hf
  obtain ⟨f, ls, ms, halts⟩ := hu
  rw [List.append_assoc]
  exact ⟨f, _, _, .after (came.imp fun _ _ h => h.mono hg) (halts.frame rest)⟩

theorem trail_slot {α : Type} {act : Interning α} {item : α → Item} (hd : Deep s settled) (hm : i.IsModel)
    (hledger : act.Sends (Ledger s settled keep σ w is done (i :: rest))
      fun a => Ledger s settled keep σ w is (done ++ [item a]) rest)
    (hact : ∃ x next, act = unlessFailed x next ∧ item x = i)
    (hslot : ∀ τ v, v.Good s.hasher τ → (∀ p ∈ done ++ rest, τ.Fits p) → τ.Fits i → Agrees settled v.provider i →
      v.failure = none → (∃ keep', Replaces s keep' act item τ v i) ∧ Counts s settled v i (act.run v).2 ∧
        ((act.run v).2.failure ≠ none → Stopped s settled (act.run v).2 [i] [item (act.run v).1])) :
    act.Sends (Trail s settled keep σ w is done (i :: rest))
      (fun a => Trail s settled keep σ w is (done ++ [item a]) rest) := by
  intro v trail
  have after := hledger v trail.ledger
  cases hf : v.failure with
  | some e =>
    obtain ⟨x, next, rfl, rfl⟩ := hact
    rw [unlessFailed_run_failed (by simp [hf])] at after ⊢
    refine ⟨after, fun hn => by simp [hf] at hn, fun hn => ?_⟩
    rw [List.append_assoc]
    exact trail.stopped hn
  | none =>
    obtain ⟨τ, hr, -⟩ := trail.ledger.row
    obtain ⟨⟨keep', υ, hslot, hc⟩, counts, stopped⟩ := hslot τ v hr.good (fun p hp => hr.fits p (by grind))
      (hr.fits i (by simp)) (trail.ledger.agrees i List.mem_cons_self) hf
    exact ⟨after, fun hn => trail.came_through hf hslot.grows (came_of_counts hd hm hslot hc counts hn),
      fun hn => trail.stopped_at hf hslot.grows (stopped hn)⟩

lemma Trail.nothing (h : Trail s settled keep σ w is done (.nothing :: rest) v) :
    Trail s settled keep σ w is (done ++ [.nothing]) rest v where
  ledger := (ledger_passes fun _ _ => rfl).nothing h.ledger
  came hf := by
    refine h.came_through hf (.refl _ _) ⟨fun c hc hz => ?_, rfl, .inl trivial⟩
    rcases Item.within_iff.mp hc with rfl | ⟨p, hp, -⟩
    · simp [Item.FrozenIn, Item.label?] at hz
    · simp at hp
  stopped hn := by
    rw [List.append_assoc]
    exact h.stopped hn

lemma poolText_failure (t : Text) : ((poolText s t).run w).2.failure = w.failure := by
  cases hf : w.failure with
  | some e =>
    have failed : (poolText s t).run w = (t, w) := unlessFailed_run_failed (by simp [hf])
    rw [failed, hf]
  | none =>
    rw [poolText_run t hf]
    exact hf

lemma trail_passes (hd : Deep s settled) {outer : Held} (hk : ∀ id, keep id → outer id = true) :
    Passes s outer (fun i => i.IsModel ∧ Stoppable s settled i) (Trail s settled keep σ w is) where
  nothing h := h.nothing
  text t := trail_slot hd trivial ((ledger_passes hk).text t) ⟨t, _, rfl, rfl⟩ fun _ _ hv _ ht ha hf =>
    ⟨⟨keep, poolText_replaces t hv ht⟩, poolText_counts t ((ha _ (.refl _)).not.mp id), fun hn =>
      absurd ((poolText_failure t).trans hf) hn⟩
  list hl := trail_slot hd hl.1 ((ledger_passes hk).list (counted s settled _ hl.1)) ⟨_, _, rfl, rfl⟩
    fun _ _ hv _ hfit ha hf => ⟨⟨keep, internList_replaces _ _ hv hfit⟩, counted s settled _ hl.1 _ _ hv hfit ha,
      hl.2 _ _ hv hfit ha hf⟩
  entity hx hheld := trail_slot hd hx.1 ((ledger_passes hk).entity (counted s settled _ hx.1) hheld) ⟨_, _, rfl, rfl⟩
    fun τ _ hv hp hfit ha hf =>
      have kept := fun id hid => (hheld τ hp id).mpr (Or.imp_left (hk id) hid)
      ⟨⟨_, intern_replaces _ _ _ hv hfit kept⟩, counted s settled _ hx.1 _ _ _ _ hv hfit kept ha,
        hx.2 _ _ _ _ hv hfit kept ha hf⟩

end Rows

section Slots

variable {k : Kind} {x : Handle k.Carrier}

lemma not_settled_entity (hw : w.Good s.hasher σ) {held : Held} (ha : Agrees settled w.provider (.entity k x))
    (hc : ¬ w.provider.isCanonical s.hasher held k x = true) :
    ¬ w.provider.Canonical s.hasher (.entity k x) ∧ ¬ settled (.entity k x) := by
  have entry : ¬ w.provider.HasEntry k x := fun entry => hc (hw.sound.isCanonical held entry)
  exact ⟨entry, (ha _ (.refl _)).not.mp entry⟩

theorem canonicalize_stopped (held : Held) (prepare : Held → Interning k.Carrier) (hw : w.Good s.hasher σ)
    (hheld : ∀ id, keep id → held id = true) (ha : Agrees settled w.provider (.entity k x)) (hf : w.failure = none)
    (he : ((canonicalize s k held x prepare).run w).2.failure ≠ none)
    (hprepare : ∀ (keep' : Nat → Prop) held' v, v.Good s.hasher σ → v.provider = w.provider → v.failure = none →
      (∀ id, keep' id → held' id = true) →
      Ends s settled (k.parts x.val) ((prepare held').run v).2 (k.parts ((prepare held').run v).1)) :
    Stopped s settled ((canonicalize s k held x prepare).run w).2 [.entity k x]
      [.entity k ((canonicalize s k held x prepare).run w).1] := by
  by_cases hcanonical : w.provider.isCanonical s.hasher held k x = true
  · rw [canonicalize_run_canonical hf hcanonical] at he
    exact absurd hf he
  obtain ⟨uncanonical, open'⟩ := not_settled_entity hw ha hcanonical
  by_cases hfrozen : x.id ∈ s.frozen
  · rw [canonicalize_run_frozen hf hcanonical hfrozen]
    exact ⟨_, _, _, .here (frozenIn_entity.mpr hfrozen) open' uncanonical⟩
  by_cases hshared : (held x.id || w.provider.holds x.id) = true
  · have good := hw.withEvents (w.events ++ [.copying w.provider.number k])
    have ends := hprepare (fun _ => True) .everything _ good rfl hf fun _ _ => rfl
    rw [canonicalize_run_shared hf hcanonical hfrozen hshared] at he ⊢
    cases hv :
      ((prepare .everything).run { w with events := w.events ++ [.copying w.provider.number k] }).2.failure with
    | some e =>
      obtain ⟨f, ls, ms, halts⟩ := ends.stopped (by simp [hv])
      rw [copy_run_failed (by simp [hv])]
      exact ⟨f, ls, ls, .into open' (frozenIn_entity.not.mpr hfrozen) (.refl _) halts.given_up⟩
    | none =>
      rw [copy_run hv, settle_failure] at he
      exact absurd hv he
  · have ends := hprepare keep held w hw rfl hf hheld
    rw [canonicalize_run_sole hf hcanonical hfrozen hshared] at he ⊢
    cases hv : ((prepare held).run w).2.failure with
    | some e =>
      obtain ⟨f, ls, ms, halts⟩ := ends.stopped (by simp [hv])
      rw [in_place_run_failed (by simp [hv])]
      exact ⟨f, ls, ms, .into open' (frozenIn_entity.not.mpr hfrozen) (.of_label rfl rfl) halts⟩
    | none =>
      rw [StateT.run_bind] at he
      exact absurd ((settle_failure _).trans hv) he

theorem canonicalizeList_stopped {l : EntityList k.Carrier} {elements : Interning (List (Handle k.Carrier))}
    (hw : w.Good s.hasher σ) (ha : Agrees settled w.provider (.list k l)) (hf : w.failure = none)
    (he : ((canonicalizeList s k l elements).run w).2.failure ≠ none)
    (helements : Ends s settled (l.items.map (.entity k)) (elements.run w).2 ((elements.run w).1.map (.entity k))) :
    Stopped s settled ((canonicalizeList s k l elements).run w).2 [.list k l]
      [.list k ((canonicalizeList s k l elements).run w).1] := by
  have agree : (l.items = [] ∨ ∃ r ∈ w.provider.lists k, r.list = l) ↔ settled (.list k l) := ha _ (.refl _)
  by_cases hdone : l.items = [] ∨ w.provider.isCanonicalList s.hasher k l = true
  · rw [canonicalizeList_run_done hf hdone] at he
    exact absurd hf he
  have open' : ¬ settled (.list k l) := fun hs => hdone (hw.sound.passes_list (agree.mpr hs))
  rw [canonicalizeList_run_elements hf hdone] at he ⊢
  cases hv : (elements.run w).2.failure with
  | some e =>
    obtain ⟨f, ls, ms, halts⟩ := helements.stopped (by simp [hv])
    rw [unlessFailed_run_failed (by simp [hv])]
    exact ⟨f, ls, ls, .into open' (not_frozenIn_list l _) (.refl _) halts.given_up⟩
  | none =>
    rw [unlessFailed_run hv, sealList_failure] at he
    exact absurd hv he

end Slots

section Items

variable {k : Kind}

lemma stoppable_list {l : EntityList k.Carrier} (hd : Deep s settled) (hk : k.isModel = true)
    (h : ∀ x ∈ l.items, Stoppable s settled (.entity k x)) : Stoppable s settled (.list k l) := by
  intro σ w hw hl ha hf he
  have start : Trail s settled (fun _ => False) σ w (l.items.map (.entity k)) [] (l.items.map (.entity k)) w :=
    trail_start hf hw (fun _ => hl.part) fun _ => ha.part
  have trail := sends_elements (trail_passes hd fun _ _ => rfl) l.items (fun x hx => ⟨hk, h x hx⟩) w start
  exact canonicalizeList_stopped hw ha hf he trail.ends

lemma prepare_ends {x : k.Carrier} (hd : Deep s settled) (h : ∀ i ∈ k.parts x, i.IsModel ∧ Stoppable s settled i)
    {held : Held} (hheld : ∀ id, keep id → held id = true) (hw : w.Good s.hasher σ) (hf : w.failure = none)
    (hfit : ∀ i ∈ k.parts x, σ.Fits i) (ha : ∀ i ∈ k.parts x, Agrees settled w.provider i) :
    Ends s settled (k.parts x) ((k.prepare s held x).run w).2 (k.parts ((k.prepare s held x).run w).1) :=
  (prepare_sends (trail_passes hd hheld) k x h w (trail_start hf hw hfit ha)).1.ends

theorem stoppable (hd : Deep s settled) (i : Item) (hm : i.IsModel) : Stoppable s settled i := by
  induction i using Item.induction with
  | step i ih =>
    have parts (j : Item) (hj : j ∈ i.parts) : j.IsModel ∧ Stoppable s settled j :=
      ⟨hm.parts j hj, ih j hj (hm.parts j hj)⟩
    cases i with
    | nothing | text | definition => trivial
    | list k l => exact stoppable_list hd hm fun x hx => (parts (.entity k x) (List.mem_map_of_mem hx)).2
    | entity k x =>
      intro keep held σ w hw hx hheld ha hf he
      refine canonicalize_stopped held _ hw hheld ha hf he fun keep' held' v hv hp hf' hheld' => ?_
      exact prepare_ends hd parts hheld' hv hf' (fun _ => hx.part) fun j hj => hp ▸ ha.part hj

theorem internMembers_stopped (hd : Deep s settled) (d : Handle Definition) (hw : w.Good s.hasher σ)
    (hfit : σ.Fits (.definition d)) (hf : w.failure = none) (ha : Agrees settled w.provider (.definition d))
    (he : ((Definition.internMembers s d).run w).2.failure ≠ none) :
    Stopped s settled ((Definition.internMembers s d).run w).2 [.definition d]
      [.definition ((Definition.internMembers s d).run w).1] := by
  have open' : ¬ settled (.definition d) := (ha _ (.refl _)).not.mp id
  by_cases hfrozen : d.id ∈ s.frozen
  · rw [internMembers_run_frozen hfrozen]
    exact ⟨_, _, _, .here ⟨d.id, rfl, hfrozen⟩ open' id⟩
  · have members (i : Item) (hi : i ∈ d.val.parts) : i.IsModel ∧ Stoppable s settled i :=
      have model := Item.IsModel.parts (i := .definition d) trivial i hi
      ⟨model, stoppable hd i model⟩
    have passes : Passes s .everything (fun i => i.IsModel ∧ Stoppable s settled i)
        (Trail s settled (fun _ => False) σ w d.val.parts) := trail_passes hd fun _ _ => rfl
    obtain ⟨trail, -⟩ := internMembers_sends passes d members hfrozen
      (fun _ _ _ h => ⟨⟨h.ledger.row.withEvents _, h.ledger.agrees, h.ledger.counts⟩, h.came, h.stopped⟩) w
      (trail_start hf hw (fun _ => hfit.part) fun _ => ha.part)
    obtain ⟨f, ls, ms, halts⟩ := trail.ends.stopped he
    refine ⟨f, ls, ms, .into open' ?_ (.of_label rfl (congrArg some (Definition.internMembers_id d))) halts⟩
    simpa [Item.FrozenIn, Item.label?] using hfrozen

theorem Item.intern_stopped (i : Item) (held : Held) (hm : i.IsModel) (hw : w.Good s.hasher σ) (hi : σ.Fits i)
    (hheld : ∀ id, keep id → held id = true) (hf : w.failure = none) (he : ((i.intern s held).run w).2.failure ≠ none) :
    Stopped s w.provider.Settled ((i.intern s held).run w).2 [i] [((i.intern s held).run w).1] := by
  have deep : Deep s w.provider.Settled := fun _ hi _ ha hz => hw.sound.settled_within hi ha hz
  have agrees : Agrees w.provider.Settled w.provider i := fun _ _ => .rfl
  cases i with
  | nothing => exact absurd hf he
  | text t => exact absurd ((poolText_failure t).trans hf) he
  | entity k x => exact stoppable deep (.entity k x) hm keep held σ w hw hi hheld agrees hf he
  | list k l => exact stoppable deep (.list k l) hm σ w hw hi agrees hf he
  | definition d => exact internMembers_stopped deep d hw hi hf agrees he

end Items

end CodeModel
