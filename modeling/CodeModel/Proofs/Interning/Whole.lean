import CodeModel.Proofs.Interning.Prepare

namespace CodeModel

open Interning

variable {s : Setting} {keep : Nat → Prop} {σ : Store} {w : Work}

theorem intern_replaces (k : Kind) (held : Held) (x : Handle k.Carrier) (hw : w.Good s.hasher σ)
    (hx : σ.Fits (.entity k x)) (hheld : ∀ id, keep id → held id = true) :
    Replaces s keep (k.intern s held x) (.entity k) σ w (.entity k x) :=
  replaceable s (.entity k x) keep held σ w hw hx hheld

theorem internList_replaces (k : Kind) (l : EntityList k.Carrier) (hw : w.Good s.hasher σ)
    (hl : σ.Fits (.list k l)) : Replaces s keep (k.internList s l) (.list k) σ w (.list k l) :=
  replaceable s (.list k l) keep σ w hw hl

def Refills {α : Type} (s : Setting) (keep : Nat → Prop) (act : Interning α) (item : α → Item) (σ : Store)
    (w : Work) (i : Item) : Prop :=
  ∃ τ, Rewrite s keep σ w [i] τ (act.run w).2 [item (act.run w).1] ∧
    ((act.run w).2.failure = none →
      ∀ p ∈ (item (act.run w).1).parts, (act.run w).2.provider.Canonical s.hasher p)

lemma Refills.of_run {α : Type} {act : Interning α} {item : α → Item} {i : Item} {a : α} {v : Work} {τ : Store}
    (hrun : act.run w = (a, v)) (hr : Rewrite s keep σ w [i] τ v [item a])
    (hc : v.failure = none → ∀ p ∈ (item a).parts, v.provider.Canonical s.hasher p) :
    Refills s keep act item σ w i := by
  rw [Refills, hrun]
  exact ⟨τ, hr, hc⟩

theorem prepareInPlace_refills (k : Kind) (held : Held) (x : Handle k.Carrier) (hw : w.Good s.hasher σ)
    (hx : σ.Fits (.entity k x)) (hheld : ∀ id, keep id → held id = true) (hk : ¬ keep x.id)
    (hr : ¬ w.provider.Registered x.id) :
    Refills s keep (k.prepareInPlace s held x) (.entity k) σ w (.entity k x) := by
  by_cases hfrozen : x.id ∈ s.frozen
  · exact .of_run (prepareInPlace_run_frozen hfrozen) (.refl hw (by simpa using hx) rfl rfl nofun) nofun
  · obtain ⟨τ, hrow, hc, ho⟩ := prepare_prepares k x.val (fun i _ => replaceable s i) hheld hw fun _ => hx.part
    exact .of_run (prepareInPlace_run hfrozen) (hrow.wrap (i := .entity k x) (j := .entity k ⟨x.id, _⟩) hw hx rfl rfl
      (means_entity ho hrow.value) rfl le_rfl id (.inr ⟨rfl, hk, hr, hfrozen⟩)) hc

lemma not_registered_definition {d : Handle Definition} (hw : w.Good s.hasher σ) (hd : σ.Fits (.definition d)) :
    ¬ w.provider.Registered d.id := by
  rintro ⟨k, x, hx, hid⟩
  have known := (hw.fits _ (.entry hx)).knows
  rw [Store.Knows, hid, hd.knows] at known
  simp at known

lemma internMembers_rows (keep : Nat → Prop) {is : List Item} (d : Handle Definition) (hd : d.id ∉ s.frozen) :
    (Definition.internMembers s d).Sends (Row s keep σ w is [] d.val.parts)
      (fun e v => Row s keep σ w is e.val.parts [] v ∧ e.val.outline = d.val.outline ∧ e.id = d.id) :=
  internMembers_sends (row_passes fun _ _ => rfl) d (fun i _ => replaceable s i) hd fun _ _ _ h => h.withEvents _

theorem internMembers_refills (d : Handle Definition) (hw : w.Good s.hasher σ) (hd : σ.Fits (.definition d))
    (hk : ¬ keep d.id) : Refills s keep (Definition.internMembers s d) .definition σ w (.definition d) := by
  by_cases hfrozen : d.id ∈ s.frozen
  · exact .of_run (internMembers_run_frozen hfrozen) (.refl hw (by simpa using hd) rfl rfl nofun) nofun
  · obtain ⟨⟨τ, hr, hc⟩, ho, hid⟩ := internMembers_rows keep d hfrozen w (row_start hw fun _ => hd.part)
    rw [List.append_nil] at hr
    have bares := bares_of_means hr.value fun p hp => Item.IsModel.parts (i := .definition d) trivial p hp
    have value := Definition.bare_congr ho bares
    refine ⟨_, hr.wrap (i := .definition d) (j := .definition ((Definition.internMembers s d).run w).1) hw hd rfl
      (congrArg some hid) (fun _ => ?_) rfl le_rfl id
      (.inr ⟨rfl, hk, not_registered_definition hw hd, hfrozen⟩), hc⟩
    simp [Item.bare, Handle.bare, value]

def Item.intern (s : Setting) (held : Held) : Item → Interning Item
  | nothing => return nothing
  | text t => text <$> poolText s t
  | entity k x => entity k <$> k.intern s held x
  | list k l => list k <$> k.internList s l
  | definition d => definition <$> Definition.internMembers s d

def Becomes (s : Setting) (keep : Nat → Prop) (σ : Store) (w : Work) (i : Item) (whole : Prop) (v : Work) (j : Item) :
    Prop :=
  ∃ τ, Rewrite s keep σ w [i] τ v [j] ∧ (∀ d, j = .definition d → ∃ e, i = .definition e ∧ d.id = e.id) ∧
    (v.failure = none → (whole → v.provider.Canonical s.hasher j) ∧ ∀ p ∈ j.parts, v.provider.Canonical s.hasher p)

lemma Replaces.becomes {α : Type} {act : Interning α} {item : α → Item} {i : Item} (whole : Prop)
    (h : Replaces s keep act item σ w i) (hn : ∀ a d, item a ≠ .definition d) :
    Becomes s keep σ w i whole (act.run w).2 (item (act.run w).1) := by
  obtain ⟨τ, hr, hc⟩ := h
  refine ⟨τ, hr, fun d he => absurd he (hn _ d), fun hf => ⟨fun _ => hc hf, fun p hp => ?_⟩⟩
  exact hr.good.sound.canonical_part (hc hf) hp

theorem Item.intern_becomes (i : Item) (held : Held) (hw : w.Good s.hasher σ) (hi : σ.Fits i)
    (hheld : ∀ id, keep id → held id = true) (hd : ∀ d, i = .definition d → ¬ keep d.id) :
    Becomes s keep σ w i (∀ d, i ≠ .definition d) ((i.intern s held).run w).2 ((i.intern s held).run w).1 := by
  cases i with
  | nothing =>
    have done : Becomes s keep σ w .nothing (∀ d, nothing ≠ .definition d) w .nothing :=
      ⟨σ, .refl hw (by simpa using hi) rfl rfl id, by simp, fun _ => ⟨fun _ => trivial, by simp⟩⟩
    exact done
  | text t => exact (poolText_replaces t hw hi).becomes _ (by simp)
  | entity k x => exact (intern_replaces k held x hw hi hheld).becomes _ (by simp)
  | list k l => exact (internList_replaces k l hw hi).becomes _ (by simp)
  | definition d =>
    obtain ⟨τ, hr, hc⟩ := internMembers_refills d hw hi (hd d rfl)
    refine ⟨τ, hr, fun e he => ⟨d, rfl, ?_⟩, fun hf => ⟨fun hne => absurd rfl (hne d), hc hf⟩⟩
    rw [← Item.definition.inj he]
    exact Definition.internMembers_id d

end CodeModel
