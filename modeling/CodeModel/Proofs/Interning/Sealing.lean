import CodeModel.Proofs.Interning.Whole
import CodeModel.Proofs.Tables.Stock

/-! Interning seals lists that have elements, and no others. -/

namespace CodeModel

open Interning

namespace Item

def Full (i : Item) : Prop := ∀ k l, Within (.list k l) i → l.sealed = true → l.items ≠ []

variable {i j : Item} {k : Kind}

lemma Full.within (hi : i.Full) (h : Within j i) : j.Full := fun k l hl => hi k l (hl.trans h)

lemma full_iff : i.Full ↔ (∀ k l, i = .list k l → l.sealed = true → l.items ≠ []) ∧ ∀ p ∈ i.parts, p.Full := by
  constructor
  · intro hi
    exact ⟨fun k l he => hi k l (he ▸ .refl _), fun p hp => hi.within (.part hp (.refl p))⟩
  · rintro ⟨whole, parts⟩ k l hl
    rcases within_iff.mp hl with he | ⟨p, hp, hl⟩
    · exact whole k l he.symm
    · exact parts p hp k l hl

@[simp] lemma full_nothing : nothing.Full := full_iff.mpr (by simp)

@[simp] lemma full_text (t : Text) : (text t).Full := full_iff.mpr (by simp)

@[simp] lemma full_region (r : Region) : r.part.Full := by cases h : r.file <;> simp [Region.part, h]

lemma full_entity {x : Handle k.Carrier} : (entity k x).Full ↔ ∀ p ∈ k.parts x.val, p.Full := by
  rw [full_iff]
  simp

lemma full_list {l : EntityList k.Carrier} :
    (list k l).Full ↔ (l.sealed = true → l.items ≠ []) ∧ ∀ x ∈ l.items, (entity k x).Full := by
  rw [full_iff]
  constructor
  · rintro ⟨whole, parts⟩
    exact ⟨whole k l rfl, fun x hx => parts _ (List.mem_map_of_mem hx)⟩
  · rintro ⟨whole, parts⟩
    refine ⟨fun j m he => ?_, by simpa using parts⟩
    cases he
    exact whole

lemma full_definition {d : Handle Definition} : (definition d).Full ↔ ∀ p ∈ d.val.parts, p.Full := by
  rw [full_iff]
  simp

@[simp] lemma full_shared (t : SharedType) : (entity .typeRef t.handle).Full := full_entity.mpr (by simp)

end Item

structure Provider.Full (q : Provider) : Prop where
  entry : ∀ k x, q.HasEntry k x → (Item.entity k x).Full
  record : ∀ k, ∀ r ∈ q.lists k, (Item.list k r.list).Full

variable {s : Setting} {w : Work} {k : Kind} {x : Handle k.Carrier} {l : EntityList k.Carrier} {α : Type}
  {done rest : List Item}

namespace Interning

def Fills (act : Interning α) (item : α → Item) : Prop :=
  act.Sends (fun w => w.provider.Full) (fun a w => w.provider.Full ∧ (item a).Full)

lemma unlessFailed_fills {a : α} {act : Interning α} {item : α → Item} (ha : (item a).Full) (h : act.Fills item) :
    (unlessFailed a act).Fills item := by
  intro w hw
  rw [run_unlessFailed]
  split
  · exact ⟨hw, ha⟩
  · exact h w hw

lemma quiet_fills {β : Type} {act : Interning β} {next : β → Interning α} {item : α → Item}
    (quiet : ∀ w, (act.run w).2.provider = w.provider) (h : ∀ b, (next b).Fills item) : (act >>= next).Fills item :=
  .bind (Q := fun _ w => w.provider.Full) (fun w hw => by simpa only [quiet w] using hw) h

end Interning

lemma ifPreparable_fills {α : Type} {item : α → Item} {id : Nat} {entity : String} {x : α} {act : Interning α}
    (hx : (item x).Full) (h : act.Fills item) : (ifPreparable s id entity x act).Fills item := by
  intro w hw
  by_cases hz : id ∈ s.frozen
  · rw [ifPreparable_frozen hz]
    exact ⟨hw, hx⟩
  · rw [ifPreparable_open hz]
    exact h w hw

lemma poolText_fills (t : Text) : (poolText s t).Fills .text :=
  unlessFailed_fills (Item.full_text t) fun _ hw => ⟨⟨hw.entry, hw.record⟩, Item.full_text _⟩

lemma settle_fills (hx : (Item.entity k x).Full) : (settle s k x).Fills (.entity k) := by
  intro w hw
  cases hf : w.failure with
  | some e =>
    rw [settle_run_failed (by simp [hf])]
    exact ⟨hw, hx⟩
  | none =>
    cases hy : w.provider.find? s.hasher k x.val with
    | some y =>
      obtain ⟨e, he, -, rfl⟩ := Provider.mem_bucket.mp (List.mem_of_find?_eq_some hy)
      rw [settle_run_found hf hy]
      exact ⟨⟨hw.entry, hw.record⟩, hw.entry k _ ⟨e, he, rfl⟩⟩
    | none =>
      rw [settle_run_new hf hy]
      refine ⟨⟨fun j y hy => ?_, hw.record⟩, hx⟩
      rcases Provider.hasEntry_register.mp hy with hy | hy
      · exact hw.entry j y hy
      · exact hy ▸ hx

lemma sealList_fills {items : List (Handle k.Carrier)} (hn : items ≠ []) (hx : ∀ x ∈ items, (Item.entity k x).Full) :
    (sealList s k items).Fills (.list k) := by
  intro w hw
  cases hr : w.provider.findList? s.hasher k items with
  | some r =>
    rw [sealList_run_found hr]
    exact ⟨⟨hw.entry, hw.record⟩, hw.record k r (Provider.findList?_some hr).1⟩
  | none =>
    have made : (Item.list k ⟨true, w.next, items⟩).Full := Item.full_list.mpr ⟨fun _ => hn, hx⟩
    rw [sealList_run_new hr]
    refine ⟨⟨hw.entry, fun j r hr => ?_⟩, made⟩
    rcases Provider.mem_lists_recordList.mp hr with hr | ⟨rfl, rfl⟩
    · exact hw.record j r hr
    · exact made

def Stocked (done rest : List Item) (w : Work) : Prop := w.provider.Full ∧ ∀ i ∈ done ++ rest, i.Full

def Fillable (s : Setting) : Item → Prop
  | .entity k x => (Item.entity k x).Full → ∀ held, (k.intern s held x).Fills (.entity k)
  | .list k l => (Item.list k l).Full → (k.internList s l).Fills (.list k)
  | _ => True

lemma stocked_slot {act : Interning α} {item : α → Item} {i : Item} (h : i.Full → act.Fills item) :
    act.Sends (Stocked done (i :: rest)) (fun a => Stocked (done ++ [item a]) rest) := by
  rintro w ⟨hw, hi⟩
  obtain ⟨provider, result⟩ := h (hi i (by simp)) w hw
  exact ⟨provider, by grind⟩

lemma stocked_passes (outer : Held) : Passes s outer (Fillable s) Stocked where
  nothing h := ⟨h.1, by simpa using h.2⟩
  text t := stocked_slot fun _ => poolText_fills t
  list h := stocked_slot h
  entity h _ := stocked_slot fun hx => h hx _

lemma prepare_fills (held : Held) (v : k.Carrier) (hv : ∀ i ∈ k.parts v, i.Full) (hp : ∀ i ∈ k.parts v, Fillable s i) :
    (k.prepare s held v).Sends (fun w => w.provider.Full)
      (fun o w => w.provider.Full ∧ ∀ i ∈ k.parts o, i.Full) := by
  intro w hw
  obtain ⟨⟨provider, parts⟩, -⟩ := prepare_sends (stocked_passes held) k v hp w ⟨hw, hv⟩
  exact ⟨provider, by simpa using parts⟩

lemma canonicalize_fills (held : Held) (hx : (Item.entity k x).Full) {prepare : Held → Interning k.Carrier}
    (hp : ∀ held, (prepare held).Sends (fun w => w.provider.Full)
      (fun o w => w.provider.Full ∧ ∀ i ∈ k.parts o, i.Full)) : (canonicalize s k held x prepare).Fills (.entity k) := by
  refine unlessFailed_fills hx (quiet_fills (fun _ => rfl) fun u => ?_)
  have stays : (pure x : Interning (Handle k.Carrier)).Fills (.entity k) := .pure fun w hw => ⟨hw, hx⟩
  have settles (id : Nat) (o : k.Carrier) (ho : ∀ i ∈ k.parts o, i.Full) : (settle s k ⟨id, o⟩).Fills (.entity k) :=
    settle_fills (Item.full_entity.mpr ho)
  dsimp only
  split
  · exact stays
  refine ifPreparable_fills hx ?_
  split
  · refine quiet_fills (fun _ => rfl) fun _ => (hp _).bind fun o => .given fun ho => ?_
    exact unlessFailed_fills hx (quiet_fills (fun _ => rfl) fun id => settles id o ho)
  · exact (hp held).bind fun o => .given fun ho => settles x.id o ho

lemma fillable_list (h : ∀ x ∈ l.items, Fillable s (.entity k x)) : Fillable s (.list k l) := by
  intro hl
  obtain ⟨-, elements⟩ := Item.full_list.mp hl
  refine unlessFailed_fills hl (quiet_fills (fun _ => rfl) fun u => ?_)
  split
  · exact .pure fun w hw => ⟨hw, hl⟩
  next open' =>
    have full : l.items ≠ [] := by
      rintro empty
      simp [empty] at open'
    have row : (l.items.mapM (k.intern s .everything)).Sends (Stocked [] (l.items.map (.entity k) ++ []))
        (fun ys w => Stocked ([] ++ ys.map (.entity k)) [] w ∧ ys.length = l.items.length) :=
      sends_mapM l.items fun x hx _ _ => stocked_slot fun hf => h x hx hf .everything
    refine (row.bind fun items => ?_).weaken fun w hw => ⟨hw, by simpa using elements⟩
    rintro v ⟨⟨provider, results⟩, length⟩
    have some' : items ≠ [] := by
      rintro rfl
      exact full (List.length_eq_zero_iff.mp length.symm)
    exact unlessFailed_fills hl (sealList_fills some' (by simpa using results)) v provider

theorem fillable (s : Setting) (i : Item) : Fillable s i := by
  induction i using Item.induction with
  | step i ih =>
    cases i with
    | nothing | text | definition => trivial
    | list k l => exact fillable_list (by simpa using ih)
    | entity k x =>
      intro hx held
      exact canonicalize_fills held hx fun held => prepare_fills held x.val (Item.full_entity.mp hx) ih

lemma prepareInPlace_fills (held : Held) (hx : (Item.entity k x).Full) :
    (k.prepareInPlace s held x).Fills (.entity k) := by
  refine ifPreparable_fills hx ((prepare_fills held x.val (Item.full_entity.mp hx) fun i _ => fillable s i).bind ?_)
  exact fun o => .pure fun w ⟨full, parts⟩ => ⟨full, Item.full_entity.mpr parts⟩

lemma internMembers_fills (d : Handle Definition) (hd : (Item.definition d).Full) :
    (Definition.internMembers s d).Fills .definition := by
  intro w hw
  by_cases hz : d.id ∈ s.frozen
  · rw [internMembers_run_frozen hz]
    exact ⟨hw, hd⟩
  · obtain ⟨⟨provider, parts⟩, -⟩ := internMembers_sends (stocked_passes .everything) d (fun i _ => fillable s i) hz
      (fun _ _ _ h => h) w ⟨hw, by simpa using Item.full_definition.mp hd⟩
    exact ⟨provider, Item.full_definition.mpr (by simpa using parts)⟩

lemma Provider.create_full (h : Hasher) (number label : Nat) (options : Options) :
    (Provider.create h number label options).Full where
  entry k x hx := by
    obtain ⟨t, ht⟩ := hasEntry_create.mp hx
    exact ht ▸ Item.full_shared t
  record k r hr := by simp [lists_create] at hr

end CodeModel
