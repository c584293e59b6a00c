import CodeModel.Proofs.Graph.Size
import CodeModel.Proofs.Interning.Whole

/-! To intern an item is to go down to its parts, which never lead back to it, whatever replaces them. -/

namespace CodeModel

open Interning

structure Call where
  item : Item
  held : Held
  work : Work

structure Descent where
  own : Option Nat
  held : Held
  work : Work
  act : Interning (List Item)
  ended : Item × Work

inductive Call.Descends (s : Setting) : Call → Descent → Prop
  | alone {k : Kind} {x : Handle k.Carrier} {held : Held} {w : Work} : x.id ∉ s.frozen →
    (held x.id || w.provider.holds x.id) ≠ true →
    Descends s ⟨.entity k x, held, w⟩ ⟨some x.id, held, w, k.parts <$> k.prepare s held x.val,
      (Item.entity k <$> do
        let v ← k.prepare s held x.val
        settle s k ⟨x.id, v⟩ : Interning Item).run w⟩
  | copied {k : Kind} {x : Handle k.Carrier} {held : Held} {w w' : Work} :
    w' = { w with events := w.events ++ [.copying w.provider.number k] } →
    Descends s ⟨.entity k x, held, w⟩ ⟨none, .everything, w', k.parts <$> k.prepare s .everything x.val,
      (Item.entity k <$> do
        let v ← k.prepare s .everything x.val
        unlessFailed x do
          let id ← fresh
          settle s k ⟨id, v⟩ : Interning Item).run w'⟩
  | prepared {k : Kind} {x : Handle k.Carrier} {held : Held} {w : Work} : x.id ∉ s.frozen →
    (held x.id || w.provider.holds x.id) ≠ true →
    Descends s ⟨.entity k x, held, w⟩ ⟨some x.id, held, w, k.parts <$> k.prepare s held x.val,
      (Item.entity k <$> k.prepareInPlace s held x).run w⟩
  | elements {k : Kind} {l : EntityList k.Carrier} {held : Held} {w : Work} :
    Descends s ⟨.list k l, held, w⟩
      ⟨none, .everything, w, List.map (.entity k) <$> l.items.mapM (k.intern s .everything), (Item.list k <$> do
        let items ← l.items.mapM (k.intern s .everything)
        unlessFailed l (sealList s k items) : Interning Item).run w⟩
  | members {d : Handle Definition} {held : Held} {w : Work} : d.id ∉ s.frozen →
    Descends s ⟨.definition d, held, w⟩ ⟨some d.id, held, w, (·.val.parts) <$> Definition.internMembers s d,
      (Item.definition <$> Definition.internMembers s d).run w⟩

/-- How far the work on the row `is` has come: the items in `done` are in their slots, those in `rest` are still what
they were. An entity in a slot is interned as held by what holds the row, and by the slots beside it. -/
inductive Passage (s : Setting) (held : Held) (is : List Item) (w : Work) : List Item → List Item → Work → Prop
  | start : Passage s held is w [] is w
  | nothing {done rest : List Item} {v : Work} : Passage s held is w done (.nothing :: rest) v →
    Passage s held is w (done ++ [.nothing]) rest v
  | text {done rest : List Item} {v : Work} {t : Text} : Passage s held is w done (.text t :: rest) v →
    Passage s held is w (done ++ [.text ((poolText s t).run v).1]) rest ((poolText s t).run v).2
  | list {done rest : List Item} {v : Work} {k : Kind} {l : EntityList k.Carrier} :
    Passage s held is w done (.list k l :: rest) v →
    Passage s held is w (done ++ [.list k ((k.internList s l).run v).1]) rest ((k.internList s l).run v).2
  | entity {done rest : List Item} {v : Work} {k : Kind} {x : Handle k.Carrier} {slot : Held} :
    Passage s held is w done (.entity k x :: rest) v →
    (∀ τ : Store, (∀ p ∈ done ++ rest, τ.Fits p) →
      ∀ id, held id = true ∨ LabelsAny (done ++ rest) id → slot id = true) →
    Passage s held is w (done ++ [.entity k ((k.intern s slot x).run v).1]) rest ((k.intern s slot x).run v).2
  | events {done rest : List Item} {v : Work} (events : List Event) : Passage s held is w done rest v →
    Passage s held is w done rest { v with events }

def Call.Nested (s : Setting) (c d : Call) : Prop :=
  ∃ way done rest, c.Descends s way ∧ Passage s way.held c.item.parts way.work done (d.item :: rest) d.work

variable {s : Setting} {held : Held} {σ : Store} {w v : Work} {is done rest : List Item} {c d : Call} {way : Descent}

namespace Passage

lemma passes {outer : Held} (hk : ∀ id, held id = true → outer id = true) :
    Passes s outer (fun _ => True) (Passage s held is w) where
  nothing h := .nothing h
  text _ _ h := .text h
  list _ _ h := .list h
  entity _ hslot _ h := .entity h fun τ hf id hid => (hslot τ hf id).mpr (hid.imp_left (hk id))

lemma suffix (h : Passage s held is w done rest v) : ∃ before, is = before ++ rest := by
  induction h with
  | start => exact ⟨[], rfl⟩
  | events _ _ ih => exact ih
  | nothing _ ih | text _ ih | list _ ih | entity _ _ ih =>
    obtain ⟨before, rfl⟩ := ih
    exact ⟨before ++ [_], List.append_cons ..⟩

theorem row (h : Passage s held is w done rest v) (hw : w.Good s.hasher σ) (hf : ∀ i ∈ is, σ.Fits i) :
    Row s (held · = true) σ w is done rest v := by
  induction h with
  | start => exact row_start hw hf
  | nothing _ ih => exact ih.nothing
  | text _ ih => exact (row_passes fun _ _ => rfl).text _ _ ih
  | list _ ih => exact (row_passes fun _ _ => rfl).list (replaceable s _) _ ih
  | entity _ hslot ih =>
    exact sends_slot (fun τ v hv hp hf => intern_replaces _ _ _ hv hf (hslot τ hp)) _ ih
  | events events _ ih => exact ih.withEvents events

end Passage

namespace Call

theorem Descends.passage (h : c.Descends s way) :
    Passage s way.held c.item.parts way.work (way.act.run way.work).1 [] (way.act.run way.work).2 := by
  cases h with
  | alone | copied | prepared =>
    exact (prepare_sends (Passage.passes fun _ h => h) _ _ (fun _ _ => trivial) _ .start).1
  | elements => exact sends_elements (Passage.passes fun _ h => h) _ (fun _ _ => trivial) _ .start
  | members hz =>
    exact (internMembers_sends (Passage.passes fun _ _ => rfl) _ (fun _ _ => trivial) hz (fun _ _ _ h => h.events _) _ .start).1

section Outset

variable {k : Kind} {x : Handle k.Carrier} {l : EntityList k.Carrier}

def Stays (w : Work) (i : Item) (r : Item × Work) : Prop := r.1 = i ∧ r.2.provider = w.provider

lemma stays_map {α : Type} {item : α → Item} {act : Interning α} {a : α} (h : act.run w = (a, v))
    (hp : v.provider = w.provider) : Stays w (item a) ((item <$> act).run w) := by
  rw [StateT.run_map, h]
  exact ⟨rfl, hp⟩

lemma entity_descends : Stays w (.entity k x) (((Item.entity k x).intern s held).run w) ∨
    ∃ way, Descends s ⟨.entity k x, held, w⟩ way ∧ ((Item.entity k x).intern s held).run w = way.ended := by
  dsimp only [Item.intern]
  cases hf : w.failure with
  | some e => exact .inl (stays_map (unlessFailed_run_failed (by simp [hf])) rfl)
  | none =>
    by_cases hcanonical : w.provider.isCanonical s.hasher held k x = true
    · exact .inl (stays_map (canonicalize_run_canonical hf hcanonical) rfl)
    by_cases hfrozen : x.id ∈ s.frozen
    · exact .inl (stays_map (canonicalize_run_frozen hf hcanonical hfrozen) rfl)
    by_cases hshared : (held x.id || w.provider.holds x.id) = true
    · refine .inr ⟨_, .copied rfl, ?_⟩
      rw [Kind.intern, StateT.run_map, canonicalize_run_shared hf hcanonical hfrozen hshared, ← StateT.run_map]
    · refine .inr ⟨_, .alone hfrozen hshared, ?_⟩
      rw [Kind.intern, StateT.run_map, canonicalize_run_sole hf hcanonical hfrozen hshared, ← StateT.run_map]

lemma list_descends : Stays w (.list k l) (((Item.list k l).intern s held).run w) ∨
    ∃ way, Descends s ⟨.list k l, held, w⟩ way ∧ ((Item.list k l).intern s held).run w = way.ended := by
  dsimp only [Item.intern]
  cases hf : w.failure with
  | some e => exact .inl (stays_map (unlessFailed_run_failed (by simp [hf])) rfl)
  | none =>
    by_cases hdone : l.items = [] ∨ w.provider.isCanonicalList s.hasher k l = true
    · exact .inl (stays_map (canonicalizeList_run_done hf hdone) rfl)
    · refine .inr ⟨_, .elements, ?_⟩
      rw [Kind.internList, StateT.run_map, canonicalizeList_run_elements hf hdone]
      rfl

theorem intern_descends (s : Setting) (c : Call) (ht : ∀ t, c.item ≠ .text t) :
    ((c.item.intern s c.held).run c.work).1 = c.item ∧
        ((c.item.intern s c.held).run c.work).2.provider = c.work.provider ∨
      ∃ way, c.Descends s way ∧ (c.item.intern s c.held).run c.work = way.ended := by
  obtain ⟨i, held, w⟩ := c
  cases i with
  | nothing => exact .inl ⟨rfl, rfl⟩
  | text t => exact absurd rfl (ht t)
  | entity k x => exact entity_descends
  | list k l => exact list_descends
  | definition d =>
    dsimp only [Item.intern]
    by_cases hfrozen : d.id ∈ s.frozen
    · exact .inl (stays_map (internMembers_run_frozen hfrozen) rfl)
    · exact .inr ⟨_, .members hfrozen, rfl⟩

end Outset

theorem Nested.size_lt (h : c.Nested s d) : d.item.size < c.item.size := by
  obtain ⟨way, done, rest, -, h⟩ := h
  obtain ⟨before, he⟩ := h.suffix
  exact Item.size_part (by simp [he])

def Sound (s : Setting) (c : Call) : Prop := ∃ σ, c.work.Good s.hasher σ ∧ σ.Fits c.item

lemma Descends.begins (h : c.Descends s way) (hw : c.work.Good s.hasher σ) : way.work.Good s.hasher σ := by
  cases h with
  | copied he => exact he ▸ ⟨hw.sound, hw.fits, hw.object, hw.list⟩
  | _ => exact hw

lemma Descends.own_label {a : Nat} (h : c.Descends s way) (ha : way.own = some a) : c.item.label? = some a := by
  cases h <;> simp_all [Item.label?]

lemma Descends.not_registered {a : Nat} (h : c.Descends s way) (ha : way.own = some a)
    (hw : c.work.Good s.hasher σ) (hf : σ.Fits c.item) : ¬ way.work.provider.Registered a := by
  cases h with
  | alone _ hs | prepared _ hs =>
    obtain rfl := Option.some.inj ha
    simp only [ne_eq, Bool.or_eq_true, not_or, Provider.holds_iff] at hs
    exact hs.2
  | copied | elements => cases ha
  | members =>
    obtain rfl := Option.some.inj ha
    exact not_registered_definition hw hf

theorem Sound.passage (hc : c.Sound s) (hd : c.Descends s way)
    (h : Passage s way.held c.item.parts way.work done rest v) :
    ∃ τ, v.Good s.hasher τ ∧ (∀ p ∈ done ++ rest, τ.Fits p) ∧
      (∀ a, way.own = some a ∨ v.next ≤ a → ¬ LabelsAny (done ++ rest) a) ∧
      List.Forall₂ Item.Means c.item.parts (done ++ rest) := by
  obtain ⟨σ, hw, hf⟩ := hc
  obtain ⟨τ, hr, -⟩ := h.row (hd.begins hw) fun _ => hf.part
  refine ⟨τ, hr.good, hr.fits, fun a ha => ?_, hr.value⟩
  rcases ha with ha | ha
  · exact (hr.unused (hd.begins hw) hf (hd.own_label ha) (.inr ⟨rfl, hd.not_registered ha hw hf⟩)).1
  · rintro ⟨p, hp, hl⟩
    obtain ⟨q, -, -, known⟩ := (hr.fits p hp).object_of_labels hl
    exact absurd (hr.good.object a q known) (not_lt.mpr ha)

theorem Sound.nested (hc : c.Sound s) (h : c.Nested s d) : d.Sound s := by
  obtain ⟨way, done, rest, hd, h⟩ := h
  obtain ⟨τ, good, fits, -⟩ := hc.passage hd h
  exact ⟨τ, good, fits d.item (by simp)⟩

theorem Sound.reaches (hc : c.Sound s) (h : Relation.ReflTransGen (Nested s) c d) : d.Sound s := by
  induction h with
  | refl => exact hc
  | tail _ h ih => exact ih.nested h

lemma Descends.same_provider (h : c.Descends s way) : way.work.provider = c.work.provider := by
  cases h with
  | copied he => exact he ▸ rfl
  | _ => rfl

lemma Nested.tables (hc : c.Sound s) (h : c.Nested s d) :
    (Kind.protocol s.hasher).Run c.work.provider.entities d.work.provider.entities := by
  obtain ⟨way, done, rest, hd, h⟩ := h
  obtain ⟨σ, hw, hf⟩ := hc
  obtain ⟨τ, hr, -⟩ := h.row (hd.begins hw) fun _ => hf.part
  exact hd.same_provider ▸ hr.tables

theorem Sound.tables (hc : c.Sound s) (h : Relation.ReflTransGen (Nested s) c d) :
    (Kind.protocol s.hasher).Run c.work.provider.entities d.work.provider.entities := by
  induction h with
  | refl => exact .refl
  | tail hcd hd ih => exact ih.trans (hd.tables (hc.reaches hcd))

end Call

def Work.Underway (s : Setting) (row : List Item) (v : Work) (i : Item) : Prop :=
  ∃ j, (j ∈ row ∨ v.provider.Root s.hasher j) ∧ Item.Within i j

structure Call.GoesDown (s : Setting) (c : Call) : Prop where
  run : (∀ t, c.item ≠ .text t) → ((c.item.intern s c.held).run c.work).1 = c.item ∧
      ((c.item.intern s c.held).run c.work).2.provider = c.work.provider ∨
    ∃ way, c.Descends s way ∧ (c.item.intern s c.held).run c.work = way.ended
  passage : ∀ way, c.Descends s way →
    Passage s way.held c.item.parts way.work (way.act.run way.work).1 [] (way.act.run way.work).2
  smaller : ∀ d, c.Nested s d → d.item.size < c.item.size
  acyclic : ∀ way done rest v, c.Descends s way → Passage s way.held c.item.parts way.work done rest v →
    ∀ a, ¬ Relation.TransGen (Linked (v.Underway s (done ++ rest))) a a
  apart : ∀ way done rest v, c.Descends s way → Passage s way.held c.item.parts way.work done rest v →
    ∀ a, way.own = some a ∨ v.next ≤ a → ¬ LabelsAny (done ++ rest) a
  size : c.item.IsModel → ∀ way done rest v, c.Descends s way →
    Passage s way.held c.item.parts way.work done rest v → 1 + ((done ++ rest).map Item.size).sum = c.item.size

lemma size_of_means {i j : Item} (h : i.Means j) (hi : i.IsModel) : j.size = i.size := by
  rw [← Item.size_bare j, h hi, Item.size_bare]

lemma sizes_of_means {js : List Item} (h : List.Forall₂ Item.Means is js) (hm : ∀ i ∈ is, i.IsModel) :
    js.map Item.size = is.map Item.size := by
  induction h with
  | nil => rfl
  | cons hij _ ih =>
    simp only [List.mem_cons, forall_eq_or_imp] at hm
    simp [size_of_means hij hm.1, ih hm.2]

theorem Call.Sound.goesDown (hc : c.Sound s) : c.GoesDown s where
  run := c.intern_descends s
  passage _ h := h.passage
  smaller _ h := h.size_lt
  acyclic way done rest v hd h a := by
    obtain ⟨τ, good, fits, -⟩ := hc.passage hd h
    refine Store.not_linked_self (σ := τ) ?_
    rintro i ⟨j, hj | hj, hi⟩
    · exact (fits j hj).within hi
    · exact (good.fits j hj).within hi
  apart way done rest v hd h := by
    obtain ⟨τ, -, -, apart, -⟩ := hc.passage hd h
    exact apart
  size hm way done rest v hd h := by
    obtain ⟨τ, -, -, -, value⟩ := hc.passage hd h
    rw [sizes_of_means value hm.parts, ← Item.size_eq]

end CodeModel
