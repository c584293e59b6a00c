import CodeModel.Intern.Prepare
import CodeModel.Proofs.Graph.Marking
import CodeModel.Proofs.Tables.Kinds
import Mathlib.Order.Nat
import Mathlib.Tactic.Tauto

/-! Interning replaces the items of a row by items of the same structural value. -/

namespace CodeModel

def LabelsAny (is : List Item) (id : Nat) : Prop := ∃ i ∈ is, i.Labels id

lemma labelsAny_append {is js : List Item} {id : Nat} :
    LabelsAny (is ++ js) id ↔ LabelsAny is id ∨ LabelsAny js id := by
  simp [LabelsAny, or_and_right, exists_or]

lemma labelsAny_cons {i : Item} {is : List Item} {id : Nat} :
    LabelsAny (i :: is) id ↔ i.Labels id ∨ LabelsAny is id := by
  simp [LabelsAny]

@[simp] lemma labelsAny_nil (id : Nat) : ¬ LabelsAny [] id := by simp [LabelsAny]

lemma labelsAny_parts {i : Item} {id : Nat} (h : LabelsAny i.parts id) : i.Labels id :=
  Item.labels_iff.mpr (.inr h)

structure Work.Good (h : Hasher) (σ : Store) (w : Work) : Prop where
  sound : w.provider.Sound h
  fits : w.provider.Fits h σ
  object : ∀ id i, σ.object id = some i → id < w.next
  list : ∀ id a, σ.list id = some a → id < w.next

lemma Work.Good.withEvents {h : Hasher} {σ : Store} {w : Work} (hw : Work.Good h σ w) (events : List Event) :
    Work.Good h σ { w with events } :=
  ⟨hw.sound, hw.fits, hw.object, hw.list⟩

def Item.Means (i j : Item) : Prop := i.IsModel → j.bare = i.bare

lemma Item.Means.refl (i : Item) : i.Means i := fun _ => rfl

lemma Item.Means.trans {i j l : Item} (hij : i.Means j) (hjl : j.Means l) : i.Means l := by
  intro hi
  have hj : j.IsModel := by rwa [← isModel_bare, hij hi, isModel_bare]
  rw [hjl hj, hij hi]

structure Rewrite (s : Setting) (keep : Nat → Prop) (σ : Store) (w : Work) (is : List Item) (τ : Store)
    (v : Work) (js : List Item) : Prop where
  good : v.Good s.hasher τ
  fits : ∀ j ∈ js, τ.Fits j
  extends' : σ.Extends τ
  texts : τ.text = σ.text
  grows : w.provider.Grows s.hasher v.provider
  next : w.next ≤ v.next
  calm : v.failure = none → w.failure = none
  value : List.Forall₂ Item.Means is js
  persists : ∀ id i, σ.object id = some i → ∃ j, τ.object id = some j ∧ i.Means j
  changes : ∀ id, τ.object id = σ.object id ∨ w.next ≤ id ∨
    LabelsAny is id ∧ ¬ keep id ∧ ¬ w.provider.Registered id ∧ id ∉ s.frozen
  labels : ∀ id, LabelsAny js id → LabelsAny is id ∨ v.provider.Registered id ∨ w.next ≤ id
  registered : ∀ id, v.provider.Registered id →
    (LabelsAny is id ∧ ¬ keep id) ∨ w.provider.Registered id ∨ w.next ≤ id
  recorded : ∀ k, ∀ r ∈ v.provider.lists k, r ∈ w.provider.lists k ∨ w.next ≤ r.storage
  tables : (Kind.protocol s.hasher).Run w.provider.entities v.provider.entities

variable {s : Setting} {keep keep' : Nat → Prop} {σ τ υ : Store} {w v u : Work} {is js ks : List Item}

namespace Rewrite

lemma means_refl (is : List Item) : List.Forall₂ Item.Means is is :=
  List.forall₂_same.mpr fun i _ => .refl i

lemma refl (hw : w.Good s.hasher σ) (hf : ∀ i ∈ is, σ.Fits i) (hp : v.provider = w.provider)
    (hn : v.next = w.next) (hc : v.failure = none → w.failure = none) :
    Rewrite s keep σ w is σ v is where
  good := ⟨hp ▸ hw.sound, hp ▸ hw.fits, hn ▸ hw.object, hn ▸ hw.list⟩
  fits := hf
  extends' := .refl σ
  texts := rfl
  grows := hp ▸ .refl s.hasher w.provider
  next := hn.ge
  calm := hc
  value := means_refl is
  persists _ i hi := ⟨i, hi, .refl i⟩
  changes _ := .inl rfl
  labels _ h := .inl h
  registered _ h := .inr (.inl (hp ▸ h))
  recorded _ _ hr := .inl (hp ▸ hr)
  tables := hp ▸ .refl

lemma means_trans (h : List.Forall₂ Item.Means is js) (h' : List.Forall₂ Item.Means js ks) :
    List.Forall₂ Item.Means is ks := by
  induction h generalizing ks with
  | nil => exact h'
  | cons hij _ ih =>
    cases h' with
    | cons hjk h' => exact .cons (hij.trans hjk) (ih h')

lemma trans (h : Rewrite s keep σ w is τ v js) (h' : Rewrite s keep τ v js υ u ks) :
    Rewrite s keep σ w is υ u ks where
  good := h'.good
  fits := h'.fits
  extends' := h.extends'.trans h'.extends'
  texts := h'.texts.trans h.texts
  grows := h.grows.trans h'.grows
  next := h.next.trans h'.next
  calm hf := h.calm (h'.calm hf)
  value := means_trans h.value h'.value
  persists id i hi := by
    obtain ⟨j, hj, hij⟩ := h.persists id i hi
    obtain ⟨k, hk, hjk⟩ := h'.persists id j hj
    exact ⟨k, hk, hij.trans hjk⟩
  changes id := by
    have later : ¬ v.provider.Registered id → ¬ w.provider.Registered id := fun hn hr =>
      hn (h.grows.registered hr)
    rcases h'.changes id with he | hn | ⟨hl, hk, hr, hz⟩
    · exact he ▸ h.changes id
    · exact .inr (.inl (h.next.trans hn))
    · rcases h.labels id hl with hl | hr' | hn
      · exact .inr (.inr ⟨hl, hk, later hr, hz⟩)
      · exact (hr hr').elim
      · exact .inr (.inl hn)
  labels id hl := by
    rcases h'.labels id hl with hl | hr | hn
    · apply (h.labels id hl).imp_right
      intro hr
      exact hr.imp_left h'.grows.registered
    · exact .inr (.inl hr)
    · exact .inr (.inr (h.next.trans hn))
  registered id hr := by
    rcases h'.registered id hr with ⟨hl, hk⟩ | hr | hn
    · rcases h.labels id hl with hl | hr | hn
      · exact .inl ⟨hl, hk⟩
      · exact h.registered id hr
      · exact .inr (.inr hn)
    · exact h.registered id hr
    · exact .inr (.inr (h.next.trans hn))
  recorded k r hr := by
    rcases h'.recorded k r hr with hr | hn
    · exact h.recorded k r hr
    · exact .inr (h.next.trans hn)
  tables := h.tables.trans h'.tables

lemma weaken (h : Rewrite s keep' σ w is τ v js) (hk : ∀ id < w.next, keep id → keep' id) :
    Rewrite s keep σ w is τ v js where
  __ := h
  changes id := by
    rcases h.changes id with he | hn | ⟨hl, hk', hc⟩
    · exact .inl he
    · exact .inr (.inl hn)
    · rcases Nat.lt_or_ge id w.next with hlt | hn
      · exact .inr (.inr ⟨hl, fun hid => hk' (hk id hlt hid), hc⟩)
      · exact .inr (.inl hn)
  registered id hr := by
    rcases h.registered id hr with ⟨hl, hk'⟩ | hr | hn
    · rcases Nat.lt_or_ge id w.next with hlt | hn
      · exact .inl ⟨hl, fun hid => hk' (hk id hlt hid)⟩
      · exact .inr (.inr hn)
    · exact .inr (.inl hr)
    · exact .inr (.inr hn)

lemma object_eq (h : Rewrite s keep σ w is τ v js) (hw : w.Good s.hasher σ) {id : Nat} {i : Item}
    (hi : σ.object id = some i) (hk : keep id ∨ w.provider.Registered id ∨ id ∈ s.frozen ∨ ¬ LabelsAny is id) :
    τ.object id = σ.object id := by
  rcases h.changes id with he | hn | ⟨hl, hk', hr, hz⟩
  · exact he
  · have := hw.object id i hi
    omega
  · exact absurd hk (by simp [hl, hk', hr, hz])

lemma fits_of_keep (h : Rewrite s keep σ w is τ v js) (hw : w.Good s.hasher σ) {i : Item} (hi : σ.Fits i)
    (hk : ∀ id, i.Labels id → keep id) : τ.Fits i := by
  apply hi.mono h.extends'
  intro id hl
  obtain ⟨j, -, -, hj⟩ := hi.object_of_labels hl
  exact h.object_eq hw hj (.inl (hk id hl))

theorem frame {i j : Item} {pre post : List Item} (hw : w.Good s.hasher σ)
    (hf : ∀ p ∈ pre ++ post, σ.Fits p)
    (h : Rewrite s (fun id => keep id ∨ LabelsAny (pre ++ post) id) σ w [i] τ v [j]) :
    Rewrite s keep σ w (pre ++ i :: post) τ v (pre ++ j :: post) where
  __ := h
  fits p hp := by
    have beside (hp : p ∈ pre ++ post) : τ.Fits p :=
      h.fits_of_keep hw (hf p hp) fun id hl => .inr ⟨p, hp, hl⟩
    simp only [List.mem_append, List.mem_cons] at hp beside
    rcases hp with hp | rfl | hp
    · exact beside (.inl hp)
    · exact h.fits p (by simp)
    · exact beside (.inr hp)
  value := List.rel_append (means_refl pre) (.cons (List.forall₂_cons.mp h.value).1 (means_refl post))
  changes id := (h.changes id).imp_right fun hc => hc.imp_right fun ⟨hl, hk, hr⟩ => by
    simp only [labelsAny_cons, labelsAny_nil, or_false] at hl
    exact ⟨labelsAny_append.mpr (.inr (labelsAny_cons.mpr (.inl hl))), fun hid => hk (.inl hid), hr⟩
  labels id hl := by
    simp only [labelsAny_append, labelsAny_cons] at hl ⊢
    have slot := h.labels id
    simp only [labelsAny_cons, labelsAny_nil, or_false] at slot
    tauto
  registered id hr := by
    have slot := h.registered id hr
    simp only [labelsAny_append, labelsAny_cons, labelsAny_nil, or_false] at slot ⊢
    tauto

lemma stay {ms : List Item} (h : Rewrite s (fun _ => True) σ w is τ v js) (hw : w.Good s.hasher σ)
    (hf : ∀ i ∈ ms, σ.Fits i) : Rewrite s keep σ w ms τ v ms where
  __ := h
  fits i hi := h.fits_of_keep hw (hf i hi) fun _ _ => trivial
  value := means_refl ms
  changes id := by
    rcases h.changes id with he | hn | hc
    · exact .inl he
    · exact .inr (.inl hn)
    · exact absurd trivial hc.2.1
  labels _ h := .inl h
  registered id hr := by
    rcases h.registered id hr with ⟨-, hk⟩ | hc
    · exact absurd trivial hk
    · exact .inr hc

end Rewrite

lemma Rewrite.unused {i : Item} {a b : Nat} (h : Rewrite s keep σ w i.parts τ v js) (hw : w.Good s.hasher σ)
    (hi : σ.Fits i) (ha : i.label? = some a) (hb : v.next ≤ b ∨ b = a ∧ ¬ w.provider.Registered a) :
    ¬ LabelsAny js b ∧ ¬ v.provider.Registered b := by
  have below : a < w.next := hw.object a i (hi.object (.refl i) ha)
  rcases hb with hb | ⟨rfl, hr⟩
  · constructor
    · rintro ⟨p, hp, hl⟩
      obtain ⟨q, -, -, hq⟩ := (h.fits p hp).object_of_labels hl
      have := h.good.object b q hq
      omega
    · rintro ⟨k, x, hx, rfl⟩
      have := h.good.object x.id _ (h.good.fits _ (.entry hx)).knows
      omega
  · have own : ¬ v.provider.Registered b := by
      intro hr'
      rcases h.registered b hr' with ⟨⟨p, hp, hl⟩, -⟩ | hr' | hn
      · exact hi.acyclic ha p hp hl
      · exact hr hr'
      · omega
    refine ⟨fun hl => ?_, own⟩
    rcases h.labels b hl with ⟨p, hp, hl⟩ | hr' | hn
    · exact hi.acyclic ha p hp hl
    · exact own hr'
    · omega

theorem Rewrite.wrap {i j : Item} {a b : Nat} (h : Rewrite s keep σ w i.parts τ v j.parts)
    (hw : w.Good s.hasher σ) (hi : σ.Fits i) (ha : i.label? = some a) (hb : j.label? = some b)
    (value : i.Means j) (hp : u.provider = v.provider) (hn : v.next ≤ u.next)
    (hc : u.failure = none → v.failure = none)
    (hlabel : v.next ≤ b ∧ b < u.next ∨
      b = a ∧ ¬ keep a ∧ ¬ w.provider.Registered a ∧ a ∉ s.frozen) :
    Rewrite s keep σ w [i] (τ.put b j) u [j] := by
  have known : σ.object a = some i := hi.object (.refl i) ha
  have hawn : a < w.next := hw.object a i known
  have unused := h.unused hw hi ha (hlabel.imp And.left fun hl => ⟨hl.1, hl.2.2.1⟩)
  have bound : b < u.next := by
    rcases hlabel with ⟨-, hb⟩ | ⟨rfl, -⟩
    · exact hb
    · exact hawn.trans_le (h.next.trans hn)
  refine ⟨⟨hp ▸ h.good.sound, ?_, fun id q hq => ?_, fun id q hq => (h.good.list id q hq).trans_le hn⟩, ?_, ?_,
    h.texts, hp ▸ h.grows, h.next.trans hn, fun hf => h.calm (hc hf), .cons value .nil, fun id q hq => ?_,
    fun id => ?_, fun id hl => ?_, fun id hr => ?_, hp ▸ h.recorded, hp ▸ h.tables⟩
  · rw [hp]
    exact h.good.sound.fits_mono h.good.fits (Store.put_extends τ b j) fun id hr =>
      Store.put_other fun he => unused.2 (he ▸ hr)
  · by_cases he : id = b
    · exact he ▸ bound
    · rw [Store.put_other he] at hq
      exact (h.good.object id q hq).trans_le hn
  · simp only [List.mem_singleton, forall_eq]
    refine Store.fits_iff.mpr ⟨?_, fun p hpart => (h.fits p hpart).put fun hl => unused.1 ⟨p, hpart, hl⟩⟩
    cases j <;> simp_all [Item.label?, Store.Knows]
  · exact h.extends'.trans (Store.put_extends τ b j)
  · by_cases he : id = b
    · refine ⟨j, by simp [he], ?_⟩
      rcases hlabel with ⟨hb, -⟩ | ⟨rfl, -⟩
      · have := hw.object id q hq
        have := h.next
        omega
      · have : q = i := by simpa [he, known] using hq.symm
        exact this ▸ value
    · rw [Store.put_other he]
      exact h.persists id q hq
  · by_cases he : id = b
    · subst he
      rcases hlabel with ⟨hb, -⟩ | ⟨rfl, hk⟩
      · exact .inr (.inl (h.next.trans hb))
      · exact .inr (.inr ⟨⟨i, by simp, Item.labels_iff.mpr (.inl ha)⟩, hk⟩)
    · rw [Store.put_other he]
      apply (h.changes id).imp_right
      intro hc
      apply hc.imp_right
      intro hc
      exact ⟨⟨i, by simp, labelsAny_parts hc.1⟩, hc.2⟩
  · simp only [labelsAny_cons, labelsAny_nil, or_false, hp] at hl ⊢
    rcases Item.labels_iff.mp hl with hid | hl
    · obtain rfl : b = id := by simpa [hb] using hid
      rcases hlabel with ⟨hb, -⟩ | ⟨rfl, -⟩
      · exact .inr (.inr (h.next.trans hb))
      · exact .inl (Item.labels_iff.mpr (.inl ha))
    · exact (h.labels id hl).imp_left labelsAny_parts
  · simp only [labelsAny_cons, labelsAny_nil, or_false]
    exact (h.registered id (hp ▸ hr)).imp_left fun hl => ⟨labelsAny_parts hl.1, hl.2⟩

end CodeModel
