import CodeModel.Proofs.Graph.Bare
import Mathlib.Data.Set.Insert

/-! Two items of one structural value have the same places, and equal values in them. -/

namespace CodeModel

namespace Item

/-- Items `a` and `b` stand in the same place within `i` and within `j`. -/
inductive Along : Item → Item → Item → Item → Prop
  | here (i j : Item) : Along i j i j
  | part {i j p q a b : Item} {n : Nat} :
      i.parts[n]? = some p → j.parts[n]? = some q → Along p q a b → Along i j a b

variable {i j p q a b : Item}

lemma Along.trans (h : Along i j p q) (h' : Along p q a b) : Along i j a b := by
  induction h with
  | here => exact h'
  | part hp hq _ ih => exact .part hp hq (ih h')

lemma Along.within_left (h : Along i j a b) : Within a i := by
  induction h with
  | here i => exact .refl i
  | part hp _ _ ih => exact .part (List.mem_of_getElem? hp) ih

lemma Along.within_right (h : Along i j a b) : Within b j := by
  induction h with
  | here i j => exact .refl j
  | part _ hq _ ih => exact .part (List.mem_of_getElem? hq) ih

lemma Along.bare_eq (h : Along i j a b) (hb : j.bare = i.bare) : b.bare = a.bare := by
  induction h with
  | here => exact hb
  | @part i j p q a b n hp hq _ ih =>
    refine ih ?_
    have parts : j.parts.map bare = i.parts.map bare := by rw [← parts_bare, ← parts_bare, hb]
    have at' := congrArg (·[n]?) parts
    simpa [hp, hq] using at'

lemma isModel_of_part (hp : p ∈ i.parts) (hm : p.IsModel) (hn : p ≠ nothing) : i.IsModel := by
  cases i with
  | nothing | text | definition => trivial
  | list k l =>
    obtain ⟨x, -, rfl⟩ := List.mem_map.mp hp
    exact hm
  | entity k x =>
    obtain ⟨id, v⟩ := x
    cases k with
    | probe series =>
      obtain ⟨hash, tag, _ | child⟩ := v
      · exact absurd (by simpa [Kind.parts, Probe.parts] using hp) hn
      · obtain rfl : p = entity (.probe series) child := by simpa [Kind.parts, Probe.parts] using hp
        exact hm
    | _ => rfl

lemma isModel_of_within (hm : a.IsModel) (hn : a ≠ nothing) (h : Within a i) : i.IsModel := by
  induction h with
  | refl => exact hm
  | part hp hw ih =>
    refine isModel_of_part hp ih ?_
    rintro rfl
    rcases within_iff.mp hw with rfl | ⟨q, hq, -⟩
    · exact hn rfl
    · simp at hq

/-- Items of one structural value in which the same places are settled and the same places are frozen. -/
structure Unfolds (settled frozen : Item → Prop) (i j : Item) : Prop where
  value : j.bare = i.bare
  settled : ∀ a b, Along i j a b → (settled a ↔ settled b)
  frozen : ∀ a b, Along i j a b → (frozen a ↔ frozen b)

variable {settled frozen : Item → Prop}

lemma Unfolds.part (h : Unfolds settled frozen i j) {n : Nat} (hp : i.parts[n]? = some p)
    (hq : j.parts[n]? = some q) : Unfolds settled frozen p q where
  value := (Along.part hp hq (.here p q)).bare_eq h.value
  settled _ _ hab := h.settled _ _ (.part hp hq hab)
  frozen _ _ hab := h.frozen _ _ (.part hp hq hab)

theorem Unfolds.parts (h : Unfolds settled frozen i j) :
    List.Forall₂ (Unfolds settled frozen) i.parts j.parts := by
  have length : i.parts.length = j.parts.length := by
    simpa [parts_bare] using congrArg (fun i => i.parts.length) h.value.symm
  exact List.forall₂_iff_get.mpr ⟨length, fun n hn hn' =>
    h.part (List.getElem?_eq_getElem hn) (List.getElem?_eq_getElem hn')⟩

lemma marks_of_parts {P : Item → Prop} (here : P i ↔ P j)
    (below : List.Forall₂ (fun p q => ∀ a b, Along p q a b → (P a ↔ P b)) i.parts j.parts) (h : Along i j a b) :
    P a ↔ P b := by
  cases h with
  | here => exact here
  | part ha hb hab =>
    obtain ⟨hn, rfl⟩ := List.getElem?_eq_some_iff.mp ha
    obtain ⟨hn', rfl⟩ := List.getElem?_eq_some_iff.mp hb
    exact below.get hn hn' a b hab

lemma Unfolds.of_parts (value : j.bare = i.bare) (hs : settled i ↔ settled j) (hz : frozen i ↔ frozen j)
    (hp : List.Forall₂ (Unfolds settled frozen) i.parts j.parts) : Unfolds settled frozen i j where
  value := value
  settled _ _ := marks_of_parts hs (hp.imp fun _ _ h => h.settled)
  frozen _ _ := marks_of_parts hz (hp.imp fun _ _ h => h.frozen)

def values (i : Item) : Set Item := {v | ∃ a, Within a i ∧ (∀ d, a ≠ .definition d) ∧ a.bare = v}

lemma mem_values {i v : Item} :
    v ∈ i.values ↔ (∃ p ∈ i.parts, v ∈ p.values) ∨ (∀ d, i ≠ .definition d) ∧ i.bare = v := by
  constructor
  · rintro ⟨a, ha, hd, rfl⟩
    rcases within_iff.mp ha with rfl | ⟨p, hp, ha⟩
    · exact .inr ⟨hd, rfl⟩
    · exact .inl ⟨p, hp, a, ha, hd, rfl⟩
  · rintro (⟨p, hp, a, ha, hd, rfl⟩ | ⟨hd, rfl⟩)
    · exact ⟨a, .part hp ha, hd, rfl⟩
    · exact ⟨i, .refl i, hd, rfl⟩

instance : WellFoundedRelation Item where
  rel p i := p ∈ i.parts
  wf := ⟨induction fun i ih => .intro i ih⟩

def preorder (i : Item) : List Item := i :: i.parts.attach.flatMap fun ⟨p, _⟩ => p.preorder
termination_by i

lemma preorder_eq (i : Item) : i.preorder = i :: i.parts.flatMap preorder := by
  rw [preorder, List.flatMap_subtype fun _ _ => rfl, List.unattach_attach]

lemma mem_preorder : a ∈ i.preorder ↔ Within a i := by
  induction i using Item.induction with
  | step i ih =>
    rw [preorder_eq, within_iff, List.mem_cons, List.mem_flatMap]
    exact or_congr_right (exists_congr fun p => and_congr_right fun hp => ih p hp)

lemma preorder_infix (h : Within a i) : a.preorder <:+: i.preorder := by
  induction h with
  | refl => exact List.infix_rfl
  | @part p i hp _ ih =>
    have part : p.preorder <:+: (i.parts.map preorder).flatten := List.infix_of_mem_flatten (List.mem_map_of_mem hp)
    rw [preorder_eq i, List.flatMap_def]
    exact (ih.trans part).trans (List.suffix_cons _ _).isInfix

lemma values_subset_of_bare (h : i.bare = j.bare) : i.values ⊆ j.values := by
  induction i using Item.induction generalizing j with
  | step i ih =>
    intro v hv
    rcases mem_values.mp hv with ⟨p, hp, hv⟩ | ⟨hd, rfl⟩
    · have parts : i.parts.map bare = j.parts.map bare := by rw [← parts_bare, ← parts_bare, h]
      obtain ⟨q, hq, value⟩ := List.mem_map.mp (parts ▸ List.mem_map_of_mem hp)
      exact mem_values.mpr (.inl ⟨q, hq, ih p hp value.symm hv⟩)
    · refine mem_values.mpr (.inr ⟨fun d hj => ?_, h.symm⟩)
      cases i with
      | definition e => exact hd e rfl
      | _ => simp [hj, bare] at h

lemma values_congr (h : i.bare = j.bare) : i.values = j.values :=
  (values_subset_of_bare h).antisymm (values_subset_of_bare h.symm)

lemma IsModel.within (hm : j.IsModel) (h : Within i j) : i.IsModel := by
  induction h with
  | refl => exact hm
  | part hp _ ih => exact ih (hm.parts _ hp)

end Item

end CodeModel
