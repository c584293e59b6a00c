import CodeModel.Intern.Canonical
import CodeModel.Proofs.Graph.Places
import Mathlib.Tactic.Tauto

/-! Taking stock depends on what items unfold to, and not on what is shared in them. -/

namespace CodeModel

def Item.FrozenIn (z : Frozen) (i : Item) : Prop := ∃ id, i.label? = some id ∧ id ∈ z

def Item.kindName : Item → String
  | entity k _ => k.name
  | definition _ => Definition.kindName
  | _ => ""

lemma Item.kindName_bare (i : Item) : i.bare.kindName = i.kindName := by cases i <;> rfl

namespace Stats

def reuse (z : Stats) : Item → Stats
  | .entity .. | .list .. => { z with hits := z.hits + 1 }
  | _ => z

def enter (z : Stats) : Item → Stats
  | .text _ => { z with strings := z.strings + 1 }
  | .entity .. => { z with entities := z.entities + 1, misses := z.misses + 1 }
  | .list .. => { z with lists := z.lists + 1, misses := z.misses + 1 }
  | _ => z

end Stats

structure Inventory where
  stock : Set Item
  stats : Stats
  failure : Option ModelError

namespace Inventory

variable {I : Inventory} {v : Item}

def fail (I : Inventory) (e : ModelError) : Inventory := { I with failure := some e }

open Classical in
noncomputable def visit (I : Inventory) : Item → Inventory
  | .definition _ => I
  | v =>
    if I.failure.isSome then I
    else if v ∈ I.stock then { I with stats := I.stats.reuse v }
    else { I with stock := insert v I.stock, stats := I.stats.enter v }

lemma visit_failed (hf : I.failure.isSome = true) : I.visit v = I := by
  cases v <;> simp [visit, hf]

lemma visit_known (hf : I.failure = none) (hv : v ∈ I.stock) (hd : ∀ d, v ≠ .definition d) :
    I.visit v = { I with stats := I.stats.reuse v } := by
  cases v with
  | definition d => exact absurd rfl (hd d)
  | _ => simp [visit, hf, hv]

lemma visit_new (hf : I.failure = none) (hv : v ∉ I.stock) (hd : ∀ d, v ≠ .definition d) :
    I.visit v = { I with stock := insert v I.stock, stats := I.stats.enter v } := by
  cases v with
  | definition d => exact absurd rfl (hd d)
  | _ => simp [visit, hf, hv]

lemma visit_found {α : Type} {o : Option α} {a : α} (hf : I.failure = none) (look : o = none ↔ v ∉ I.stock)
    (ho : o = some a) (hd : ∀ d, v ≠ .definition d) : I.visit v = { I with stats := I.stats.reuse v } := by
  apply visit_known hf _ hd
  by_contra hn
  rw [look.mpr hn] at ho
  cases ho

lemma visit_failure : (I.visit v).failure = I.failure := by
  cases v <;> simp only [visit] <;> split_ifs <;> rfl

lemma mem_visit_stock (hf : I.failure = none) (i : Item) :
    v ∈ (I.visit i.bare).stock ↔ v ∈ I.stock ∨ (∀ d, i ≠ .definition d) ∧ i.bare = v := by
  have entered (hd : ∀ d, i ≠ .definition d) (hd' : ∀ d, i.bare ≠ .definition d) :
      v ∈ (I.visit i.bare).stock ↔ v ∈ I.stock ∨ (∀ d, i ≠ .definition d) ∧ i.bare = v := by
    by_cases hv : i.bare ∈ I.stock
    · rw [visit_known hf hv hd']
      exact ⟨.inl, Or.rec id fun h => h.2 ▸ hv⟩
    · rw [visit_new hf hv hd', Set.mem_insert_iff, or_comm, eq_comm, and_iff_right hd]
  cases i with
  | definition d => exact ⟨.inl, Or.rec id fun h => absurd rfl (h.1 d)⟩
  | _ => exact entered (by simp) (by simp)

lemma visit_stock_subset {i : Item} (h : v ∈ (I.visit i.bare).stock) :
    v ∈ I.stock ∨ (∀ d, i ≠ .definition d) ∧ i.bare = v := by
  cases hf : I.failure with
  | some e =>
    rw [visit_failed (by simp [hf])] at h
    exact .inl h
  | none => exact (mem_visit_stock hf i).mp h

end Inventory

section Obstacle

open Classical

variable {settled frozen : Item → Prop} {i : Item} {is : List Item} {e : ModelError}

/-- The error at the first item on the way through the row that is frozen and not settled. -/
noncomputable def obstacle (settled frozen : Item → Prop) (is : List Item) : Option ModelError :=
  ((is.flatMap Item.preorder).find? fun a => frozen a ∧ ¬ settled a).map fun a => .preparedAfterFreeze a.kindName

@[simp] lemma obstacle_nil : obstacle settled frozen [] = none := rfl

lemma obstacle_cons : obstacle settled frozen (i :: is) =
    (obstacle settled frozen [i]).or (obstacle settled frozen is) := by
  simp only [obstacle, List.flatMap_cons, List.flatMap_nil, List.append_nil, List.find?_append, Option.map_or]

lemma obstacle_blocked (hz : frozen i) (hs : ¬ settled i) :
    obstacle settled frozen [i] = some (.preparedAfterFreeze i.kindName) := by
  simp only [obstacle, List.flatMap_cons, Item.preorder_eq i, List.cons_append]
  rw [List.find?_cons_of_pos (by simpa using ⟨hz, hs⟩), Option.map_some]

lemma obstacle_passed (h : ¬ (frozen i ∧ ¬ settled i)) :
    obstacle settled frozen [i] = obstacle settled frozen i.parts := by
  simp only [obstacle, List.flatMap_cons, List.flatMap_nil, List.append_nil, Item.preorder_eq i]
  rw [List.find?_cons_of_neg (by simpa using h)]

lemma obstacle_congr {settled' : Item → Prop} (h : ∀ a, frozen a → (settled a ↔ settled' a)) :
    obstacle settled frozen is = obstacle settled' frozen is := by
  have same (a : Item) : (frozen a ∧ ¬ settled a) = (frozen a ∧ ¬ settled' a) :=
    propext (and_congr_right fun hz => not_congr (h a hz))
  simp only [obstacle, same]

lemma obstacle_eq_none_iff :
    obstacle settled frozen [i] = none ↔ ∀ a, Item.Within a i → frozen a → settled a := by
  simp only [obstacle, List.flatMap_cons, List.flatMap_nil, List.append_nil, Option.map_eq_none_iff,
    List.find?_eq_none, Item.mem_preorder, decide_eq_true_eq, not_and_not_right]

lemma obstacle_eq_some_iff : obstacle settled frozen [i] = some e ↔
    ∃ before a after, i.preorder = before ++ a :: after ∧ (∀ b ∈ before, frozen b → settled b) ∧
      frozen a ∧ ¬ settled a ∧ e = .preparedAfterFreeze a.kindName := by
  simp only [obstacle, List.flatMap_cons, List.flatMap_nil, List.append_nil, Option.map_eq_some_iff,
    List.find?_eq_some_iff_append, decide_eq_true_eq, Bool.not_eq_true', decide_eq_false_iff_not, not_and_not_right]
  constructor
  · rintro ⟨a, ⟨⟨hz, hs⟩, before, after, split, hb⟩, rfl⟩
    exact ⟨before, a, after, split, hb, hz, hs, rfl⟩
  · rintro ⟨before, a, after, split, hb, hz, hs, rfl⟩
    exact ⟨a, ⟨⟨hz, hs⟩, before, after, split, hb⟩, rfl⟩

end Obstacle

/-- The row of items takes one inventory to the other. What is settled counts for nothing; what is frozen and
not settled fails; all else is visited once its parts are. -/
inductive Tallies (settled frozen : Item → Prop) : List Item → Inventory → Inventory → Prop
  | nil (I : Inventory) : Tallies settled frozen [] I I
  | failed {is : List Item} {I : Inventory} : I.failure.isSome = true → Tallies settled frozen is I I
  | settled {i : Item} {is : List Item} {I J : Inventory} : I.failure = none → settled i →
    Tallies settled frozen is I J → Tallies settled frozen (i :: is) I J
  | frozen {i : Item} {is : List Item} {I : Inventory} : I.failure = none → ¬ settled i → frozen i →
    Tallies settled frozen (i :: is) I (I.fail (.preparedAfterFreeze i.kindName))
  | visit {i : Item} {is : List Item} {I J K : Inventory} : I.failure = none → ¬ settled i → ¬ frozen i →
    Tallies settled frozen i.parts I J → Tallies settled frozen is (J.visit i.bare) K →
    Tallies settled frozen (i :: is) I K

namespace Tallies

variable {settled frozen : Item → Prop} {is js : List Item} {I J K : Inventory}

lemma of_failed (h : Tallies settled frozen is I J) (hf : I.failure.isSome = true) : J = I := by
  cases h with
  | nil | failed => rfl
  | settled hn | frozen hn | visit hn => simp [hn] at hf

lemma of_nil (h : Tallies settled frozen [] I J) : J = I := by
  cases h <;> rfl

theorem unique (h : Tallies settled frozen is I J) (h' : Tallies settled frozen js I K)
    (hu : List.Forall₂ (Item.Unfolds settled frozen) is js) : J = K := by
  -- the two rows agree on what is settled and what is frozen, so they go by the same case
  induction h generalizing js K with
  | nil =>
    cases hu
    exact h'.of_nil.symm
  | failed hf => exact (h'.of_failed hf).symm
  | settled hf hs _ ih =>
    cases hu with
    | cons hij hu =>
      have hs' := (hij.settled _ _ (.here _ _)).mp hs
      cases h' with
      | failed hf' => simp [hf] at hf'
      | settled _ _ h' => exact ih h' hu
      | frozen _ hs | visit _ hs => exact absurd hs' hs
  | frozen hf hs hz =>
    cases hu with
    | cons hij hu =>
      have hs' := (hij.settled _ _ (.here _ _)).not.mp hs
      have hz' := (hij.frozen _ _ (.here _ _)).mp hz
      cases h' with
      | failed hf' => simp [hf] at hf'
      | settled _ hs => exact absurd hs hs'
      | frozen => rw [← Item.kindName_bare, ← hij.value, Item.kindName_bare]
      | visit _ _ hz => exact absurd hz' hz
  | visit hf hs hz _ _ ihp ih =>
    cases hu with
    | cons hij hu =>
      have hs' := (hij.settled _ _ (.here _ _)).not.mp hs
      have hz' := (hij.frozen _ _ (.here _ _)).not.mp hz
      cases h' with
      | failed hf' => simp [hf] at hf'
      | settled _ hs => exact absurd hs hs'
      | frozen _ _ hz => exact absurd hz hz'
      | visit _ _ _ hp h' =>
        rw [← ihp hp hij.parts, hij.value] at h'
        exact ih h' hu

lemma calm (h : Tallies settled frozen is I J) (hf : J.failure = none) : I.failure = none := by
  cases h with
  | nil | failed => exact hf
  | settled hn | frozen hn | visit hn => exact hn

theorem stock_subset (h : Tallies settled frozen is I J) : J.stock ⊆ I.stock ∪ {v | ∃ i ∈ is, v ∈ i.values} := by
  induction h with
  | nil | failed | frozen => exact Set.subset_union_left
  | settled _ _ _ ih =>
    intro v hv
    apply (ih hv).imp_right
    rintro ⟨i, hi, hv⟩
    exact ⟨i, List.mem_cons_of_mem _ hi, hv⟩
  | @visit i is I J K _ _ _ _ _ ihp ih =>
    intro v hv
    rcases ih hv with hv | ⟨j, hj, hv⟩
    · rcases Inventory.visit_stock_subset hv with hv | ⟨hd, rfl⟩
      · apply (ihp hv).imp_right
        rintro ⟨p, hp, hv⟩
        exact ⟨i, List.mem_cons_self, Item.mem_values.mpr (.inl ⟨p, hp, hv⟩)⟩
      · exact .inr ⟨i, List.mem_cons_self, Item.mem_values.mpr (.inr ⟨hd, rfl⟩)⟩
    · exact .inr ⟨j, List.mem_cons_of_mem _ hj, hv⟩

theorem stock_failed {i : Item} (h : Tallies settled frozen [i] I J) (hf : J.failure ≠ none) :
    J.stock ⊆ I.stock ∪ {v | ∃ p ∈ i.parts, v ∈ p.values} := by
  cases h with
  | failed | frozen => exact Set.subset_union_left
  | settled _ _ rest =>
    rw [rest.of_nil]
    exact Set.subset_union_left
  | @visit _ _ _ J' _ _ _ _ parts rest =>
    have failed : J'.failure.isSome = true := by
      rw [rest.of_nil, Inventory.visit_failure] at hf
      exact Option.isSome_iff_ne_none.mpr hf
    rw [rest.of_nil, Inventory.visit_failed failed]
    exact parts.stock_subset

theorem stock (h : Tallies settled frozen is I J) (hf : J.failure = none)
    (hs : ∀ i, settled i → i.values ⊆ I.stock) : J.stock = I.stock ∪ {v | ∃ i ∈ is, v ∈ i.values} := by
  induction h with
  | nil => simp
  | failed h => simp [hf] at h
  | frozen => simp [Inventory.fail] at hf
  | settled _ hi _ ih =>
    rw [ih hf hs]
    have known := hs _ hi
    ext v
    simp only [Set.mem_union, Set.mem_ofPred_eq, List.mem_cons, exists_eq_or_imp]
    have := @known v
    tauto
  | @visit i is I J K _ _ _ _ hrest ihp ih =>
    have calm : J.failure = none := Inventory.visit_failure.symm.trans (hrest.calm hf)
    have visited : (J.visit i.bare).stock = I.stock ∪ i.values := by
      ext v
      rw [Inventory.mem_visit_stock calm, ihp calm hs, Set.mem_union, Set.mem_union, Item.mem_values, or_assoc]
      rfl
    rw [ih hf fun j hj v hv => visited ▸ .inl (hs j hj hv), visited]
    ext v
    simp only [Set.mem_union, Set.mem_ofPred_eq, List.mem_cons, exists_eq_or_imp]
    tauto

theorem failure (h : Tallies settled frozen is I J)
    (hs : ∀ i, settled i → ∀ a, Item.Within a i → frozen a → settled a) :
    J.failure = I.failure.or (obstacle settled frozen is) := by
  induction h with
  | nil => simp
  | failed hf => rw [Option.or_of_isSome hf]
  | settled _ hi _ ih => rw [obstacle_cons, obstacle_eq_none_iff.mpr (hs _ hi), Option.none_or, ih]
  | frozen hf hi hz => simp [obstacle_cons, obstacle_blocked hz hi, hf, Inventory.fail]
  | visit hf hi hz _ _ ihp ih =>
    rw [obstacle_cons, obstacle_passed (by simp [hz]), ih, Inventory.visit_failure, ihp, hf, Option.none_or,
      Option.none_or]

end Tallies

end CodeModel
