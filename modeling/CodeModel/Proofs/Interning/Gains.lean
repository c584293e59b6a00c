import CodeModel.Proofs.Interning.Inventory
import CodeModel.Proofs.Tables.Census

namespace CodeModel

namespace Item

def IsList : Item → Prop
  | list .. => True
  | _ => False

def IsText : Item → Prop
  | text _ => True
  | _ => False

end Item

section Gained

variable {sort : Item → Prop} {A B C : Set Item} {v : Item}

noncomputable def gained (sort : Item → Prop) (A B : Set Item) : ℕ∞ := {v | sort v ∧ v ∈ B ∧ v ∉ A}.encard

lemma gained_nothing (h : ∀ v ∈ B, sort v → v ∈ A) : gained sort A B = 0 := by
  rw [gained, Set.encard_eq_zero, Set.eq_empty_iff_forall_notMem]
  rintro v ⟨hs, hv, hn⟩
  exact hn (h v hv hs)

lemma gained_none (h : B ⊆ A) : gained sort A B = 0 := gained_nothing fun _ hv _ => h hv

lemma gained_trans (h : A ⊆ B) (h' : B ⊆ C) : gained sort A C = gained sort A B + gained sort B C := by
  have split : {v | sort v ∧ v ∈ C ∧ v ∉ A} = {v | sort v ∧ v ∈ B ∧ v ∉ A} ∪ {v | sort v ∧ v ∈ C ∧ v ∉ B} := by
    ext v
    have := @h v
    have := @h' v
    simp only [Set.mem_ofPred_eq, Set.mem_union]
    tauto
  rw [gained, split, Set.encard_union_eq]
  · rfl
  · exact Set.disjoint_left.mpr fun v hv hn => hn.2.2 hv.2.1

lemma gained_insert (hs : sort v) (hv : v ∉ A) : gained sort A (insert v A) = 1 := by
  have new : {u | sort u ∧ u ∈ insert v A ∧ u ∉ A} = {v} := by
    ext u
    simp only [Set.mem_ofPred_eq, Set.mem_insert_iff, Set.mem_singleton_iff]
    constructor
    · rintro ⟨-, rfl | hu, hn⟩
      · rfl
      · exact absurd hu hn
    · rintro rfl
      exact ⟨hs, .inl rfl, hv⟩
  rw [gained, new, Set.encard_singleton]

lemma gained_insert_other (hs : ¬ sort v) : gained sort A (insert v A) = 0 := by
  rw [gained, Set.encard_eq_zero, Set.eq_empty_iff_forall_notMem]
  rintro u ⟨hu, rfl | hu', hn⟩
  · exact hs hu
  · exact hn hu'

lemma count_insert {m n : ℕ} (hv : v ∉ A) (h : sort v ∧ n = m + 1 ∨ ¬ sort v ∧ n = m) :
    (n : ℕ∞) = m + gained sort A (insert v A) := by
  rcases h with ⟨hs, rfl⟩ | ⟨hs, rfl⟩
  · rw [gained_insert hs hv, Nat.cast_add, Nat.cast_one]
  · rw [gained_insert_other hs, add_zero]

end Gained

namespace Inventory

variable {I J K : Inventory}

structure Gains (I J : Inventory) : Prop where
  stock : I.stock ⊆ J.stock
  entities : (J.stats.entities : ℕ∞) = I.stats.entities + gained Item.IsEntity I.stock J.stock
  lists : (J.stats.lists : ℕ∞) = I.stats.lists + gained Item.IsList I.stock J.stock
  strings : (J.stats.strings : ℕ∞) = I.stats.strings + gained Item.IsText I.stock J.stock
  misses : J.stats.misses + I.stats.entities + I.stats.lists = I.stats.misses + J.stats.entities + J.stats.lists
  hits : I.stats.hits ≤ J.stats.hits

namespace Gains

lemma refl (I : Inventory) : Gains I I := by
  constructor <;> simp [gained_none]

lemma fail (I : Inventory) (e : ModelError) : Gains I (I.fail e) := by
  constructor <;> simp [gained_none, Inventory.fail]

lemma trans (h : Gains I J) (h' : Gains J K) : Gains I K where
  stock := h.stock.trans h'.stock
  entities := by rw [gained_trans h.stock h'.stock, h'.entities, h.entities, add_assoc]
  lists := by rw [gained_trans h.stock h'.stock, h'.lists, h.lists, add_assoc]
  strings := by rw [gained_trans h.stock h'.stock, h'.strings, h.strings, add_assoc]
  misses := by
    have := h.misses
    have := h'.misses
    omega
  hits := h.hits.trans h'.hits

lemma reuse (I : Inventory) (v : Item) : Gains I { I with stats := I.stats.reuse v } := by
  constructor <;> cases v <;> simp [gained_none, Stats.reuse]

lemma enter {v : Item} (hv : v ∉ I.stock) :
    Gains I { I with stock := insert v I.stock, stats := I.stats.enter v } where
  stock := Set.subset_insert v I.stock
  entities := count_insert hv (by cases v <;> simp [Stats.enter, Item.IsEntity])
  lists := count_insert hv (by cases v <;> simp [Stats.enter, Item.IsList])
  strings := count_insert hv (by cases v <;> simp [Stats.enter, Item.IsText])
  misses := by cases v <;> simp [Stats.enter] <;> omega
  hits := by cases v <;> simp [Stats.enter]

lemma visit (I : Inventory) (v : Item) : Gains I (I.visit v) := by
  cases hf : I.failure with
  | some e =>
    rw [visit_failed (by simp [hf])]
    exact refl I
  | none =>
    by_cases hd : ∃ d, v = .definition d
    · obtain ⟨d, rfl⟩ := hd
      exact refl I
    rw [not_exists] at hd
    by_cases hv : v ∈ I.stock
    · exact visit_known hf hv hd ▸ reuse I v
    · exact visit_new hf hv hd ▸ enter hv

lemma unmissed (h : Gains I J) (hs : ∀ v ∈ J.stock, v.IsEntity ∨ v.IsList → v ∈ I.stock) :
    J.stats.entities = I.stats.entities ∧ J.stats.lists = I.stats.lists ∧ J.stats.misses = I.stats.misses := by
  have entities := h.entities
  have lists := h.lists
  have misses := h.misses
  rw [gained_nothing fun v hv he => hs v hv (.inl he), add_zero, Nat.cast_inj] at entities
  rw [gained_nothing fun v hv hl => hs v hv (.inr hl), add_zero, Nat.cast_inj] at lists
  refine ⟨entities, lists, ?_⟩
  omega

lemma unchanged (h : Gains I J) (hs : J.stock ⊆ I.stock) : J.stats.entities = I.stats.entities ∧
    J.stats.lists = I.stats.lists ∧ J.stats.strings = I.stats.strings ∧ J.stats.misses = I.stats.misses := by
  obtain ⟨entities, lists, misses⟩ := h.unmissed fun v hv _ => hs hv
  have strings := h.strings
  rw [gained_none hs, add_zero, Nat.cast_inj] at strings
  exact ⟨entities, lists, strings, misses⟩

end Gains

end Inventory

lemma Tallies.gains {settled frozen : Item → Prop} {is : List Item} {I J : Inventory}
    (h : Tallies settled frozen is I J) :
    I.Gains J := by
  induction h with
  | nil | failed => exact .refl _
  | settled _ _ _ ih => exact ih
  | frozen => exact .fail _ _
  | visit _ _ _ _ _ ihp ih => exact (ihp.trans (.visit _ _)).trans ih

end CodeModel
