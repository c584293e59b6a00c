import CodeModel.Proofs.Interning.Gains

namespace CodeModel

namespace Item

variable {settled : Item → Prop} {i a v : Item}

open Classical in
/-- The item and all that lies within it, without what is settled and what lies within that: once for each way that
leads to it. -/
noncomputable def unsettled (settled : Item → Prop) (i : Item) : List Item :=
  if settled i then [] else i :: i.parts.attach.flatMap fun ⟨p, _⟩ => p.unsettled settled
termination_by i

lemma unsettled_settled (h : settled i) : i.unsettled settled = [] := by
  rw [unsettled, if_pos h]

lemma unsettled_open (h : ¬ settled i) : i.unsettled settled = i :: i.parts.flatMap (unsettled settled) := by
  rw [unsettled, if_neg h, List.flatMap_subtype fun _ _ => rfl, List.unattach_attach]

def IsLookedUp (i : Item) : Prop := i.IsEntity ∨ i.IsFullList

open Classical in
noncomputable def lookups (settled : Item → Prop) (i : Item) : List Item :=
  (i.unsettled settled).filter fun a => a.IsLookedUp

lemma lookups_settled (h : settled i) : i.lookups settled = [] := by
  rw [lookups, unsettled_settled h, List.filter_nil]

open Classical in
noncomputable def ownLookup (i : Item) : List Item := if i.IsLookedUp then [i] else []

lemma lookups_open (h : ¬ settled i) :
    i.lookups settled = i.ownLookup ++ i.parts.flatMap (lookups settled) := by
  classical
  rw [lookups, unsettled_open h, List.filter_cons, List.filter_flatMap, ownLookup]
  by_cases hi : i.IsLookedUp <;> simp [hi] <;> rfl

lemma not_settled_of_unsettled (h : a ∈ i.unsettled settled) : ¬ settled a := by
  induction i using Item.induction with
  | step i ih =>
    by_cases hi : settled i
    · simp [unsettled_settled hi] at h
    · rw [unsettled_open hi, List.mem_cons, List.mem_flatMap] at h
      rcases h with rfl | ⟨p, hp, h⟩
      · exact hi
      · exact ih p hp h

lemma mem_lookups : a ∈ i.lookups settled ↔ a ∈ i.unsettled settled ∧ a.IsLookedUp := by
  simp [lookups]

lemma isLookedUp_bare (i : Item) : i.bare.IsLookedUp ↔ i.IsLookedUp := by
  cases i <;> simp [IsLookedUp, IsEntity, IsFullList, bare, EntityList.bare]

lemma isFullList_bare (i : Item) : i.bare.IsFullList ↔ i.IsFullList := by
  cases i <;> simp [IsFullList, bare, EntityList.bare]

lemma isList_bare (i : Item) : i.bare.IsList ↔ i.IsList := by
  cases i <;> exact .rfl

theorem mem_values_unsettled {A : Set Item} (hs : ∀ j, settled j → j.values ⊆ A) (hv : v ∉ A) :
    v ∈ i.values ↔ ∃ a ∈ i.unsettled settled, (∀ d, a ≠ .definition d) ∧ a.bare = v := by
  induction i using Item.induction with
  | step i ih =>
    by_cases hi : settled i
    · rw [unsettled_settled hi]
      exact iff_of_false (fun h => hv (hs i hi h)) (by simp)
    · rw [mem_values, unsettled_open hi]
      simp only [List.mem_cons, List.mem_flatMap, exists_eq_or_imp]
      rw [or_comm]
      refine or_congr_right ⟨?_, ?_⟩
      · rintro ⟨p, hp, h⟩
        obtain ⟨a, ha, h⟩ := (ih p hp).mp h
        exact ⟨a, ⟨p, hp, ha⟩, h⟩
      · rintro ⟨a, ⟨p, hp, ha⟩, h⟩
        exact ⟨p, hp, (ih p hp).mpr ⟨a, ha, h⟩⟩

end Item

namespace Inventory

variable {I J : Inventory}

lemma visit_lookups (hf : I.failure = none) (i : Item) (hl : i.IsList → i.IsFullList) :
    (I.visit i.bare).stats.hits + (I.visit i.bare).stats.misses =
      I.stats.hits + I.stats.misses + i.ownLookup.length := by
  by_cases hd : ∃ d, i = .definition d
  · obtain ⟨d, rfl⟩ := hd
    have none : ¬ (Item.definition d).IsLookedUp := by simp [Item.IsLookedUp, Item.IsEntity, Item.IsFullList]
    rw [Item.ownLookup, if_neg none]
    rfl
  have hd' (d : Handle Definition) : i.bare ≠ .definition d := fun he => by
    cases i with
    | definition e => exact hd ⟨e, rfl⟩
    | _ => cases he
  by_cases hv : i.bare ∈ I.stock
  · rw [visit_known hf hv hd']
    cases i <;> simp_all [Item.ownLookup, Item.IsLookedUp, Item.IsEntity, Item.IsList, Item.IsFullList, Stats.reuse]
    all_goals omega
  · rw [visit_new hf hv hd']
    cases i <;> simp_all [Item.ownLookup, Item.IsLookedUp, Item.IsEntity, Item.IsList, Item.IsFullList, Stats.enter]
    all_goals omega

lemma Gains.misses_eq (h : Gains I J) : (J.stats.misses : ℕ∞) =
    I.stats.misses + gained Item.IsEntity I.stock J.stock + gained Item.IsList I.stock J.stock := by
  have entities := h.entities
  have lists := h.lists
  have misses := h.misses
  generalize gained Item.IsEntity I.stock J.stock = a at entities ⊢
  generalize gained Item.IsList I.stock J.stock = b at lists ⊢
  cases a with
  | top => simp at entities
  | coe m =>
    cases b with
    | top => simp at lists
    | coe n =>
      norm_cast at entities lists ⊢
      omega

end Inventory

section Law

variable {settled frozen : Item → Prop} {is : List Item} {I J : Inventory}

theorem Tallies.lookups (h : Tallies settled frozen is I J) (hf : J.failure = none)
    (hl : ∀ i, i.IsList → ¬ settled i → i.IsFullList) : J.stats.hits + J.stats.misses =
      I.stats.hits + I.stats.misses + (is.flatMap (Item.lookups settled)).length := by
  induction h with
  | nil => rfl
  | failed h => simp [hf] at h
  | frozen => simp [Inventory.fail] at hf
  | settled _ hi _ ih =>
    rw [ih hf, List.flatMap_cons, Item.lookups_settled hi, List.nil_append]
  | @visit i is I J K _ hi _ _ rest ihp ih =>
    have calm : J.failure = none := Inventory.visit_failure.symm.trans (rest.calm hf)
    rw [ih hf, Inventory.visit_lookups calm i fun h => hl i h hi, ihp calm, List.flatMap_cons, Item.lookups_open hi]
    simp only [List.length_append]
    omega

lemma gained_lookups {sort : Item → Prop} {i : Item} (stock : J.stock = I.stock ∪ i.values)
    (hs : ∀ j, settled j → j.values ⊆ I.stock) (looked : ∀ a ∈ i.unsettled settled, sort a.bare → a.IsLookedUp) :
    gained sort I.stock J.stock =
      {v | sort v ∧ v ∉ I.stock ∧ ∃ a ∈ i.lookups settled, a.bare = v}.encard := by
  rw [gained]
  congr 1
  ext v
  refine and_congr_right fun hv => ?_
  rw [and_comm]
  refine and_congr_right fun hn => ?_
  rw [stock, Set.mem_union, or_iff_right hn, Item.mem_values_unsettled hs hn]
  constructor
  · rintro ⟨a, ha, -, rfl⟩
    exact ⟨a, Item.mem_lookups.mpr ⟨ha, looked a ha hv⟩, rfl⟩
  · rintro ⟨a, ha, rfl⟩
    obtain ⟨ha, hl⟩ := Item.mem_lookups.mp ha
    refine ⟨a, ha, fun d hd => ?_, rfl⟩
    simp [hd, Item.IsLookedUp, Item.IsEntity, Item.IsFullList] at hl

theorem Tallies.misses {i : Item} (h : Tallies settled frozen [i] I J) (hf : J.failure = none)
    (hs : ∀ j, settled j → j.values ⊆ I.stock) (hl : ∀ l, l.IsList → ¬ settled l → l.IsFullList) :
    (J.stats.misses : ℕ∞) = I.stats.misses +
      {v | v.IsEntity ∧ v ∉ I.stock ∧ ∃ a ∈ i.lookups settled, a.bare = v}.encard +
      {v | v.IsList ∧ v ∉ I.stock ∧ ∃ a ∈ i.lookups settled, a.bare = v}.encard := by
  have stock : J.stock = I.stock ∪ i.values := by simpa using h.stock hf hs
  have entities := gained_lookups stock hs fun a _ (ha : a.bare.IsEntity) => (Item.isLookedUp_bare a).mp (.inl ha)
  have lists := gained_lookups stock hs fun a ha (hb : a.bare.IsList) =>
    .inr (hl a ((Item.isList_bare a).mp hb) (Item.not_settled_of_unsettled ha))
  rw [h.gains.misses_eq, entities, lists]

end Law

end CodeModel
