import CodeModel.Proofs.Tables.Stock
import Mathlib.Data.Set.Card

/-! Each structural value in stock stands in the tables once, so that the counts are numbers of values. -/

namespace CodeModel

namespace Item

def IsEntity : Item → Prop
  | entity .. => True
  | _ => False

def IsFullList : Item → Prop
  | list _ l => l.items ≠ []
  | _ => False

def IsSpelling : Item → Prop
  | text t => t.val ≠ ""
  | _ => False

end Item

lemma encard_of_nodup {L : List Item} {A : Set Item} (hL : L.Nodup) (hA : ∀ v, v ∈ A ↔ v ∈ L) :
    A.encard = L.length := by
  classical
  have same : A = L.toFinset := by
    ext v
    rw [hA, List.coe_toFinset, Set.mem_ofPred_eq]
  rw [same, Set.encard_coe_eq_coe_finsetCard, List.toFinset_card_of_nodup hL]

lemma mem_kinds (k : Kind) : k ∈ Provider.kinds := by
  rcases k with _ | _ | _ | _ | _ | _ | _ <;> simp [Provider.kinds]

lemma encard_kinds {f : Kind → List Item} {A : Set Item} (hf : ∀ k, (f k).Nodup)
    (hk : ∀ j k v, v ∈ f j → v ∈ f k → j = k) (hA : ∀ v, v ∈ A ↔ ∃ k, v ∈ f k) :
    A.encard = (Provider.kinds.map fun k => (f k).length).sum := by
  have nodup : (Provider.kinds.flatMap f).Nodup := by
    refine List.nodup_flatMap.mpr ⟨fun k _ => hf k, ?_⟩
    have distinct : Provider.kinds.Pairwise (· ≠ ·) := by decide
    apply distinct.imp
    intro j k hjk v hj hk'
    exact hjk (hk j k v hj hk')
  rw [encard_of_nodup nodup, List.length_flatMap]
  intro v
  simp only [hA, List.mem_flatMap, mem_kinds, true_and]

namespace Provider

variable {h : Hasher} {p : Provider}

theorem Sound.entities_census (hp : p.Sound h) (hm : ∀ k x, p.HasEntry k x → k.isModel = true) :
    {v ∈ p.stock h | v.IsEntity}.encard = p.entityCount := by
  let row (k : Kind) : List Item := (p.entities k).map fun e => (Item.entity k e.entity).bare
  have once (k : Kind) : (row k).Nodup := by
    refine List.pairwise_map.mpr ((hp.entryOnce k).imp_of_mem fun {e f} he hf hne value => hne ?_)
    have entry {e : Entry k.Carrier} (he : e ∈ p.entities k) : p.HasEntry k e.entity := ⟨e, he, rfl⟩
    have same : e.entity = f.entity :=
      (hp.matches_of_bare (i := .entity k e.entity) (j := .entity k f.entity) (hm k _ (entry he)) (entry he)
        (entry hf) value).entity_eq
    rw [hp.entryHash k e he, hp.entryHash k f hf, same]
    exact ⟨rfl, k.same_equivalence.refl _⟩
  have apart (j k : Kind) (v : Item) (hj : v ∈ row j) (hk : v ∈ row k) : j = k := by
    obtain ⟨e, -, rfl⟩ := List.mem_map.mp hj
    obtain ⟨f, -, he⟩ := List.mem_map.mp hk
    exact ((Item.entity.inj he).1).symm
  rw [encard_kinds once apart fun v => ?_, hp.entityCount]
  · simp only [row, List.length_map]
  simp only [Set.mem_ofPred_eq, row, List.mem_map]
  constructor
  · rintro ⟨⟨i, hi, rfl⟩, hv⟩
    cases i with
    | entity k x =>
      obtain ⟨e, he, rfl⟩ := hi
      exact ⟨k, e, he, rfl⟩
    | _ => exact hv.elim
  · rintro ⟨k, e, he, rfl⟩
    exact ⟨⟨.entity k e.entity, ⟨e, he, rfl⟩, rfl⟩, trivial⟩

theorem Sound.lists_census (hp : p.Sound h) (hm : ∀ k x, p.HasEntry k x → k.isModel = true) :
    {v ∈ p.stock h | v.IsFullList}.encard = p.listCount := by
  let row (k : Kind) : List Item := (p.lists k).map fun r => (Item.list k r.list).bare
  have once (k : Kind) : (row k).Nodup := by
    refine List.pairwise_map.mpr ((hp.recordOnce k).imp_of_mem fun {r r'} hr hr' hne value => hne ?_)
    obtain ⟨x, hx⟩ := List.exists_mem_of_ne_nil _ (hp.recordFull k r hr)
    have model := hm k x (hp.recordParts k r hr x hx)
    have recorded {r : Record k.Carrier} (hr : r ∈ p.lists k) : p.Canonical h (.list k r.list) := .inr ⟨r, hr, rfl⟩
    exact ids_of_matches (hp.parts_matches (i := .list k r.list) (j := .list k r'.list) model
      (fun _ => hp.canonical_part (recorded hr)) (fun _ => hp.canonical_part (recorded hr')) value)
  have apart (j k : Kind) (v : Item) (hj : v ∈ row j) (hk : v ∈ row k) : j = k := by
    obtain ⟨r, -, rfl⟩ := List.mem_map.mp hj
    obtain ⟨r', -, he⟩ := List.mem_map.mp hk
    exact ((Item.list.inj he).1).symm
  rw [encard_kinds once apart fun v => ?_, hp.listCount]
  · simp only [row, List.length_map]
  simp only [Set.mem_ofPred_eq, row, List.mem_map]
  constructor
  · rintro ⟨⟨i, hi, rfl⟩, hv⟩
    cases i with
    | list k l =>
      rcases hi with hl | ⟨r, hr, rfl⟩
      · exact absurd (by simp [EntityList.bare, hl]) hv
      · exact ⟨k, r, hr, rfl⟩
    | _ => exact hv.elim
  · rintro ⟨k, r, hr, rfl⟩
    refine ⟨⟨.list k r.list, .inr ⟨r, hr, rfl⟩, rfl⟩, ?_⟩
    simpa [Item.IsFullList, EntityList.bare, Record.list] using hp.recordFull k r hr

theorem Sound.texts_census (hp : p.Sound h) : 1 + {v ∈ p.stock h | v.IsSpelling}.encard = p.pool.size := by
  have once : (p.pool.texts.map fun t => (Item.text t).bare).Nodup := by
    refine hp.filed.once.map_on fun t ht u hu value => ?_
    have spelling : t.val = u.val := by simpa [Text.bare] using value
    have found := (hp.filed.found t ht).2
    rw [spelling, (hp.filed.found u hu).2] at found
    exact (Option.some.inj found).symm
  rw [encard_of_nodup once fun v => ?_, TextPool.size_eq]
  · simp
  simp only [Set.mem_ofPred_eq, List.mem_map]
  constructor
  · rintro ⟨⟨i, hi, rfl⟩, hv⟩
    cases i with
    | text t => exact ⟨t, TextPool.mem_texts h hv hi, rfl⟩
    | _ => exact hv.elim
  · rintro ⟨t, ht, rfl⟩
    obtain ⟨nonempty, found⟩ := hp.filed.found t ht
    exact ⟨⟨.text t, found, rfl⟩, nonempty⟩

lemma encard_isShared : {v : Item | v.IsShared}.encard = 3 := by
  let value (t : SharedType) : Item := (Item.entity .typeRef t.handle).bare
  have distinct : (SharedType.all.map value).Nodup := by
    refine List.Nodup.map_on (fun t _ u _ h => ?_) (by simp [SharedType.all])
    cases t <;> cases u <;> first | rfl | cases h
  rw [encard_of_nodup distinct fun v => ?_]
  · rfl
  simp only [Set.mem_ofPred_eq, List.mem_map]
  constructor
  · rintro ⟨t, rfl⟩
    exact ⟨t, by cases t <;> simp [SharedType.all], rfl⟩
  · rintro ⟨t, -, rfl⟩
    exact ⟨t, rfl⟩

structure Contents (h : Hasher) (o : Options) (V : Set Item) (p : Provider) : Prop where
  only : ∀ i, i.IsEntity → p.Canonical h i → i.bare.IsShared ∨ i.bare ∈ V
  once : ∀ v, v.IsEntity → v.IsShared ∨ v ∈ V → ∃! i, p.Canonical h i ∧ i.bare = v
  entities : (p.stats.entities : ℕ∞) = 3 + {v ∈ V | v.IsEntity ∧ ¬ v.IsShared}.encard
  lists : (p.stats.lists : ℕ∞) = {v ∈ V | v.IsFullList}.encard
  strings : (p.stats.strings : ℕ∞) =
    1 + {v | v.IsSpelling ∧ (v ∈ V ∨ ∃ c ∈ seeded o, v = .text ⟨0, c⟩)}.encard

lemma Contents.counts_eq {V : Set Item} {h' : Hasher} {p' : Provider} {o : Options} (hp : p.Contents h o V)
    (hp' : p'.Contents h' o V) : p.stats.entities = p'.stats.entities ∧ p.stats.lists = p'.stats.lists ∧
      p.stats.strings = p'.stats.strings := by
  refine ⟨?_, ?_, ?_⟩
  · exact_mod_cast hp.entities.trans hp'.entities.symm
  · exact_mod_cast hp.lists.trans hp'.lists.symm
  · exact_mod_cast hp.strings.trans hp'.strings.symm

section Contents

variable {V : Set Item} {number label : Nat} {o : Options} {v : Item}

lemma entity_mem_stock (hs : p.stock h = (create h number label o).stock h ∪ V) (hv : v.IsEntity) :
    v ∈ p.stock h ↔ v.IsShared ∨ v ∈ V := by
  cases v with
  | entity => simp [hs, mem_stock_create]
  | _ => exact hv.elim

lemma entities_stocked (hs : p.stock h = (create h number label o).stock h ∪ V) :
    {v ∈ p.stock h | v.IsEntity} = {v | v.IsShared} ∪ {v ∈ V | v.IsEntity ∧ ¬ v.IsShared} := by
  ext v
  have shared (hv : v.IsShared) : v.IsEntity := by
    obtain ⟨t, rfl⟩ := hv
    trivial
  have := entity_mem_stock (v := v) hs
  simp only [Set.mem_ofPred_eq, Set.mem_union]
  tauto

lemma lists_stocked (hs : p.stock h = (create h number label o).stock h ∪ V) :
    {v ∈ p.stock h | v.IsFullList} = {v ∈ V | v.IsFullList} := by
  ext v
  refine and_congr_left fun hv => ?_
  cases v with
  | list k l =>
    have full (j : Kind) : Item.list k l ≠ .list j .empty := by
      rintro he
      cases he
      exact hv rfl
    simp [hs, mem_stock_create, full, Item.IsShared]
  | _ => exact hv.elim

lemma texts_stocked (hs : p.stock h = (create h number label o).stock h ∪ V) : {v ∈ p.stock h | v.IsSpelling} =
    {v | v.IsSpelling ∧ (v ∈ V ∨ ∃ c ∈ seeded o, v = .text ⟨0, c⟩)} := by
  ext v
  rw [Set.mem_ofPred_eq, and_comm]
  refine and_congr_right fun hv => ?_
  cases v with
  | text t =>
    have nonempty : t ≠ ⟨0, ""⟩ := fun he => hv (congrArg Handle.val he)
    simp [hs, mem_stock_create, Item.IsShared, nonempty, or_comm]
  | _ => exact hv.elim

theorem Sound.contents (hp : p.Sound h) (hs : p.stock h = (create h number label o).stock h ∪ V)
    (hV : ∀ v ∈ V, v.IsModel) : p.Contents h o V := by
  have model {v : Item} (hv : v.IsShared ∨ v ∈ V) : v.IsModel := by
    rcases hv with ⟨t, rfl⟩ | hv
    · rfl
    · exact hV v hv
  have only (k : Kind) (x : Handle k.Carrier) (hx : p.HasEntry k x) :
      (Item.entity k x).bare.IsShared ∨ (Item.entity k x).bare ∈ V :=
    (entity_mem_stock (v := (Item.entity k x).bare) hs trivial).mp ⟨.entity k x, hx, rfl⟩
  have models (k : Kind) (x : Handle k.Carrier) (hx : p.HasEntry k x) : k.isModel = true := model (only k x hx)
  refine ⟨fun i hi hc => ?_, fun v he hv => ?_, ?_, ?_, ?_⟩
  · cases i with
    | entity k x => exact only k x hc
    | _ => exact hi.elim
  · obtain ⟨i, hi, rfl⟩ := (entity_mem_stock hs he).mpr hv
    refine ⟨i, ⟨hi, rfl⟩, fun j ⟨hj, value⟩ => ?_⟩
    have hm : i.IsModel := (Item.isModel_bare i).mp (model hv)
    cases hp.matches_of_bare hm hi hj value.symm with
    | refl => rfl
    | empty => exact he.elim
  · have census : {v ∈ p.stock h | v.IsEntity}.encard = p.stats.entities := hp.entities_census models
    rw [← census, entities_stocked hs, Set.encard_union_eq, encard_isShared]
    exact Set.disjoint_left.mpr fun v hv hn => hn.2.2 hv
  · rw [← lists_stocked hs]
    exact (hp.lists_census models).symm
  · rw [← texts_stocked hs]
    exact hp.texts_census.symm

end Contents

end Provider

end CodeModel
