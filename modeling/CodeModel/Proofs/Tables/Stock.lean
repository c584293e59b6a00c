import CodeModel.Proofs.Graph.Places
import CodeModel.Proofs.Tables.Growth

/-! The stock of a provider: the structural values of its texts, entities and lists. -/

namespace CodeModel

def Item.IsShared (v : Item) : Prop := ∃ t : SharedType, v = (Item.entity .typeRef t.handle).bare

namespace Provider

variable {h : Hasher} {p q : Provider} {σ : Store} {k : Kind} {i j : Item}

def Settled (p : Provider) : Item → Prop
  | .entity k x => p.HasEntry k x
  | .list k l => l.items = [] ∨ ∃ r ∈ p.lists k, r.list = l
  | _ => False

lemma Settled.canonical (hi : p.Settled i) : p.Canonical h i := by
  cases i with
  | entity | list => exact hi
  | _ => exact hi.elim

lemma Settled.mono (hg : p.Grows h q) (hi : p.Settled i) : q.Settled i := by
  cases i with
  | entity | list => exact Canonical.mono (h := h) hg hi.canonical
  | _ => exact hi

def stock (h : Hasher) (p : Provider) : Set Item := {v | ∃ i, p.Canonical h i ∧ i.bare = v}

lemma Canonical.mem_stock (hi : p.Canonical h i) : i.bare ∈ p.stock h := ⟨i, hi, rfl⟩

lemma Sound.values_subset (hp : p.Sound h) (hi : p.Canonical h i) : i.values ⊆ p.stock h := by
  rintro v ⟨a, ha, -, rfl⟩
  exact (hp.canonical_within hi ha).mem_stock

section Lookup

lemma Sound.parts_matches (hp : p.Sound h) (hm : i.IsModel) (hi : ∀ a ∈ i.parts, p.Canonical h a)
    (hj : ∀ b ∈ j.parts, p.Canonical h b) (hb : i.bare = j.bare) :
    List.Forall₂ Item.Matches i.parts j.parts := by
  refine forall₂_matches ?_ fun a ha b hb hab => hp.matches_of_bare (hm.parts a ha) (hi a ha) (hj b hb) hab
  rw [← Item.parts_bare, ← Item.parts_bare, hb]

theorem Sound.find?_eq_none_iff (hp : p.Sound h) (hf : p.Fits h σ) (hk : k.isModel = true) {x : Handle k.Carrier}
    (hx : σ.Fits (.entity k x)) (hc : ∀ i ∈ k.parts x.val, p.Canonical h i) :
    p.find? h k x.val = none ↔ (Item.entity k x).bare ∉ p.stock h := by
  constructor
  · rintro hn ⟨j, hj, hb⟩
    cases j with
    | entity k' y =>
      obtain ⟨rfl, value⟩ : k' = k ∧ HEq (y.bare k'.bare) (x.bare k.bare) := by simpa using hb
      have outline := (Kind.bare_eq_iff.mp (congrArg Handle.val (eq_of_heq value))).1
      have same := Kind.same_of_matches outline (hp.parts_matches (i := .entity k' y)
        (j := .entity k' x) hk (fun _ => hp.canonical_part hj) hc hb)
      obtain ⟨e, he, rfl⟩ := hj
      exact find?_none hn he ((hp.entryHash _ e he).trans (fingerprint_congr hk same)) same
    | _ => cases hb
  · intro hn
    by_contra hs
    obtain ⟨y, hy⟩ := Option.ne_none_iff_exists'.mp hs
    obtain ⟨entry, -, same⟩ := hp.find?_some hy
    have value := Store.bare_of_same hk (fun _ => (hf _ (.entry entry)).part) (fun _ => hx.part) same
    exact hn ⟨.entity k y, entry, by simp [Handle.bare, value]⟩

theorem Sound.findList?_eq_none_iff (hp : p.Sound h) (hf : p.Fits h σ) (hk : k.isModel = true)
    {l : EntityList k.Carrier} (hl : l.items ≠ []) (hc : ∀ x ∈ l.items, p.HasEntry k x) :
    p.findList? h k l.items = none ↔ (Item.list k l).bare ∉ p.stock h := by
  constructor
  · rintro hn ⟨j, hj, hb⟩
    cases j with
    | list k' m =>
      obtain ⟨rfl, -⟩ : k' = k ∧ HEq (m.bare k'.bare) (l.bare k.bare) := by simpa using hb
      have ids : m.items.map Handle.id = l.items.map Handle.id := by
        refine ids_of_matches (hp.parts_matches (i := .list k' m) (j := .list k' l) hk ?_ ?_ hb)
        · exact fun _ => hp.canonical_part hj
        · simpa [Canonical] using hc
      rcases hj with hm | ⟨r, hr, rfl⟩
      · exact hl (by simpa [hm] using ids.symm)
      · exact hp.findList?_none hn hr ids
    | _ => cases hb
  · intro hn
    by_contra hs
    obtain ⟨r, hr⟩ := Option.ne_none_iff_exists'.mp hs
    obtain ⟨mem, ids⟩ := findList?_some hr
    have same : r.items = l.items :=
      Store.items_eq (fun x => (hf _ (.record mem)).element) (fun x hx => hf _ (.entry (hc x hx))) ids
    exact hn ⟨.list k r.list, .inr ⟨r, mem, rfl⟩, by simp [EntityList.bare, Record.list, same]⟩

lemma pool_find?_eq_none_iff {t : Text} : p.pool.find? h t.val = none ↔ (Item.text t).bare ∉ p.stock h := by
  constructor
  · rintro hn ⟨j, hj, hb⟩
    cases j with
    | text u =>
      have val : u.val = t.val := by simpa [Text.bare] using hb
      rw [Canonical, val, hn] at hj
      cases hj
    | _ => cases hb
  · intro hn
    by_contra hs
    obtain ⟨u, hu⟩ := Option.ne_none_iff_exists'.mp hs
    exact hn ⟨.text u, TextPool.find?_self h hu, by simp [Text.bare, TextPool.find?_val h hu]⟩

end Lookup

section Operations

lemma stock_insert (hq : ∀ i, q.Canonical h i ↔ p.Canonical h i ∨ i = j) :
    q.stock h = insert j.bare (p.stock h) := by
  ext v
  simp only [stock, hq, Set.mem_ofPred_eq, Set.mem_insert_iff, or_and_right, exists_or, exists_eq_left,
    eq_comm (a := v)]
  exact or_comm

lemma canonical_register {x : Handle k.Carrier} :
    (p.register h k x).Canonical h i ↔ p.Canonical h i ∨ i = .entity k x := by
  cases i with
  | entity j y => exact hasEntry_register
  | _ => simp [Canonical, register]

lemma canonical_recordList_iff {storage : Nat} {items : List (Handle k.Carrier)} :
    (p.recordList h k storage items).Canonical h i ↔ p.Canonical h i ∨ i = .list k ⟨true, storage, items⟩ := by
  cases i with
  | list j l =>
    simp only [Canonical, mem_lists_recordList, Item.list.injEq]
    constructor
    · rintro (hn | ⟨r, hr | ⟨rfl, rfl⟩, rfl⟩)
      · exact .inl (.inl hn)
      · exact .inl (.inr ⟨r, hr, rfl⟩)
      · exact .inr ⟨rfl, .rfl⟩
    · rintro ((hn | ⟨r, hr, rfl⟩) | ⟨rfl, hl⟩)
      · exact .inl hn
      · exact .inr ⟨r, .inl hr, rfl⟩
      · exact .inr ⟨_, .inr ⟨rfl, rfl⟩, (eq_of_heq hl).symm⟩
  | _ => simp [Canonical, recordList, HasEntry]

lemma canonical_adopt {t : Text} (hn : p.pool.find? h t.val = none) :
    Canonical h { p with pool := (p.pool.adopt h t).2 } i ↔ p.Canonical h i ∨ i = .text t := by
  cases i with
  | text u =>
    simp only [Canonical, TextPool.find?_adopt_new h hn, Item.text.injEq]
    split_ifs with hu
    · rw [hu, hn]
      simp [eq_comm]
    · have ne : u ≠ t := fun he => hu (congrArg Handle.val he)
      simp [ne]
  | _ => simp [Canonical, HasEntry]

end Operations

section Create

variable {number label : Nat} {options : Options}

lemma hasEntry_create {x : Handle k.Carrier} :
    (create h number label options).HasEntry k x ↔ ∃ t : SharedType, Item.entity k x = .entity .typeRef t.handle := by
  have blank (pool : TextPool) : ¬ HasEntry ⟨number, pool, fun _ => [], fun _ => [], 0, 0, 0, 0⟩ k x := by
    simp [HasEntry]
  simp only [create, SharedType.all, List.foldl_cons, List.foldl_nil, hasEntry_register, blank, false_or]
  constructor
  · rintro ((hx | hx) | hx)
    · exact ⟨.unknown, hx⟩
    · exact ⟨.null, hx⟩
    · exact ⟨.dynamic, hx⟩
  · rintro ⟨_ | _ | _, hx⟩
    · exact .inl (.inl hx)
    · exact .inl (.inr hx)
    · exact .inr hx

lemma id_of_hasEntry_create {x : Handle k.Carrier} (hx : (create h number label options).HasEntry k x) :
    x.id < 3 := by
  obtain ⟨t, ht⟩ := hasEntry_create.mp hx
  have label : x.id = t.handle.id := by simpa [Item.label?] using congrArg Item.label? ht
  rw [label]
  cases t <;> decide

lemma lists_create : (create h number label options).lists k = [] := rfl

def seeded (options : Options) : List String := if options.preInternCommon then TextPool.commonTexts else []

lemma isSome_find?_create {v : String} : ((create h number label options).pool.find? h v).isSome = true ↔
    v = "" ∨ v ∈ seeded options := by
  have blank : (TextPool.empty.find? h v).isSome = true ↔ v = "" := by
    constructor
    · intro hv
      obtain ⟨t, ht⟩ := Option.isSome_iff_exists.mp hv
      rw [← TextPool.find?_val h ht, TextPool.find?_empty h ht]
      rfl
    · rintro rfl
      simp
  have pool : (create h number label options).pool =
      if options.preInternCommon then TextPool.empty.internCommon h label else .empty := rfl
  rw [pool, seeded]
  split_ifs
  · exact TextPool.isSome_find?_internAll.trans (or_congr_left blank)
  · simp [blank]

theorem mem_stock_create {v : Item} : v ∈ (create h number label options).stock h ↔
    v = .nothing ∨ (∃ k, v = .list k .empty) ∨ v.IsShared ∨
      ∃ c, (c = "" ∨ c ∈ seeded options) ∧ v = .text ⟨0, c⟩ := by
  constructor
  · rintro ⟨i, hi, rfl⟩
    cases i with
    | nothing => exact .inl rfl
    | text t =>
      have found : ((create h number label options).pool.find? h t.val).isSome = true :=
        Option.isSome_iff_exists.mpr ⟨t, hi⟩
      exact .inr (.inr (.inr ⟨t.val, isSome_find?_create.mp found, rfl⟩))
    | entity k x =>
      obtain ⟨t, ht⟩ := hasEntry_create.mp hi
      exact .inr (.inr (.inl ⟨t, by rw [ht]⟩))
    | list k l =>
      rcases hi with hl | ⟨r, hr, -⟩
      · exact .inr (.inl ⟨k, by simp [EntityList.bare, hl, EntityList.empty]⟩)
      · simp [lists_create] at hr
    | definition => exact hi.elim
  · rintro (rfl | ⟨k, rfl⟩ | ⟨t, rfl⟩ | ⟨c, hc, rfl⟩)
    · exact ⟨.nothing, trivial, rfl⟩
    · exact ⟨.list k .empty, .inl rfl, rfl⟩
    · exact ⟨.entity .typeRef t.handle, hasEntry_create.mpr ⟨t, rfl⟩, rfl⟩
    · obtain ⟨t, ht⟩ := Option.isSome_iff_exists.mp (isSome_find?_create.mpr hc)
      exact ⟨.text t, TextPool.find?_self h ht, by simp [Text.bare, TextPool.find?_val h ht]⟩

end Create

end Provider

end CodeModel
