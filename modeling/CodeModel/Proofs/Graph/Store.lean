import CodeModel.Proofs.Graph.Identity

/-! A store says what stands under each label. It may also remember objects that are gone. -/

namespace CodeModel

structure Store where
  object : Nat → Option Item
  list : Nat → Option (Kind × Bool × List Nat)
  text : Nat → Option String

namespace Store

variable {σ τ : Store}

def Knows (σ : Store) : Item → Prop
  | .nothing => True
  | .text t => σ.text t.id = some t.val
  | .entity k x => σ.object x.id = some (.entity k x)
  | .list k l => l.items ≠ [] → σ.list l.storage = some (k, l.sealed, l.items.map Handle.id)
  | .definition d => σ.object d.id = some (.definition d)

def Fits (σ : Store) (i : Item) : Prop := ∀ j, Item.Within j i → σ.Knows j

lemma Fits.knows {i : Item} (h : σ.Fits i) : σ.Knows i := h i (.refl i)

lemma Fits.within {i j : Item} (h : σ.Fits i) (hj : Item.Within j i) : σ.Fits j := by
  intro k hk
  exact h k (hk.trans hj)

lemma Fits.part {i p : Item} (h : σ.Fits i) (hp : p ∈ i.parts) : σ.Fits p :=
  h.within (.part hp (.refl p))

lemma fits_iff {i : Item} : σ.Fits i ↔ σ.Knows i ∧ ∀ p ∈ i.parts, σ.Fits p := by
  refine ⟨fun h => ⟨h.knows, fun p hp => h.part hp⟩, fun h j hj => ?_⟩
  obtain rfl | ⟨p, hp, hj⟩ := Item.within_iff.mp hj
  · exact h.1
  · exact h.2 p hp j hj

lemma fits_nothing : σ.Fits .nothing := fits_iff.mpr ⟨trivial, by simp⟩

lemma fits_text {t : Text} : σ.Fits (.text t) ↔ σ.text t.id = some t.val := by
  rw [fits_iff]
  simp [Knows]

lemma Fits.object {i j : Item} (h : σ.Fits i) (hj : Item.Within j i) {id : Nat} (hl : j.label? = some id) :
    σ.object id = some j := by
  have known := h j hj
  cases j <;> simp_all [Knows, Item.label?]

lemma Fits.object_of_labels {i : Item} (h : σ.Fits i) {id : Nat} (hl : i.Labels id) :
    ∃ j, Item.Within j i ∧ j.label? = some id ∧ σ.object id = some j := by
  obtain ⟨j, hj, hl⟩ := hl
  exact ⟨j, hj, hl, h.object hj hl⟩

lemma entity_eq {k : Kind} {x y : Handle k.Carrier} (hx : σ.Fits (.entity k x)) (hy : σ.Fits (.entity k y))
    (h : x.id = y.id) : x = y := by
  have known := hx.knows.symm.trans ((congrArg σ.object h).trans hy.knows)
  simpa using known

lemma items_eq {k : Kind} {xs ys : List (Handle k.Carrier)} (hx : ∀ x ∈ xs, σ.Fits (.entity k x))
    (hy : ∀ y ∈ ys, σ.Fits (.entity k y)) (h : xs.map Handle.id = ys.map Handle.id) : xs = ys := by
  induction xs generalizing ys with
  | nil => simpa using h.symm
  | cons x xs ih =>
    cases ys with
    | nil => simp at h
    | cons y ys =>
      simp only [List.map_cons, List.cons.injEq] at h
      rw [entity_eq (hx x (by simp)) (hy y (by simp)) h.1,
        ih (fun x hm => hx x (by simp [hm])) (fun y hm => hy y (by simp [hm])) h.2]

lemma Fits.element {k : Kind} {l : EntityList k.Carrier} (h : σ.Fits (.list k l)) {x : Handle k.Carrier}
    (hx : x ∈ l.items) : σ.Fits (.entity k x) :=
  h.part (by simpa using hx)

lemma list_eq {k : Kind} {l m : EntityList k.Carrier} (hl : σ.Fits (.list k l)) (hm : σ.Fits (.list k m))
    (hn : l.items ≠ []) (hn' : m.items ≠ []) (h : l.storage = m.storage) : l = m := by
  have known := (hl.knows hn).symm.trans ((congrArg σ.list h).trans (hm.knows hn'))
  simp only [Option.some.injEq, Prod.mk.injEq, true_and] at known
  obtain ⟨s, n, xs⟩ := l
  obtain ⟨s', n', ys⟩ := m
  simp only [EntityList.mk.injEq]
  exact ⟨known.1, h, items_eq (fun _ => hl.element) (fun _ => hm.element) known.2⟩

lemma bare_of_alike {i j : Item} (hi : σ.Fits i) (hj : σ.Fits j) (h : Item.Alike i j) : i.bare = j.bare := by
  cases h with
  | nothing => rfl
  | @text t u h =>
    rw [fits_text] at hi hj
    have hv : t.val = u.val := by
      rcases h with h | h
      · rw [h, hj] at hi
        simpa using hi.symm
      · exact h
    simp [Text.bare, hv]
  | entity h => rw [entity_eq hi hj h]
  | @list k l m h =>
    rcases EntityList.sameStorage_cases h with ⟨hl, hm⟩ | ⟨hl, hm, hs⟩
    · simp [EntityList.bare, hl, hm]
    · rw [list_eq hi hj hl hm hs]

lemma bares_of_alike {is js : List Item} (hi : ∀ i ∈ is, σ.Fits i) (hj : ∀ j ∈ js, σ.Fits j)
    (h : List.Forall₂ Item.Alike is js) : is.map Item.bare = js.map Item.bare := by
  induction h with
  | nil => rfl
  | cons h _ ih =>
    simp only [List.mem_cons, forall_eq_or_imp] at hi hj
    simp [bare_of_alike hi.1 hj.1 h, ih hi.2 hj.2]

theorem bare_of_same {k : Kind} (hk : k.isModel = true) {v w : k.Carrier}
    (hv : ∀ p ∈ k.parts v, σ.Fits p) (hw : ∀ p ∈ k.parts w, σ.Fits p) (h : k.same v w = true) :
    k.bare v = k.bare w := by
  obtain ⟨ho, hp⟩ := Kind.same_alike hk h
  exact Kind.bare_congr ho (bares_of_alike hv hw hp)

theorem Fits.acyclic {i : Item} (h : σ.Fits i) {id : Nat} (hl : i.label? = some id) :
    ∀ p ∈ i.parts, ¬ p.Labels id := by
  rintro p hp ⟨j, hj, hjl⟩
  have same : i = j := by
    simpa [h.object (.refl i) hl] using h.object (.part hp hj) hjl
  exact Item.not_within_part i p hp (same ▸ hj)

structure Extends (σ τ : Store) : Prop where
  list : ∀ id a, σ.list id = some a → τ.list id = some a
  text : ∀ id a, σ.text id = some a → τ.text id = some a

lemma Extends.refl (σ : Store) : σ.Extends σ := ⟨fun _ _ => id, fun _ _ => id⟩

lemma Extends.trans {υ : Store} (h : σ.Extends τ) (h' : τ.Extends υ) : σ.Extends υ :=
  ⟨fun id a ha => h'.list id a (h.list id a ha), fun id a ha => h'.text id a (h.text id a ha)⟩

theorem Fits.mono {i : Item} (h : σ.Fits i) (he : σ.Extends τ)
    (hk : ∀ id, i.Labels id → τ.object id = σ.object id) : τ.Fits i := by
  intro j hj
  have known := h j hj
  cases j with
  | nothing => trivial
  | text t => exact he.text _ _ known
  | entity k x => exact (hk _ ⟨_, hj, rfl⟩).trans known
  | list k l => exact fun hn => he.list _ _ (known hn)
  | definition d => exact (hk _ ⟨_, hj, rfl⟩).trans known

def put (σ : Store) (id : Nat) (i : Item) : Store :=
  { σ with object := fun n => if n = id then some i else σ.object n }

@[simp] lemma put_same (σ : Store) (id : Nat) (i : Item) : (σ.put id i).object id = some i := by simp [put]

lemma put_other {id n : Nat} {i : Item} (h : n ≠ id) : (σ.put id i).object n = σ.object n := by
  simp [put, h]

lemma put_extends (σ : Store) (id : Nat) (i : Item) : σ.Extends (σ.put id i) :=
  ⟨fun _ _ h => h, fun _ _ h => h⟩

lemma Fits.put {i j : Item} {id : Nat} (h : σ.Fits i) (hl : ¬ i.Labels id) : (σ.put id j).Fits i :=
  h.mono (put_extends σ id j) fun _ hn => put_other fun he => hl (he ▸ hn)

def putList (σ : Store) (storage : Nat) (a : Kind × Bool × List Nat) : Store :=
  { σ with list := fun n => if n = storage then some a else σ.list n }

lemma putList_extends {storage : Nat} (a : Kind × Bool × List Nat) (h : σ.list storage = none) :
    σ.Extends (σ.putList storage a) := by
  refine ⟨fun id b hb => ?_, fun _ _ h => h⟩
  have other : id ≠ storage := by
    rintro rfl
    simp [h] at hb
  simpa [putList, other] using hb

lemma Fits.putList {i : Item} {storage : Nat} (a : Kind × Bool × List Nat) (h : σ.Fits i)
    (hs : σ.list storage = none) : (σ.putList storage a).Fits i :=
  h.mono (putList_extends a hs) fun _ _ => rfl

def putTexts (σ : Store) (a : Nat) (ss : List String) : Store :=
  { σ with text := fun n => if n < a then σ.text n else ss[n - a]? }

lemma putTexts_extends {a : Nat} (ss : List String) (h : ∀ id s, σ.text id = some s → id < a) :
    σ.Extends (σ.putTexts a ss) :=
  ⟨fun _ _ h => h, fun id s hs => by simpa [putTexts, h id s hs] using hs⟩

lemma fits_putTexts {a : Nat} {ss : List String} {p : String × Nat} (hp : p ∈ ss.zipIdx a) :
    (σ.putTexts a ss).Fits (.text ⟨p.2, p.1⟩) := by
  have found := List.mem_zipIdx_iff_le_and_getElem?_sub.mp hp
  rw [fits_text]
  simpa [putTexts, Nat.not_lt.mpr found.1] using found.2

end Store

end CodeModel
