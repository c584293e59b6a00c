import CodeModel.Intern.Provider
import Mathlib.Data.List.Nodup
import Mathlib.Data.List.Pairwise
import Mathlib.Logic.Function.Basic
import Mathlib.Logic.Relation
import Mathlib.Order.Basic

/-! Tables of canonical entities. A type brings a hash and an equality, and nothing ties the two together. -/

namespace CodeModel

structure Protocol where
  Index : Type
  Value : Index → Type
  hash : (i : Index) → Value i → UInt64
  same : (i : Index) → Value i → Value i → Bool
  decEq : DecidableEq Index

namespace Protocol

instance (P : Protocol) : DecidableEq P.Index := P.decEq

variable (P : Protocol)

def Lawful : Prop := ∀ i, Equivalence fun v w => P.same i v w = true

/-- Entities that interning does not tell apart: they are of one type and equal, and they have one hash. -/
inductive Agree {i : P.Index} (v : P.Value i) : {j : P.Index} → P.Value j → Prop
  | intro {w : P.Value i} : P.hash i v = P.hash i w → P.same i v w = true → Agree v w

abbrev Tables := (i : P.Index) → List (Entry (P.Value i))

def empty : P.Tables := fun _ => []

section Operations

variable (T : P.Tables) (i : P.Index)

def bucket (hash : UInt64) : List (Handle (P.Value i)) := ((T i).filter (·.hash == hash)).map Entry.entity

def find? (v : P.Value i) : Option (Handle (P.Value i)) := (P.bucket T i (P.hash i v)).find? fun x => P.same i x.val v

def count (v : P.Value i) : Nat := ((P.bucket T i (P.hash i v)).filter fun x => P.same i x.val v).length

def register (x : Handle (P.Value i)) : P.Tables := Function.update T i (T i ++ [⟨P.hash i x.val, x⟩])

def settle (x : Handle (P.Value i)) : Handle (P.Value i) × P.Tables :=
  match P.find? T i x.val with
  | some y => (y, T)
  | none => (x, P.register T i x)

end Operations

def Free (T : P.Tables) (id : Nat) : Prop := ∀ i, ∀ e ∈ T i, e.entity.id ≠ id

/-- Entry `e` is `f` now: the same object in the same bucket, changed in nothing that its hash and its equality see. -/
structure Still {i : P.Index} (e f : Entry (P.Value i)) : Prop where
  hash : f.hash = e.hash
  id : f.entity.id = e.entity.id
  agree : P.Agree f.entity.val e.entity.val

inductive Step : P.Tables → P.Tables → Prop
  | settle {T : P.Tables} {i : P.Index} {x : Handle (P.Value i)} : P.Free T x.id → Step T (P.settle T i x).2
  | touch {T : P.Tables} (f : (i : P.Index) → Entry (P.Value i) → Entry (P.Value i)) :
    (∀ i, ∀ e ∈ T i, P.Still e (f i e)) → Step T fun i => (T i).map (f i)

def Run : P.Tables → P.Tables → Prop := Relation.ReflTransGen P.Step

inductive Interns (T : P.Tables) {i : P.Index} (x : Handle (P.Value i)) : Handle (P.Value i) → P.Tables → Prop
  | stays {e : Entry (P.Value i)} : e ∈ T i → e.entity = x → Interns T x x T
  | settles {U : P.Tables} : P.Run T U → P.Free U x.id → Interns T x (P.settle U i x).1 (P.settle U i x).2

structure Outcome (U : P.Tables) {i : P.Index} (x y : Handle (P.Value i)) (T : P.Tables) : Prop where
  found : (∃ e ∈ U i, P.Agree e.entity.val x.val) → (∃ e ∈ U i, e.entity = y) ∧ P.Agree y.val x.val ∧ T = U
  new : (∀ e ∈ U i, ¬ P.Agree e.entity.val x.val) → y = x ∧ T = P.register U i x

def Stands (T : P.Tables) {i : P.Index} (v : P.Value i) (id : Nat) : Prop :=
  ∃ e ∈ T i, e.entity.id = id ∧ P.Agree e.entity.val v

structure Filed (T : P.Tables) : Prop where
  hash : ∀ i, ∀ e ∈ T i, e.hash = P.hash i e.entity.val
  once : ∀ i, (T i).Pairwise fun e f => ¬ P.Agree e.entity.val f.entity.val
  labels : ∀ i, ((T i).map (·.entity.id)).Nodup
  apart : ∀ i j, i ≠ j → ∀ e ∈ T i, ∀ f ∈ T j, e.entity.id ≠ f.entity.id

/-- The tables serve all types: an entity has one canonical entity at most, interning finds it if it is there when it is
looked for and makes a new one otherwise, and what is interned at any two times becomes one object just when it agrees. -/
structure Serves (T : P.Tables) : Prop where
  filed : P.Filed T
  count_le : ∀ i v, P.count T i v ≤ 1
  count_iff : ∀ i v, P.count T i v = 1 ↔ ∃ e ∈ T i, P.Agree e.entity.val v
  outcome : ∀ i (x y : Handle (P.Value i)) V, P.Interns T x y V → ∃ U, P.Run T U ∧ P.Outcome U x y V
  identity : ∀ i (x y : Handle (P.Value i)) V, P.Interns T x y V → ∀ W, P.Run V W →
    ∀ j (z a : Handle (P.Value j)) X, P.Interns W z a X → (y.id = a.id ↔ P.Agree x.val z.val)

variable {P} {T U : P.Tables} {i j : P.Index}

section Agree

variable {u v w : P.Value i}

lemma agree_iff : P.Agree v w ↔ P.hash i v = P.hash i w ∧ P.same i v w = true := by
  constructor
  · rintro ⟨hash, same⟩
    exact ⟨hash, same⟩
  · rintro ⟨hash, same⟩
    exact ⟨hash, same⟩

lemma Agree.index {v : P.Value i} {w : P.Value j} (h : P.Agree v w) : i = j := by
  cases h
  rfl

variable (hP : P.Lawful)

include hP

lemma Lawful.refl (v : P.Value i) : P.Agree v v := ⟨rfl, (hP i).refl v⟩

lemma Lawful.symm {v : P.Value i} {w : P.Value j} (h : P.Agree v w) : P.Agree w v := by
  obtain rfl := h.index
  obtain ⟨hash, same⟩ := agree_iff.mp h
  exact ⟨hash.symm, (hP i).symm same⟩

lemma Lawful.trans (h : P.Agree u v) (h' : P.Agree v w) : P.Agree u w := by
  obtain ⟨hash, same⟩ := agree_iff.mp h
  obtain ⟨hash', same'⟩ := agree_iff.mp h'
  exact ⟨hash.trans hash', (hP i).trans same same'⟩

end Agree

section Lookup

variable {v : P.Value i} {x y : Handle (P.Value i)}

lemma mem_bucket {hash : UInt64} : y ∈ P.bucket T i hash ↔ ∃ e ∈ T i, e.hash = hash ∧ e.entity = y := by
  simp [bucket, and_assoc]

lemma Filed.find?_some (h : P.Filed T) (hy : P.find? T i v = some y) :
    ∃ e ∈ T i, e.entity = y ∧ P.Agree e.entity.val v := by
  obtain ⟨e, he, hash, rfl⟩ := mem_bucket.mp (List.mem_of_find?_eq_some hy)
  have same := List.find?_some hy
  exact ⟨e, he, rfl, (h.hash i e he).symm.trans hash, same⟩

lemma Filed.find?_none (h : P.Filed T) (hn : P.find? T i v = none) {e : Entry (P.Value i)} (he : e ∈ T i) :
    ¬ P.Agree e.entity.val v := by
  intro agree
  obtain ⟨hash, same⟩ := agree_iff.mp agree
  exact List.find?_eq_none.mp hn _ (mem_bucket.mpr ⟨e, he, (h.hash i e he).trans hash, rfl⟩) same

lemma settle_found (hy : P.find? T i x.val = some y) : P.settle T i x = (y, T) := by
  rw [settle, hy]

lemma settle_new (hn : P.find? T i x.val = none) : P.settle T i x = (x, P.register T i x) := by
  rw [settle, hn]

lemma register_self (T : P.Tables) (x : Handle (P.Value i)) : P.register T i x i = T i ++ [⟨P.hash i x.val, x⟩] :=
  Function.update_self ..

lemma register_other (x : Handle (P.Value i)) (hj : j ≠ i) : P.register T i x j = T j := Function.update_of_ne hj ..

lemma mem_register_of_mem {x : Handle (P.Value j)} {e : Entry (P.Value i)} (he : e ∈ T i) : e ∈ P.register T j x i := by
  by_cases hj : i = j
  · subst hj
    rw [register_self]
    exact List.mem_append_left _ he
  · rwa [register_other x hj]

lemma mem_register_self (T : P.Tables) (x : Handle (P.Value i)) : ⟨P.hash i x.val, x⟩ ∈ P.register T i x i := by
  rw [register_self]
  exact List.mem_append_right _ (List.mem_singleton_self _)

lemma count_eq (T : P.Tables) (v : P.Value i) :
    P.count T i v = ((T i).filter fun e => e.hash == P.hash i v && P.same i e.entity.val v).length := by
  rw [count, bucket, List.filter_map, List.length_map, List.filter_filter]
  simp only [Function.comp_def, Bool.and_comm]

theorem Filed.outcome (h : P.Filed T) (x : Handle (P.Value i)) : P.Outcome T x (P.settle T i x).1 (P.settle T i x).2 where
  found := by
    rintro ⟨e, he, agree⟩
    cases hy : P.find? T i x.val with
    | some y =>
      obtain ⟨f, hf, rfl, agree'⟩ := h.find?_some hy
      rw [settle_found hy]
      exact ⟨⟨f, hf, rfl⟩, agree', rfl⟩
    | none => exact absurd agree (h.find?_none hy he)
  new hn := by
    cases hy : P.find? T i x.val with
    | some y =>
      obtain ⟨e, he, -, agree⟩ := h.find?_some hy
      exact absurd agree (hn e he)
    | none =>
      rw [settle_new hy]
      exact ⟨rfl, rfl⟩

end Lookup

namespace Filed

variable (hP : P.Lawful) (h : P.Filed T)

include hP h

lemma unique {e f : Entry (P.Value i)} (he : e ∈ T i) (hf : f ∈ T i) (hef : P.Agree e.entity.val f.entity.val) :
    e = f := by
  have apart : Std.Symm fun e f : Entry (P.Value i) => ¬ P.Agree e.entity.val f.entity.val :=
    ⟨fun _ _ hab hba => hab (hP.symm hba)⟩
  by_contra hne
  exact (h.once i).forall he hf hne hef

lemma count_le (v : P.Value i) : P.count T i v ≤ 1 := by
  rw [count_eq]
  have once := (h.once i).filter fun e => e.hash == P.hash i v && P.same i e.entity.val v
  have equal (e : Entry (P.Value i)) (he : e ∈ (T i).filter fun e => e.hash == P.hash i v && P.same i e.entity.val v) :
      P.Agree e.entity.val v := by
    simp only [List.mem_filter, Bool.and_eq_true, beq_iff_eq] at he
    exact ⟨(h.hash i e he.1).symm.trans he.2.1, he.2.2⟩
  generalize ((T i).filter fun e => e.hash == P.hash i v && P.same i e.entity.val v) = es at once equal ⊢
  rcases es with _ | ⟨e, _ | ⟨f, es⟩⟩
  · exact Nat.zero_le 1
  · exact Nat.le_refl 1
  · simp only [List.mem_cons, forall_eq_or_imp] at equal
    simp only [List.pairwise_cons, List.mem_cons, forall_eq_or_imp] at once
    exact absurd (hP.trans equal.1 (hP.symm equal.2.1)) once.1.1

lemma count_iff (v : P.Value i) : P.count T i v = 1 ↔ ∃ e ∈ T i, P.Agree e.entity.val v := by
  have le := h.count_le hP v
  have positive : 0 < P.count T i v ↔ ∃ e ∈ T i, P.Agree e.entity.val v := by
    rw [count_eq, List.length_pos_iff_exists_mem]
    refine exists_congr fun e => ?_
    simp only [List.mem_filter, Bool.and_eq_true, beq_iff_eq, agree_iff]
    refine and_congr_right fun he => ?_
    rw [h.hash i e he]
  rw [← positive]
  omega

lemma count_congr {v w : P.Value i} (hvw : P.Agree v w) : P.count T i v = 1 ↔ P.count T i w = 1 := by
  rw [h.count_iff hP, h.count_iff hP]
  exact exists_congr fun e => and_congr_right fun _ =>
    ⟨fun agree => hP.trans agree hvw, fun agree => hP.trans agree (hP.symm hvw)⟩

lemma stands_iff {v : P.Value i} {w : P.Value j} {a b : Nat} (ha : P.Stands T v a) (hb : P.Stands T w b) :
    a = b ↔ P.Agree v w := by
  obtain ⟨e, he, rfl, hev⟩ := ha
  obtain ⟨f, hf, rfl, hfw⟩ := hb
  constructor
  · intro hid
    obtain rfl : i = j := by
      by_contra hij
      exact h.apart i j hij e he f hf hid
    obtain rfl : e = f := List.inj_on_of_nodup_map (h.labels i) he hf hid
    exact hP.trans (hP.symm hev) hfw
  · intro agree
    obtain rfl := agree.index
    rw [h.unique hP he hf (hP.trans (hP.trans hev agree) (hP.symm hfw))]

end Filed

section Steps

lemma filed_empty : P.Filed P.empty := by
  constructor <;> simp [empty]

theorem Filed.register (h : P.Filed T) {x : Handle (P.Value i)} (hx : P.Free T x.id)
    (hn : P.find? T i x.val = none) : P.Filed (P.register T i x) where
  hash j e he := by
    by_cases hj : j = i
    · subst hj
      rw [register_self, List.mem_append, List.mem_singleton] at he
      rcases he with he | rfl
      · exact h.hash j e he
      · rfl
    · rw [register_other x hj] at he
      exact h.hash j e he
  once j := by
    by_cases hj : j = i
    · subst hj
      rw [register_self, List.pairwise_append]
      refine ⟨h.once j, List.pairwise_singleton _ _, fun e he f hf => ?_⟩
      rw [List.mem_singleton.mp hf]
      exact h.find?_none hn he
    · exact register_other x hj ▸ h.once j
  labels j := by
    by_cases hj : j = i
    · subst hj
      rw [register_self, List.map_append, List.nodup_append]
      refine ⟨h.labels j, List.nodup_singleton _, ?_⟩
      simp only [List.map_cons, List.map_nil, List.mem_map, List.mem_singleton]
      rintro _ ⟨e, he, rfl⟩ _ rfl
      exact hx j e he
    · exact register_other x hj ▸ h.labels j
  apart j k hjk e he f hf := by
    by_cases hj : j = i
    · subst hj
      rw [register_other x hjk.symm] at hf
      rw [register_self, List.mem_append, List.mem_singleton] at he
      rcases he with he | rfl
      · exact h.apart j k hjk e he f hf
      · exact (hx k f hf).symm
    · rw [register_other x hj] at he
      by_cases hk : k = i
      · subst hk
        rw [register_self, List.mem_append, List.mem_singleton] at hf
        rcases hf with hf | rfl
        · exact h.apart j k hjk e he f hf
        · exact hx j e he
      · rw [register_other x hk] at hf
        exact h.apart j k hjk e he f hf

theorem Filed.settle (h : P.Filed T) {x : Handle (P.Value i)} (hx : P.Free T x.id) : P.Filed (P.settle T i x).2 := by
  cases hy : P.find? T i x.val with
  | some y => rwa [settle_found hy]
  | none =>
    rw [settle_new hy]
    exact h.register hx hy

theorem Filed.touch (hP : P.Lawful) (h : P.Filed T) {f : (i : P.Index) → Entry (P.Value i) → Entry (P.Value i)}
    (hf : ∀ i, ∀ e ∈ T i, P.Still e (f i e)) : P.Filed fun i => (T i).map (f i) where
  hash i := by
    simp only [List.mem_map, forall_exists_index, and_imp, forall_apply_eq_imp_iff₂]
    intro e he
    obtain ⟨hash, -, agree⟩ := hf i e he
    rw [hash, h.hash i e he, (agree_iff.mp agree).1]
  once i := by
    rw [List.pairwise_map]
    refine (h.once i).imp_of_mem fun {a b} ha hb hab agree => hab ?_
    exact hP.trans (hP.symm (hf i a ha).agree) (hP.trans agree (hf i b hb).agree)
  labels i := by
    have same : ((T i).map (f i)).map (·.entity.id) = (T i).map (·.entity.id) := by
      rw [List.map_map]
      exact List.map_congr_left fun e he => (hf i e he).id
    rw [same]
    exact h.labels i
  apart i j hij := by
    simp only [List.mem_map, forall_exists_index, and_imp, forall_apply_eq_imp_iff₂]
    intro e he g hg
    rw [(hf i e he).id, (hf j g hg).id]
    exact h.apart i j hij e he g hg

theorem Step.filed (hP : P.Lawful) (hs : P.Step T U) (h : P.Filed T) : P.Filed U := by
  cases hs with
  | settle hx => exact h.settle hx
  | touch f hf => exact h.touch hP hf

theorem Step.stands (hP : P.Lawful) (hs : P.Step T U) {v : P.Value i} {a : Nat} (h : P.Stands T v a) :
    P.Stands U v a := by
  obtain ⟨e, he, hid, agree⟩ := h
  cases hs with
  | touch f hf =>
    obtain ⟨-, id, still⟩ := hf i e he
    exact ⟨f i e, List.mem_map_of_mem he, id.trans hid, hP.trans still agree⟩
  | @settle j x hx =>
    refine ⟨e, ?_, hid, agree⟩
    cases hy : P.find? T j x.val with
    | some y => rwa [settle_found hy]
    | none =>
      rw [settle_new hy]
      exact mem_register_of_mem he

theorem Run.filed (hP : P.Lawful) (hr : P.Run T U) (h : P.Filed T) : P.Filed U := by
  induction hr with
  | refl => exact h
  | tail _ hs ih => exact hs.filed hP ih

theorem Run.stands (hP : P.Lawful) (hr : P.Run T U) {v : P.Value i} {a : Nat} (h : P.Stands T v a) :
    P.Stands U v a := by
  induction hr with
  | refl => exact h
  | tail _ hs ih => exact hs.stands hP ih

end Steps

namespace Interns

variable {x y : Handle (P.Value i)}

lemma run (h : P.Interns T x y U) : P.Run T U := by
  cases h with
  | stays => exact .refl
  | settles hr hx => exact hr.tail (.settle hx)

lemma outcome (hP : P.Lawful) (hT : P.Filed T) (h : P.Interns T x y U) : ∃ V, P.Run T V ∧ P.Outcome V x y U := by
  cases h with
  | stays he hx =>
    subst hx
    exact ⟨T, .refl, fun _ => ⟨⟨_, he, rfl⟩, hP.refl _, rfl⟩, fun hn => absurd (hP.refl _) (hn _ he)⟩
  | settles hr => exact ⟨_, hr, (hr.filed hP hT).outcome x⟩

lemma stands (hP : P.Lawful) (hT : P.Filed T) (h : P.Interns T x y U) : P.Stands U x.val y.id := by
  obtain ⟨V, hr, found, new⟩ := h.outcome hP hT
  by_cases known : ∃ e ∈ V i, P.Agree e.entity.val x.val
  · obtain ⟨⟨e, he, rfl⟩, agree, rfl⟩ := found known
    exact ⟨e, he, rfl, agree⟩
  · obtain ⟨rfl, rfl⟩ := new fun e he agree => known ⟨e, he, agree⟩
    exact ⟨_, mem_register_self V y, rfl, hP.refl _⟩

theorem same_iff (hP : P.Lawful) (hT : P.Filed T) {V W : P.Tables} {z a : Handle (P.Value j)}
    (h : P.Interns T x y U) (between : P.Run U V) (h' : P.Interns V z a W) : y.id = a.id ↔ P.Agree x.val z.val := by
  have filed : P.Filed V := between.filed hP (h.run.filed hP hT)
  have kept : P.Stands W x.val y.id := h'.run.stands hP (between.stands hP (h.stands hP hT))
  exact (h'.run.filed hP filed).stands_iff hP kept (h'.stands hP filed)

end Interns

theorem Filed.serves (hP : P.Lawful) (h : P.Filed T) : P.Serves T where
  filed := h
  count_le _ v := h.count_le hP v
  count_iff _ v := h.count_iff hP v
  outcome _ _ _ _ hi := hi.outcome hP h
  identity _ _ _ _ hi _ between _ _ _ _ hi' := hi.same_iff hP h between hi'

theorem serves_of_run (hP : P.Lawful) (hr : P.Run P.empty T) : P.Serves T :=
  (hr.filed hP filed_empty).serves hP

end Protocol

end CodeModel
