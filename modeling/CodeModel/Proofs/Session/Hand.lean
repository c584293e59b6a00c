import CodeModel.Proofs.Session.Invariant
import CodeModel.Session.Build

/-! What a builder makes fits beside what was there, and nothing that was there changes. -/

namespace CodeModel

def Builder.Makes {α : Type} (act : Builder α) (P : Session → Prop) (Q : α → Session → Prop) : Prop :=
  ∀ s, P s → ∀ a t, act.run s = some (a, t) → Q a t

namespace Builder.Makes

variable {α β : Type} {P : Session → Prop} {Q Q' : α → Session → Prop} {R : β → Session → Prop} {φ : Prop}

lemma bind {act : Builder α} {next : α → Builder β} {Q : α → Session → Prop} (h : act.Makes P Q)
    (h' : ∀ a, (next a).Makes (Q a) R) :
    (act >>= next).Makes P R := by
  intro s hs b u hrun
  rw [StateT.run_bind] at hrun
  obtain ⟨⟨a, t⟩, ha, hb⟩ := Option.bind_eq_some_iff.mp hrun
  exact h' a t (h s hs a t ha) b u hb

lemma pure {a : α} (h : ∀ s, P s → Q a s) : Builder.Makes (Pure.pure a) P Q := by
  intro s hs b t hrun
  obtain ⟨rfl, rfl⟩ : a = b ∧ s = t := by simpa using hrun
  exact h s hs

lemma failure : Builder.Makes (α := α) failure P Q := by
  intro s _ a t hrun
  cases hrun

lemma ofOption {o : Option α} (h : ∀ a, o = some a → ∀ s, P s → Q a s) : (Builder.ofOption o).Makes P Q := by
  cases o with
  | none => exact .failure
  | some a => exact .pure (h a rfl)

lemma get {Q : Session → Session → Prop} (h : ∀ s, P s → Q s s) : Builder.Makes MonadState.get P Q := by
  intro s hs a t hrun
  obtain ⟨rfl, rfl⟩ : s = a ∧ s = t := by simpa using hrun
  exact h s hs

lemma modify {f : Session → Session} {Q : Unit → Session → Prop} (h : ∀ s, P s → Q () (f s)) :
    Builder.Makes (modify f) P Q := by
  intro s hs a t hrun
  obtain rfl : f s = t := by simpa using congrArg (Option.map Prod.snd) hrun
  exact h s hs

lemma given {act : Builder α} (h : φ → act.Makes P Q) : act.Makes (fun s => P s ∧ φ) Q := by
  intro s hs
  exact h hs.2 s hs.1

lemma weaken {act : Builder α} {P' : Session → Prop} (h : act.Makes P Q) (hP : ∀ s, P' s → P s) :
    act.Makes P' Q := by
  intro s hs
  exact h s (hP s hs)

lemma imp {act : Builder α} (h : act.Makes P Q) (hQ : ∀ a s, Q a s → Q' a s) : act.Makes P Q' := by
  intro s hs a t hrun
  exact hQ a t (h s hs a t hrun)

end Builder.Makes

namespace Session

variable {σ τ υ : Store} {s t u : Session}

structure Built (σ : Store) (s : Session) (τ : Store) (t : Session) : Prop where
  same : t = { s with nextObject := t.nextObject, nextText := t.nextText, frozen := t.frozen }
  nextObject : s.nextObject ≤ t.nextObject
  extends' : σ.Extends τ
  object : ∀ id < s.nextObject, τ.object id = σ.object id
  frozen : ∀ id ∈ s.frozen, id ∈ t.frozen

lemma Built.refl (σ : Store) (s : Session) : Built σ s σ s :=
  ⟨rfl, le_rfl, .refl σ, fun _ _ => rfl, fun _ h => h⟩

lemma Built.registers (h : Built σ s τ t) : t.registers = s.registers := by
  rw [h.same]

structure Free (σ : Store) (s : Session) (a : Nat) : Prop where
  bound : a < s.nextObject
  object : σ.object a = none
  list : σ.list a = none
  frozen : a ∉ s.frozen

def Hand (σ : Store) (s : Session) (is : List Item) (free : List Nat) (t : Session) : Prop :=
  ∃ τ, t.Good τ ∧ Built σ s τ t ∧ (∀ i ∈ is, τ.Fits i) ∧ free.Nodup ∧
    ∀ a ∈ free, s.nextObject ≤ a ∧ Free τ t a

variable {is js : List Item} {free : List Nat}

lemma hand_start (hg : s.Good σ) : Hand σ s [] [] s := ⟨σ, hg, .refl σ s, by simp⟩

lemma Hand.imp (h : Hand σ s is free t) (hj : ∀ j ∈ js, j ∈ is) : Hand σ s js free t := by
  obtain ⟨τ, hg, hb, hf, hfree⟩ := h
  exact ⟨τ, hg, hb, fun j hj' => hf j (hj j hj'), hfree⟩

lemma Hand.skip {i j : Item} (h : Hand σ s (j :: i :: is) free t) : Hand σ s (j :: is) free t :=
  h.imp fun l hl => by
    rcases List.mem_cons.mp hl with rfl | hl
    · exact List.mem_cons_self
    · exact List.mem_cons_of_mem _ (List.mem_cons_of_mem _ hl)

lemma Hand.forget {a : Nat} (h : Hand σ s is (a :: free) t) : Hand σ s is free t := by
  obtain ⟨τ, hg, hb, hf, hn, hfree⟩ := h
  exact ⟨τ, hg, hb, hf, hn.of_cons, fun b hb => hfree b (List.mem_cons_of_mem _ hb)⟩

lemma Hand.parts {i : Item} (h : Hand σ s is free t) (hi : i ∈ is) : Hand σ s (i.parts ++ is) free t := by
  obtain ⟨τ, hg, hb, hf, hfree⟩ := h
  refine ⟨τ, hg, hb, fun j hj => ?_, hfree⟩
  rcases List.mem_append.mp hj with hj | hj
  · exact (hf i hi).part hj
  · exact hf j hj

lemma Hand.within {i j : Item} (h : Hand σ s is free t) (hi : i ∈ is) (hj : Item.Within j i) :
    Hand σ s (j :: is) free t := by
  obtain ⟨τ, hg, hb, hf, hfree⟩ := h
  exact ⟨τ, hg, hb, by simpa using ⟨(hf i hi).within hj, hf⟩, hfree⟩

lemma Hand.nothing (h : Hand σ s is free t) : Hand σ s (.nothing :: is) free t := by
  obtain ⟨τ, hg, hb, hf, hfree⟩ := h
  exact ⟨τ, hg, hb, by simpa using ⟨Store.fits_nothing, hf⟩, hfree⟩

lemma Hand.shared (h : Hand σ s is free t) (x : SharedType) :
    Hand σ s (.entity .typeRef x.handle :: is) free t := by
  obtain ⟨τ, hg, hb, hf, hfree⟩ := h
  exact ⟨τ, hg, hb, by simpa using ⟨hg.shared x, hf⟩, hfree⟩

lemma Hand.emptyText (h : Hand σ s is free t) : Hand σ s (.text .empty :: is) free t := by
  obtain ⟨τ, hg, hb, hf, hfree⟩ := h
  exact ⟨τ, hg, hb, by simpa using ⟨hg.empty, hf⟩, hfree⟩

theorem Hand.object {i : Item} {a : Nat} (h : Hand σ s is (a :: free) t) (hid : i.label? = some a)
    (hp : ∀ p ∈ i.parts, p ∈ is) : Hand σ s (i :: is) free t := by
  obtain ⟨τ, hg, hb, hf, hn, hfree⟩ := h
  simp only [List.nodup_cons, List.mem_cons, forall_eq_or_imp] at hn hfree
  obtain ⟨⟨hnew, ha⟩, hfree⟩ := hfree
  have unlabelled (j : Item) (hj : τ.Fits j) : ¬ j.Labels a := fun hl => by
    obtain ⟨l, -, -, hl⟩ := hj.object_of_labels hl
    simp [ha.object] at hl
  have other (id : Nat) (hk : t.Keeps none id ∨ id ∈ t.frozen) : (τ.put a i).object id = τ.object id := by
    refine Store.put_other ?_
    rintro rfl
    rcases hk with hk | hk
    · obtain ⟨j, hj⟩ := hg.object_of_keeps hk
      simp [ha.object] at hj
    · exact ha.frozen hk
  have bounded (id : Nat) (j : Item) (hj : (τ.put a i).object id = some j) : id < t.nextObject := by
    by_cases he : id = a
    · exact he ▸ ha.bound
    · exact hg.object id j (by rwa [Store.put_other he] at hj)
  refine ⟨τ.put a i, hg.store (Store.put_extends τ a i) other le_rfl bounded hg.list hg.text,
    { hb with extends' := hb.extends'.trans (Store.put_extends τ a i), object := fun id hid => ?_ }, ?_, hn.2,
    fun b hbf => ?_⟩
  · rw [Store.put_other (by omega), hb.object id hid]
  · simp only [List.mem_cons, forall_eq_or_imp]
    refine ⟨Store.fits_iff.mpr ⟨?_, fun p hpart => (hf p (hp p hpart)).put (unlabelled p (hf p (hp p hpart)))⟩,
      fun j hj => (hf j hj).put (unlabelled j (hf j hj))⟩
    cases i <;> simp_all [Item.label?, Store.Knows]
  · have ne : b ≠ a := fun he => hn.1 (he ▸ hbf)
    exact ⟨(hfree b hbf).1, { (hfree b hbf).2 with object := (Store.put_other ne).trans (hfree b hbf).2.object }⟩

theorem Hand.list {a : Nat} (h : Hand σ s is (a :: free) t) (k : Kind) (items : List (Handle k.Carrier))
    (hp : ∀ x ∈ items, .entity k x ∈ is) : Hand σ s (.list k ⟨false, a, items⟩ :: is) free t := by
  obtain ⟨τ, hg, hb, hf, hn, hfree⟩ := h
  simp only [List.nodup_cons, List.mem_cons, forall_eq_or_imp] at hn hfree
  obtain ⟨⟨hnew, ha⟩, hfree⟩ := hfree
  have grown := Store.putList_extends (k, false, items.map Handle.id) ha.list
  have bounded (id : Nat) (b : Kind × Bool × List Nat)
      (hid : (τ.putList a (k, false, items.map Handle.id)).list id = some b) : id < t.nextObject := by
    by_cases he : id = a
    · exact he ▸ ha.bound
    · exact hg.list id b (by simpa [Store.putList, he] using hid)
  refine ⟨τ.putList a (k, false, items.map Handle.id),
    hg.store grown (fun _ _ => rfl) le_rfl hg.object bounded hg.text,
    { hb with extends' := hb.extends'.trans grown }, ?_, hn.2, fun b hbf => ?_⟩
  · simp only [List.mem_cons, forall_eq_or_imp]
    refine ⟨Store.fits_iff.mpr ⟨fun _ => by simp [Store.putList], fun p hpart => ?_⟩,
      fun j hj => (hf j hj).putList _ ha.list⟩
    obtain ⟨x, hx, rfl⟩ := List.mem_map.mp hpart
    exact (hf _ (hp x hx)).putList _ ha.list
  · have ne : b ≠ a := fun he => hn.1 (he ▸ hbf)
    refine ⟨(hfree b hbf).1, { (hfree b hbf).2 with list := ?_ }⟩
    simpa [Store.putList, ne] using (hfree b hbf).2.list

end Session

namespace Builder

open Session

variable {σ : Store} {s : Session} {is : List Item} {free : List Nat}

lemma objectLabels_makes (n : Nat) : (objectLabels n).Makes (Hand σ s is free)
    (fun a => Hand σ s is (List.range' a n ++ free)) := by
  rintro t ⟨τ, hg, hb, hf, hn, hfree⟩ a u hrun
  obtain ⟨rfl, rfl⟩ : t.nextObject = a ∧ { t with nextObject := t.nextObject + n } = u := by
    simpa [objectLabels] using hrun
  have good := hg.store (.refl τ) (fun _ _ => rfl) (Nat.le_add_right _ n)
    (fun id i hi => (hg.object id i hi).trans_le (Nat.le_add_right _ n))
    (fun id a ha => (hg.list id a ha).trans_le (Nat.le_add_right _ n)) hg.text
  have unused (b : Nat) (hle : t.nextObject ≤ b) : τ.object b = none ∧ τ.list b = none := by
    constructor
    · by_contra hs
      obtain ⟨i, hi⟩ := Option.ne_none_iff_exists'.mp hs
      exact absurd (hg.object b i hi) (by omega)
    · by_contra hs
      obtain ⟨i, hi⟩ := Option.ne_none_iff_exists'.mp hs
      exact absurd (hg.list b i hi) (by omega)
  refine ⟨τ, good, ?_, hf, ?_, fun b hb' => ?_⟩
  · exact { hb with same := by rw [hb.same], nextObject := hb.nextObject.trans (Nat.le_add_right _ n) }
  · refine List.nodup_append.mpr ⟨List.nodup_range', hn, fun b hb' c hc => ?_⟩
    have := (List.mem_range'_1.mp hb').1
    have := (hfree c hc).2.bound
    omega
  · rcases List.mem_append.mp hb' with hb' | hb'
    · obtain ⟨hle, hlt⟩ := List.mem_range'_1.mp hb'
      exact ⟨hb.nextObject.trans hle, hlt, (unused b hle).1, (unused b hle).2, fun hz =>
        absurd (hg.frozen b hz) (by omega)⟩
    · have old := (hfree b hb').2
      exact ⟨(hfree b hb').1, old.bound.trans_le (Nat.le_add_right _ n), old.object, old.list, old.frozen⟩

lemma label_makes : label.Makes (Hand σ s is free) (fun a => Hand σ s is (a :: free)) := objectLabels_makes 1

lemma place_makes {k : Kind} {v : k.Carrier} (hp : ∀ p ∈ k.parts v, p ∈ is) :
    (place v).Makes (Hand σ s is free) (fun x => Hand σ s (.entity k x :: is) free) :=
  label_makes.bind fun _ => .pure fun _ ht => ht.object rfl hp

lemma list_makes {k : Kind} {items : List (Handle k.Carrier)} (hp : ∀ x ∈ items, .entity k x ∈ is) :
    (list items).Makes (Hand σ s is free) (fun l => Hand σ s (.list k l :: is) free) :=
  label_makes.bind fun _ => .pure fun _ ht => ht.list k items hp

lemma textLabels_makes (ss : List String) : (textLabels ss.length).Makes (Hand σ s is free)
    (fun a => Hand σ s ((ss.zipIdx a).map (fun p => .text ⟨p.2, p.1⟩) ++ is) free) := by
  rintro t ⟨τ, hg, hb, hf, hn, hfree⟩ a u hrun
  obtain ⟨rfl, rfl⟩ : t.nextText = a ∧ { t with nextText := t.nextText + ss.length } = u := by
    simpa [textLabels] using hrun
  have grown := Store.putTexts_extends ss hg.text
  have bounded (id : Nat) (v : String) (hv : (τ.putTexts t.nextText ss).text id = some v) :
      id < t.nextText + ss.length := by
    simp only [Store.putTexts] at hv
    split at hv
    · omega
    · have := (List.getElem?_eq_some_iff.mp hv).1
      omega
  refine ⟨τ.putTexts t.nextText ss, hg.store grown (fun _ _ => rfl) le_rfl hg.object hg.list bounded,
    { hb with same := by rw [hb.same], extends' := hb.extends'.trans grown }, fun i hi => ?_, hn,
    fun a ha => ⟨(hfree a ha).1, { (hfree a ha).2 with }⟩⟩
  rcases List.mem_append.mp hi with hi | hi
  · obtain ⟨p, hp, rfl⟩ := List.mem_map.mp hi
    exact Store.fits_putTexts hp
  · exact (hf i hi).mono grown fun _ _ => rfl

lemma text_makes (v : String) : (text v).Makes (Hand σ s is free) (fun t => Hand σ s (.text t :: is) free) :=
  (textLabels_makes [v]).bind fun _ => .pure fun _ ht => ht

lemma register_makes (name : String) : (register name).Makes (Hand σ s is free)
    (fun i t => Hand σ s (i :: is) free t ∧ s.register? name = some i) := by
  refine .bind (Q := fun r t => Hand σ s is free t ∧ r = t) (.get fun t ht => ⟨ht, rfl⟩) fun r => ?_
  apply Builder.Makes.ofOption
  rintro i hi t ⟨ht, hr⟩
  obtain ⟨τ, hg, hb, hf, hfree⟩ := ht
  have hs : s.register? name = some i := by
    rw [← hi, hr, hb.same]
    rfl
  have found : (name, i) ∈ t.registers := mem_of_lookup (hr ▸ hi)
  exact ⟨⟨τ, hg, hb, by simpa using ⟨hg.registers _ found, hf⟩, hfree⟩, hs⟩

lemma entity_makes (k : Kind) (name : String) : (entity k name).Makes (Hand σ s is free)
    (fun x => Hand σ s (.entity k x :: is) free) := by
  refine (register_makes name).bind fun i => .given fun _ => ?_
  cases i with
  | entity j x =>
    by_cases h : j = k
    · subst h
      simpa using .pure fun t ht => ht
    · simpa [h] using .failure
  | _ => exact .failure

end Builder

end CodeModel
