import CodeModel.Intern.Provider
import CodeModel.Proofs.Graph.Store
import CodeModel.Proofs.Tables.Pool
import Mathlib.Algebra.GroupWithZero.Nat

/-! What stands in the tables of a provider is filed under its hash and holds canonical parts only. -/

namespace CodeModel

def Record.list {α : Type} (r : Record α) : EntityList α := ⟨true, r.storage, r.items⟩

lemma sameItems_iff {α : Type} {xs ys : List (Handle α)} :
    sameItems xs ys = true ↔ xs.map Handle.id = ys.map Handle.id := by
  induction xs generalizing ys with
  | nil => cases ys <;> simp [sameItems]
  | cons x xs ih => cases ys <;> simp [sameItems, ih]

namespace Provider

variable {h : Hasher} {p q : Provider} {σ : Store}

def HasEntry (p : Provider) (k : Kind) (x : Handle k.Carrier) : Prop := ∃ e ∈ p.entities k, e.entity = x

/-- What a provider may hand out: pooled texts, entries of its tables, recorded or empty lists. -/
def Canonical (h : Hasher) (p : Provider) : Item → Prop
  | .nothing => True
  | .text t => p.pool.find? h t.val = some t
  | .entity k x => p.HasEntry k x
  | .list k l => l.items = [] ∨ ∃ r ∈ p.lists k, r.list = l
  | .definition _ => False

structure Sound (h : Hasher) (p : Provider) : Prop where
  entryHash : ∀ k, ∀ e ∈ p.entities k, e.hash = k.fingerprint h e.entity.val
  entryParts : ∀ k, ∀ e ∈ p.entities k, ∀ i ∈ k.parts e.entity.val, p.Canonical h i
  entryOnce : ∀ k, (p.entities k).Pairwise fun e f => ¬ (e.hash = f.hash ∧ k.same e.entity.val f.entity.val = true)
  recordHash : ∀ k, ∀ r ∈ p.lists k, r.hash = listFingerprint h r.items
  recordFull : ∀ k, ∀ r ∈ p.lists k, r.items ≠ []
  recordParts : ∀ k, ∀ r ∈ p.lists k, ∀ x ∈ r.items, p.HasEntry k x
  recordOnce : ∀ k, (p.lists k).Pairwise fun r s => r.items.map Handle.id ≠ s.items.map Handle.id
  filed : p.pool.Filed h
  entityCount : p.entityCount = (kinds.map fun k => (p.entities k).length).sum
  listCount : p.listCount = (kinds.map fun k => (p.lists k).length).sum

inductive Root (h : Hasher) (p : Provider) : Item → Prop
  | entry {k : Kind} {x : Handle k.Carrier} : p.HasEntry k x → Root h p (.entity k x)
  | record {k : Kind} {r : Record k.Carrier} : r ∈ p.lists k → Root h p (.list k r.list)
  | text {s : String} {t : Text} : p.pool.find? h s = some t → Root h p (.text t)

def Fits (h : Hasher) (p : Provider) (σ : Store) : Prop := ∀ i, p.Root h i → σ.Fits i

def Registered (p : Provider) (id : Nat) : Prop := ∃ k x, p.HasEntry k x ∧ x.id = id

lemma holds_iff {id : Nat} : p.holds id = true ↔ p.Registered id := by
  simp only [holds, List.any_eq_true, beq_iff_eq, Registered, HasEntry]
  constructor
  · rintro ⟨k, -, e, he, hid⟩
    exact ⟨k, e.entity, ⟨e, he, rfl⟩, hid⟩
  · rintro ⟨k, x, ⟨e, he, rfl⟩, hid⟩
    refine ⟨k, ?_, e, he, hid⟩
    cases k with
    | probe series => cases series <;> simp [kinds]
    | _ => simp [kinds]

lemma Root.canonical {i : Item} (hi : p.Root h i) : p.Canonical h i := by
  cases hi with
  | entry hx => exact hx
  | record hr => exact .inr ⟨_, hr, rfl⟩
  | text ht => exact TextPool.find?_self h ht

lemma Canonical.fits {i : Item} (hi : p.Canonical h i) (hf : p.Fits h σ) : σ.Fits i := by
  cases i with
  | nothing => exact Store.fits_nothing
  | text t => exact hf _ (.text hi)
  | entity k x => exact hf _ (.entry hi)
  | list k l =>
    rcases hi with hn | ⟨r, hr, rfl⟩
    · rw [Store.fits_iff]
      simp [Store.Knows, hn]
    · exact hf _ (.record hr)
  | definition => exact hi.elim

lemma Sound.canonical_part (hp : p.Sound h) {i j : Item} (hi : p.Canonical h i) (hj : j ∈ i.parts) :
    p.Canonical h j := by
  cases i with
  | nothing | text => simp at hj
  | entity k x =>
    obtain ⟨e, he, rfl⟩ := hi
    exact hp.entryParts k e he j hj
  | list k l =>
    rcases hi with hn | ⟨r, hr, rfl⟩
    · simp [hn] at hj
    · simp only [Item.parts_list, List.mem_map] at hj
      obtain ⟨x, hx, rfl⟩ := hj
      exact hp.recordParts k r hr x hx
  | definition => exact hi.elim

lemma Sound.canonical_within (hp : p.Sound h) {i j : Item} (hi : p.Canonical h i) (hj : Item.Within j i) :
    p.Canonical h j := by
  induction hj with
  | refl => exact hi
  | part hm _ ih => exact ih (hp.canonical_part hi hm)

lemma Sound.registered_of_labels (hp : p.Sound h) {i : Item} (hi : p.Canonical h i) {id : Nat}
    (hl : i.Labels id) : p.Registered id := by
  obtain ⟨j, hj, hid⟩ := hl
  have hc := hp.canonical_within hi hj
  cases j with
  | entity k x => exact ⟨k, x, hc, by simpa [Item.label?] using hid⟩
  | definition => exact hc.elim
  | _ => simp [Item.label?] at hid

section Lookup

lemma mem_bucket {k : Kind} {hash : UInt64} {x : Handle k.Carrier} :
    x ∈ p.bucket k hash ↔ ∃ e ∈ p.entities k, e.hash = hash ∧ e.entity = x := by
  simp [bucket, and_assoc]

lemma mem_listBucket {k : Kind} {hash : UInt64} {r : Record k.Carrier} :
    r ∈ p.listBucket k hash ↔ r ∈ p.lists k ∧ r.hash = hash := by
  simp [listBucket]

lemma Sound.find?_some (hp : p.Sound h) {k : Kind} {v : k.Carrier} {y : Handle k.Carrier}
    (hy : p.find? h k v = some y) :
    p.HasEntry k y ∧ k.fingerprint h y.val = k.fingerprint h v ∧ k.same y.val v = true := by
  obtain ⟨e, he, hash, rfl⟩ := mem_bucket.mp (List.mem_of_find?_eq_some hy)
  have same := List.find?_some hy
  exact ⟨⟨e, he, rfl⟩, by rw [← hp.entryHash k e he, hash], same⟩

lemma find?_none {k : Kind} {v : k.Carrier} (hn : p.find? h k v = none) {e : Entry k.Carrier}
    (he : e ∈ p.entities k) (hash : e.hash = k.fingerprint h v) : k.same e.entity.val v ≠ true := by
  have all := List.find?_eq_none.mp hn
  exact all e.entity (mem_bucket.mpr ⟨e, he, hash, rfl⟩)

lemma findList?_some {k : Kind} {items : List (Handle k.Carrier)} {r : Record k.Carrier}
    (hr : p.findList? h k items = some r) :
    r ∈ p.lists k ∧ r.items.map Handle.id = items.map Handle.id := by
  have same := List.find?_some hr
  exact ⟨(mem_listBucket.mp (List.mem_of_find?_eq_some hr)).1, sameItems_iff.mp same⟩

lemma listFingerprint_congr {α : Type} {xs ys : List (Handle α)} (hid : xs.map Handle.id = ys.map Handle.id) :
    listFingerprint h xs = listFingerprint h ys := by
  have hlen := congrArg List.length hid
  simp only [List.length_map] at hlen
  simp [listFingerprint, hid, hlen]

lemma Sound.findList?_none (hp : p.Sound h) {k : Kind} {items : List (Handle k.Carrier)}
    (hn : p.findList? h k items = none) {r : Record k.Carrier} (hr : r ∈ p.lists k) :
    r.items.map Handle.id ≠ items.map Handle.id := by
  intro hid
  have hash : r.hash = listFingerprint h items := by rw [hp.recordHash k r hr, listFingerprint_congr hid]
  exact List.find?_eq_none.mp hn r (mem_listBucket.mpr ⟨hr, hash⟩) (sameItems_iff.mpr hid)

lemma entry_of_isCanonical {held : Nat → Bool} {k : Kind} {x : Handle k.Carrier} (hf : p.Fits h σ)
    (hx : σ.Fits (.entity k x)) (hc : p.isCanonical h held k x = true) : p.HasEntry k x := by
  simp only [isCanonical, Bool.and_eq_true, List.any_eq_true, beq_iff_eq] at hc
  obtain ⟨⟨y, hy, hid⟩, -⟩ := hc
  obtain ⟨e, he, -, rfl⟩ := mem_bucket.mp hy
  have entry : p.HasEntry k e.entity := ⟨e, he, rfl⟩
  rwa [← Store.entity_eq (hf _ (.entry entry)) hx hid]

lemma Sound.isCanonical (hp : p.Sound h) (held : Nat → Bool) {k : Kind} {x : Handle k.Carrier} (hx : p.HasEntry k x) :
    p.isCanonical h held k x = true := by
  have holds : p.holds x.id = true := holds_iff.mpr ⟨k, x, hx, rfl⟩
  obtain ⟨e, he, rfl⟩ := hx
  have filed : e.entity ∈ p.bucket k (k.fingerprint h e.entity.val) :=
    mem_bucket.mpr ⟨e, he, hp.entryHash k e he, rfl⟩
  simp only [Provider.isCanonical, holds, Bool.or_true, Bool.and_true, List.any_eq_true, beq_iff_eq]
  exact ⟨e.entity, filed, rfl⟩

lemma Sound.isCanonicalList (hp : p.Sound h) {k : Kind} {r : Record k.Carrier} (hr : r ∈ p.lists k) :
    p.isCanonicalList h k r.list = true := by
  have filed : r ∈ p.listBucket k (listFingerprint h r.items) := mem_listBucket.mpr ⟨hr, hp.recordHash k r hr⟩
  simp only [Provider.isCanonicalList, Record.list, Bool.true_and, List.any_eq_true, beq_iff_eq]
  exact ⟨r, filed, rfl⟩

lemma Sound.passes_list (hp : p.Sound h) {k : Kind} {l : EntityList k.Carrier}
    (hl : l.items = [] ∨ ∃ r ∈ p.lists k, r.list = l) : l.items = [] ∨ p.isCanonicalList h k l = true :=
  hl.imp_right fun ⟨_, hr, same⟩ => same ▸ hp.isCanonicalList hr

lemma canonical_of_isCanonicalList {k : Kind} {l : EntityList k.Carrier} (hp : p.Sound h) (hf : p.Fits h σ)
    (hl : σ.Fits (.list k l)) (hc : p.isCanonicalList h k l = true) : p.Canonical h (.list k l) := by
  simp only [isCanonicalList, Bool.and_eq_true, List.any_eq_true, beq_iff_eq] at hc
  obtain ⟨-, r, hr, hs⟩ := hc
  obtain ⟨hr, -⟩ := mem_listBucket.mp hr
  by_cases hn : l.items = []
  · exact .inl hn
  · exact .inr ⟨r, hr, Store.list_eq (hf _ (.record hr)) hl (hp.recordFull k r hr) hn hs⟩

end Lookup

section Uniqueness

lemma mem_pairwise {α : Type} {R : α → α → Prop} {l : List α} (hl : l.Pairwise R) {a b : α} (ha : a ∈ l)
    (hb : b ∈ l) : a = b ∨ R a b ∨ R b a := by
  induction hl with
  | nil => simp at ha
  | @cons c l hc _ ih =>
    rcases List.mem_cons.mp ha with hac | ha <;> rcases List.mem_cons.mp hb with hbc | hb
    · exact .inl (hac.trans hbc.symm)
    · exact .inr (.inl (hac ▸ hc b hb))
    · exact .inr (.inr (hbc ▸ hc a ha))
    · exact ih ha hb

lemma Sound.entry_eq (hp : p.Sound h) {k : Kind} {x y : Handle k.Carrier}
    (hx : p.HasEntry k x) (hy : p.HasEntry k y)
    (hash : k.fingerprint h x.val = k.fingerprint h y.val) (hs : k.same x.val y.val = true)
    (hs' : k.same y.val x.val = true) : x = y := by
  obtain ⟨e, he, rfl⟩ := hx
  obtain ⟨f, hf, rfl⟩ := hy
  rw [← hp.entryHash k e he, ← hp.entryHash k f hf] at hash
  rcases mem_pairwise (hp.entryOnce k) he hf with rfl | hn | hn
  · rfl
  · exact (hn ⟨hash, hs⟩).elim
  · exact (hn ⟨hash.symm, hs'⟩).elim

lemma Sound.record_eq (hp : p.Sound h) {k : Kind} {r s : Record k.Carrier} (hr : r ∈ p.lists k)
    (hs : s ∈ p.lists k) (hid : r.items.map Handle.id = s.items.map Handle.id) : r = s := by
  rcases mem_pairwise (hp.recordOnce k) hr hs with rfl | hn | hn
  · rfl
  · exact (hn hid).elim
  · exact (hn hid.symm).elim

lemma fingerprint_congr {k : Kind} (hk : k.isModel = true) {v w : k.Carrier} (hs : k.same v w = true) :
    k.fingerprint h v = k.fingerprint h w := by
  cases k with
  | probe => simp [Kind.isModel] at hk
  | _ => simp only [Kind.fingerprint, Kind.same_words hk hs]

lemma contractFailure?_eq_none {k : Kind} (hk : k.isModel = true) {v w : k.Carrier} :
    k.contractFailure? h v w = none := by
  cases hs : k.same v w with
  | true => simp [Kind.contractFailure?, hs, fingerprint_congr hk hs]
  | false => simp [Kind.contractFailure?, hs]

lemma forall₂_matches {is js : List Item} (hb : is.map Item.bare = js.map Item.bare)
    (hm : ∀ i ∈ is, ∀ j ∈ js, i.bare = j.bare → Item.Matches i j) : List.Forall₂ Item.Matches is js := by
  induction is generalizing js with
  | nil =>
    cases js with
    | nil => exact .nil
    | cons => simp at hb
  | cons i is ih =>
    cases js with
    | nil => simp at hb
    | cons j js =>
      simp only [List.map_cons, List.cons.injEq] at hb
      exact .cons (hm i (by simp) j (by simp) hb.1)
        (ih hb.2 fun a ha b hb => hm a (by simp [ha]) b (by simp [hb]))

lemma ids_of_matches {k : Kind} {xs ys : List (Handle k.Carrier)}
    (h : List.Forall₂ Item.Matches (xs.map (.entity k)) (ys.map (.entity k))) :
    xs.map Handle.id = ys.map Handle.id := by
  simp only [List.forall₂_map_left_iff, List.forall₂_map_right_iff] at h
  rw [← List.forall₂_eq_eq_eq, List.forall₂_map_left_iff, List.forall₂_map_right_iff]
  apply h.imp
  intro x y hxy
  exact congrArg Handle.id hxy.entity_eq

theorem Sound.matches_of_bare (hp : p.Sound h) {i j : Item} (hm : i.IsModel) (hi : p.Canonical h i)
    (hj : p.Canonical h j) (hb : i.bare = j.bare) : Item.Matches i j := by
  induction i using Item.induction generalizing j with
  | step i ih =>
    have parts : List.Forall₂ Item.Matches i.parts j.parts := by
      refine forall₂_matches ?_ fun a ha b hb hab =>
        ih a ha (hm.parts a ha) (hp.canonical_part hi ha) (hp.canonical_part hj hb) hab
      rw [← Item.parts_bare, ← Item.parts_bare, hb]
    cases i with
    | nothing =>
      cases j with
      | nothing => exact .refl _
      | _ => cases hb
    | text t =>
      cases j with
      | text u =>
        have hv : t.val = u.val := by simpa [Text.bare] using hb
        have : some t = some u := hi.symm.trans ((congrArg _ hv).trans hj)
        rw [Option.some.inj this]
        exact .refl _
      | _ => cases hb
    | entity k x =>
      cases j with
      | entity k' y =>
        obtain ⟨rfl, hb⟩ : k = k' ∧ HEq (x.bare k.bare) (y.bare k'.bare) := by simpa [Item.bare] using hb
        have ho : k.outline x.val = k.outline y.val := by
          have := congrArg Handle.val (eq_of_heq hb)
          exact (Kind.bare_eq_iff.mp this).1
        have hs := Kind.same_of_matches ho parts
        have hs' := Kind.same_of_matches ho.symm (parts.flip.imp fun _ _ h => h.symm)
        rw [hp.entry_eq hi hj (fingerprint_congr hm hs) hs hs']
        exact .refl _
      | _ => cases hb
    | list k l =>
      cases j with
      | list k' m =>
        obtain ⟨rfl, hb⟩ : k = k' ∧ HEq (l.bare k.bare) (m.bare k'.bare) := by simpa [Item.bare] using hb
        have ids : l.items.map Handle.id = m.items.map Handle.id := ids_of_matches parts
        rcases hi with hl | ⟨r, hr, rfl⟩
        · exact .empty hl (by simpa [hl] using ids)
        rcases hj with hm | ⟨r', hr', rfl⟩
        · exact .empty (by simpa [hm] using ids) hm
        rw [hp.record_eq hr hr' ids]
        exact .refl _
      | _ => cases hb
    | definition => exact hi.elim

end Uniqueness

end Provider

end CodeModel
