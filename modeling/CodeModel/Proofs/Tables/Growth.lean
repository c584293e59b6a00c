import CodeModel.Proofs.Tables.Canonical
import Mathlib.Order.Nat

namespace CodeModel

lemma putAt_same {β : Kind → Type} (f : (k : Kind) → β k) (k : Kind) (b : β k) : putAt f k b k = b := by
  simp [putAt]

lemma putAt_other {β : Kind → Type} (f : (k : Kind) → β k) {j k : Kind} (b : β k) (h : j ≠ k) :
    putAt f k b j = f j := by
  simp [putAt, h]

lemma sum_putAt {β : Kind → Type} (f : (k : Kind) → List (β k)) (k : Kind) (b : β k) :
    (Provider.kinds.map fun j => (putAt f k (f k ++ [b]) j).length).sum =
      (Provider.kinds.map fun j => (f j).length).sum + 1 := by
  rcases k with _ | _ | _ | _ | _ | _ | _ <;>
    simp [Provider.kinds, putAt] <;> omega

structure Stats.AtMost (a b : Stats) : Prop where
  entities : a.entities ≤ b.entities
  lists : a.lists ≤ b.lists
  strings : a.strings ≤ b.strings
  hits : a.hits ≤ b.hits
  misses : a.misses ≤ b.misses

lemma Stats.AtMost.refl (a : Stats) : a.AtMost a := ⟨le_rfl, le_rfl, le_rfl, le_rfl, le_rfl⟩

lemma Stats.AtMost.trans {a b c : Stats} (hab : a.AtMost b) (hbc : b.AtMost c) : a.AtMost c where
  entities := hab.entities.trans hbc.entities
  lists := hab.lists.trans hbc.lists
  strings := hab.strings.trans hbc.strings
  hits := hab.hits.trans hbc.hits
  misses := hab.misses.trans hbc.misses

namespace Provider

variable {h : Hasher} {p q : Provider} {σ τ : Store}

structure Grows (h : Hasher) (p q : Provider) : Prop where
  number : q.number = p.number
  pool : p.pool.Grows h q.pool
  entry : ∀ k x, p.HasEntry k x → q.HasEntry k x
  record : ∀ k, ∀ r ∈ p.lists k, r ∈ q.lists k
  stats : p.stats.AtMost q.stats

lemma Grows.refl (h : Hasher) (p : Provider) : p.Grows h p :=
  ⟨rfl, .refl p.pool, fun _ _ hx => hx, fun _ _ hr => hr, .refl p.stats⟩

lemma Grows.trans {r : Provider} (hpq : p.Grows h q) (hqr : q.Grows h r) : p.Grows h r where
  number := hqr.number.trans hpq.number
  pool := hpq.pool.trans hqr.pool
  entry k x hx := hqr.entry k x (hpq.entry k x hx)
  record k r hr := hqr.record k r (hpq.record k r hr)
  stats := hpq.stats.trans hqr.stats

lemma Grows.registered (hg : p.Grows h q) {id : Nat} (hid : p.Registered id) : q.Registered id := by
  obtain ⟨k, x, hx, rfl⟩ := hid
  exact ⟨k, x, hg.entry k x hx, rfl⟩

theorem Canonical.mono (hg : p.Grows h q) {i : Item} (hi : p.Canonical h i) : q.Canonical h i := by
  cases i with
  | nothing => trivial
  | text t => exact hg.pool.find _ _ hi
  | entity k x => exact hg.entry k x hi
  | list k l =>
    rcases hi with hn | ⟨r, hr, rfl⟩
    · exact .inl hn
    · exact .inr ⟨r, hg.record k r hr, rfl⟩
  | definition => exact hi

lemma Root.mono (hg : p.Grows h q) {i : Item} (hi : p.Root h i) : q.Root h i := by
  cases hi with
  | entry hx => exact .entry (hg.entry _ _ hx)
  | record hr => exact .record (hg.record _ _ hr)
  | text ht => exact .text (hg.pool.find _ _ ht)

lemma Sound.fits_mono (hp : p.Sound h) (hf : p.Fits h σ) (he : σ.Extends τ)
    (hk : ∀ id, p.Registered id → τ.object id = σ.object id) : p.Fits h τ := fun i hi =>
  (hf i hi).mono he fun id hl => hk id (hp.registered_of_labels hi.canonical hl)

section Register

variable {k : Kind} {x : Handle k.Carrier}

lemma mem_entities_register {j : Kind} {e : Entry j.Carrier} :
    e ∈ (p.register h k x).entities j ↔
      e ∈ p.entities j ∨ ∃ hk : k = j, e = hk ▸ (⟨k.fingerprint h x.val, x⟩ : Entry k.Carrier) := by
  by_cases hk : k = j
  · subst hk
    simp [register, putAt_same]
  · simp [register, putAt_other _ _ (Ne.symm hk), hk]

lemma hasEntry_register {j : Kind} {y : Handle j.Carrier} :
    (p.register h k x).HasEntry j y ↔ p.HasEntry j y ∨ Item.entity j y = .entity k x := by
  simp only [HasEntry, mem_entities_register]
  constructor
  · rintro ⟨e, he | ⟨rfl, rfl⟩, rfl⟩
    · exact .inl ⟨e, he, rfl⟩
    · exact .inr rfl
  · rintro (⟨e, he, rfl⟩ | hy)
    · exact ⟨e, .inl he, rfl⟩
    · obtain ⟨rfl, hy⟩ : j = k ∧ HEq y x := by simpa using hy
      exact ⟨_, .inr ⟨rfl, rfl⟩, (eq_of_heq hy).symm⟩

lemma registered_register {id : Nat} :
    (p.register h k x).Registered id ↔ p.Registered id ∨ x.id = id := by
  simp only [Registered, hasEntry_register]
  constructor
  · rintro ⟨j, y, hy | hy, rfl⟩
    · exact .inl ⟨j, y, hy, rfl⟩
    · exact .inr (Option.some.inj (congrArg Item.label? hy)).symm
  · rintro (⟨j, y, hy, rfl⟩ | rfl)
    · exact ⟨j, y, .inl hy, rfl⟩
    · exact ⟨k, x, .inr rfl, rfl⟩

lemma grows_register (h : Hasher) (p : Provider) (k : Kind) (x : Handle k.Carrier) :
    p.Grows h (p.register h k x) where
  number := rfl
  pool := .refl p.pool
  entry _ _ hy := hasEntry_register.mpr (.inl hy)
  record _ _ hr := hr
  stats := { Stats.AtMost.refl p.stats with entities := Nat.le_succ _ }

lemma fits_register : (p.register h k x).Fits h σ ↔ p.Fits h σ ∧ σ.Fits (.entity k x) := by
  constructor
  · intro hf
    refine ⟨fun i hi => hf i ?_, hf _ (.entry (hasEntry_register.mpr (.inr rfl)))⟩
    cases hi with
    | entry hy => exact .entry (hasEntry_register.mpr (.inl hy))
    | record hr => exact .record hr
    | text ht => exact .text ht
  · rintro ⟨hf, hx⟩ i hi
    cases hi with
    | entry hy =>
      rcases hasEntry_register.mp hy with hy | hy
      · exact hf _ (.entry hy)
      · exact hy ▸ hx
    | record hr => exact hf _ (.record hr)
    | text ht => exact hf _ (.text ht)

theorem Sound.register (hp : p.Sound h) (hparts : ∀ i ∈ k.parts x.val, p.Canonical h i)
    (hn : p.find? h k x.val = none) : (p.register h k x).Sound h where
  entryHash j e he := by
    rcases mem_entities_register.mp he with he | ⟨rfl, rfl⟩
    · exact hp.entryHash j e he
    · rfl
  entryParts j e he i hi := by
    refine .mono (grows_register h p k x) ?_
    rcases mem_entities_register.mp he with he | ⟨rfl, rfl⟩
    · exact hp.entryParts j e he i hi
    · exact hparts i hi
  entryOnce j := by
    by_cases hj : j = k
    · subst hj
      simp only [Provider.register, putAt_same, List.pairwise_append, List.pairwise_singleton,
        List.mem_singleton, forall_eq]
      exact ⟨hp.entryOnce j, trivial, fun e he heq => find?_none hn he heq.1 heq.2⟩
    · simpa [Provider.register, putAt_other _ _ hj] using hp.entryOnce j
  recordHash := hp.recordHash
  recordFull := hp.recordFull
  recordParts j r hr y hy := (grows_register h p k x).entry j y (hp.recordParts j r hr y hy)
  recordOnce := hp.recordOnce
  filed := hp.filed
  entityCount := (congrArg (· + 1) hp.entityCount).trans (sum_putAt _ _ _).symm
  listCount := hp.listCount

end Register

section RecordList

variable {k : Kind} {storage : Nat} {items : List (Handle k.Carrier)}

lemma mem_lists_recordList {j : Kind} {r : Record j.Carrier} :
    r ∈ (p.recordList h k storage items).lists j ↔ r ∈ p.lists j ∨
      ∃ hk : k = j, r = hk ▸ (⟨listFingerprint h items, storage, items⟩ : Record k.Carrier) := by
  by_cases hk : k = j
  · subst hk
    simp [recordList, putAt_same]
  · simp [recordList, putAt_other _ _ (Ne.symm hk), hk]

lemma grows_recordList (h : Hasher) (p : Provider) (k : Kind) (storage : Nat)
    (items : List (Handle k.Carrier)) : p.Grows h (p.recordList h k storage items) where
  number := rfl
  pool := .refl p.pool
  entry _ _ hy := hy
  record _ _ hr := mem_lists_recordList.mpr (.inl hr)
  stats := { Stats.AtMost.refl p.stats with lists := Nat.le_succ _ }

lemma canonical_recordList (h : Hasher) (p : Provider) (k : Kind) (storage : Nat)
    (items : List (Handle k.Carrier)) :
    (p.recordList h k storage items).Canonical h (.list k ⟨true, storage, items⟩) :=
  .inr ⟨⟨listFingerprint h items, storage, items⟩, mem_lists_recordList.mpr (.inr ⟨rfl, rfl⟩), rfl⟩

lemma fits_recordList (hf : p.Fits h σ) (hl : σ.Fits (.list k ⟨true, storage, items⟩)) :
    (p.recordList h k storage items).Fits h σ := by
  intro i hi
  cases hi with
  | entry hy => exact hf _ (.entry hy)
  | record hr =>
    rcases mem_lists_recordList.mp hr with hr | ⟨rfl, rfl⟩
    · exact hf _ (.record hr)
    · exact hl
  | text ht => exact hf _ (.text ht)

theorem Sound.recordList (hp : p.Sound h) (hfull : items ≠ []) (hparts : ∀ x ∈ items, p.HasEntry k x)
    (hn : p.findList? h k items = none) : (p.recordList h k storage items).Sound h where
  entryHash := hp.entryHash
  entryParts j e he i hi := .mono (grows_recordList h p k storage items) (hp.entryParts j e he i hi)
  entryOnce := hp.entryOnce
  recordHash j r hr := by
    rcases mem_lists_recordList.mp hr with hr | ⟨rfl, rfl⟩
    · exact hp.recordHash j r hr
    · rfl
  recordFull j r hr := by
    rcases mem_lists_recordList.mp hr with hr | ⟨rfl, rfl⟩
    · exact hp.recordFull j r hr
    · exact hfull
  recordParts j r hr := by
    rcases mem_lists_recordList.mp hr with hr | ⟨rfl, rfl⟩
    · exact hp.recordParts j r hr
    · exact hparts
  recordOnce j := by
    by_cases hj : j = k
    · subst hj
      simp only [Provider.recordList, putAt_same, List.pairwise_append, List.pairwise_singleton,
        List.mem_singleton, forall_eq]
      exact ⟨hp.recordOnce j, trivial, fun r hr => hp.findList?_none hn hr⟩
    · simpa [Provider.recordList, putAt_other _ _ hj] using hp.recordOnce j
  filed := hp.filed
  entityCount := hp.entityCount
  listCount := (congrArg (· + 1) hp.listCount).trans (sum_putAt _ _ _).symm

end RecordList

lemma grows_hit (h : Hasher) (p : Provider) : p.Grows h p.hit :=
  { Grows.refl h p with stats := { Stats.AtMost.refl p.stats with hits := Nat.le_succ _ } }

lemma grows_miss (h : Hasher) (p : Provider) : p.Grows h p.miss :=
  { Grows.refl h p with stats := { Stats.AtMost.refl p.stats with misses := Nat.le_succ _ } }

lemma Sound.hit (hp : p.Sound h) : p.hit.Sound h := { hp with }

lemma Sound.miss (hp : p.Sound h) : p.miss.Sound h := { hp with }

lemma fits_hit (hf : p.Fits h σ) : p.hit.Fits h σ := by
  intro i hi
  cases hi with
  | entry hx => exact hf _ (.entry hx)
  | record hr => exact hf _ (.record hr)
  | text ht => exact hf _ (.text ht)

lemma fits_miss (hf : p.Fits h σ) : p.miss.Fits h σ := by
  intro i hi
  cases hi with
  | entry hx => exact hf _ (.entry hx)
  | record hr => exact hf _ (.record hr)
  | text ht => exact hf _ (.text ht)

section Pool

variable {pool : TextPool}

lemma grows_pool (hg : p.pool.Grows h pool) : p.Grows h { p with pool } :=
  { Grows.refl h p with pool := hg, stats := { Stats.AtMost.refl p.stats with strings := hg.size } }

lemma Sound.withPool (hp : p.Sound h) (hg : p.pool.Grows h pool) (hf : pool.Filed h) :
    Sound h { p with pool } where
  entryHash := hp.entryHash
  entryParts j e he i hi := .mono (grows_pool hg) (hp.entryParts j e he i hi)
  entryOnce := hp.entryOnce
  recordHash := hp.recordHash
  recordFull := hp.recordFull
  recordParts := hp.recordParts
  recordOnce := hp.recordOnce
  filed := hf
  entityCount := hp.entityCount
  listCount := hp.listCount

lemma fits_pool (hf : p.Fits h σ) (ht : ∀ s t, pool.find? h s = some t → σ.Fits (.text t)) :
    Fits h { p with pool } σ := by
  intro i hi
  cases hi with
  | entry hy => exact hf _ (.entry hy)
  | record hr => exact hf _ (.record hr)
  | text h => exact ht _ _ h

end Pool

lemma find?_typeRef_none {v : TypeRef} (hn : ∀ e ∈ p.entities .typeRef, TypeRef.same e.entity.val v = false) :
    p.find? h .typeRef v = none := by
  refine List.find?_eq_none.mpr fun x hx => ?_
  obtain ⟨e, he, -, rfl⟩ := mem_bucket.mp hx
  simpa [Kind.same] using hn e he

lemma register_shared_sound (hp : p.Sound h) (t : SharedType) (hn : ∀ e ∈ p.entities .typeRef,
    TypeRef.same e.entity.val t.handle.val = false) : (p.register h .typeRef t.handle).Sound h :=
  hp.register (by simp) (find?_typeRef_none hn)

theorem create_sound (h : Hasher) (number label : Nat) (options : Options) :
    (create h number label options).Sound h := by
  have none (pool : TextPool) (hf : pool.Filed h) :
      Sound h ⟨number, pool, fun _ => [], fun _ => [], 0, 0, 0, 0⟩ := by
    constructor <;> simp [hf, kinds]
  have seeded : (if options.preInternCommon then TextPool.empty.internCommon h label else .empty).Filed h := by
    split
    · exact TextPool.filed_empty.internAll label _
    · exact TextPool.filed_empty
  simp only [create, SharedType.all, List.foldl_cons, List.foldl_nil]
  refine register_shared_sound (register_shared_sound (register_shared_sound (none _ seeded) .unknown ?_) .null ?_)
    .dynamic ?_
  all_goals simp [register, putAt_same, SharedType.handle, TypeRef.same]

lemma create_number (h : Hasher) (number label : Nat) (options : Options) :
    (create h number label options).number = number := rfl

lemma create_fits {label : Nat}
    (shared : ∀ t : SharedType, σ.Fits (.entity .typeRef t.handle)) (empty : σ.Fits (.text .empty))
    (texts : ∀ q ∈ TextPool.commonTexts.zipIdx label, σ.Fits (.text ⟨q.2, q.1⟩)) (number : Nat)
    (options : Options) :
    (create h number label options).Fits h σ := by
  simp only [create, SharedType.all, List.foldl_cons, List.foldl_nil, fits_register]
  refine ⟨⟨⟨?_, shared _⟩, shared _⟩, shared _⟩
  intro i hi
  cases hi with
  | entry hx =>
    obtain ⟨e, he, -⟩ := hx
    simp at he
  | record hr => simp at hr
  | text ht =>
    split at ht
    · dsimp only [TextPool.internCommon] at ht
      rcases TextPool.find?_of_internAll ht with ht | ⟨q, hq, rfl⟩
      · exact TextPool.find?_empty h ht ▸ empty
      · exact texts q hq
    · exact TextPool.find?_empty h ht ▸ empty

end Provider

end CodeModel
