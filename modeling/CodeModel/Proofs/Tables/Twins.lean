import CodeModel.Proofs.Graph.TwinFields
import CodeModel.Proofs.Tables.Growth
import CodeModel.Proofs.Tables.Spellings

namespace CodeModel

variable {h : Hasher} {d : Seeding}

structure Spellings.Twin (d : Seeding) (seeded : Prop) (m n : Spellings) : Prop where
  same : ∀ v, ¬ (seeded ∧ v ∈ TextPool.commonTexts) → Option.Rel (Text.Twin d) (m.handle v) (n.handle v)
  seeds : seeded → ∀ v ∈ TextPool.commonTexts, ∃ t ∈ d.texts, m.handle v = some t

def TextPool.Twin (h : Hasher) (d : Seeding) (seeded : Prop) (p q : TextPool) : Prop :=
  (p.spellings h).Twin d seeded (q.spellings h)

lemma TextPool.empty_not_common : "" ∉ commonTexts := by decide

def TextPool.missing (h : Hasher) (q : TextPool) : Finset String :=
  commonTexts.toFinset.filter fun v => q.find? h v = none

lemma TextPool.mem_missing {q : TextPool} {v : String} : v ∈ q.missing h ↔ v ∈ commonTexts ∧ q.find? h v = none := by
  simp [missing]

structure Provider.Twin (h : Hasher) (d : Seeding) (p q : Provider) : Prop where
  number : p.number = q.number
  pool : p.pool.Twin h d (p.number = d.number) q.pool
  entities : ∀ k, List.Forall₂ (fun e f => Handle.Twin d k e.entity f.entity) (p.entities k) (q.entities k)
  lists : ∀ k, List.Forall₂ (fun r s => r.list.Twin d k s.list) (p.lists k) (q.lists k)
  entityCount : p.entityCount = q.entityCount
  listCount : p.listCount = q.listCount
  hits : p.hits = q.hits
  misses : p.misses = q.misses

section Lookup

variable {α β : Type} {R : α → β → Prop} {as : List α} {bs : List β} {f : α → Bool} {g : β → Bool}

lemma rel_find? (hs : List.Forall₂ R as bs) (hfg : ∀ a ∈ as, ∀ b ∈ bs, R a b → f a = g b) :
    Option.Rel R (as.find? f) (bs.find? g) := by
  induction hs with
  | nil => exact .none
  | cons hab _ ih =>
    simp only [List.mem_cons, forall_eq_or_imp] at hfg
    rw [List.find?_cons, List.find?_cons, hfg.1.1 hab]
    split
    · exact .some hab
    · exact ih fun a ha b hb => (hfg.2 a ha).2 b hb

lemma rel_countP (hs : List.Forall₂ R as bs) (hfg : ∀ a ∈ as, ∀ b ∈ bs, R a b → f a = g b) :
    as.countP f = bs.countP g := by
  have same : as.map f = bs.map g := map_of_forall₂ (forall₂_of_mem hs hfg)
  simpa [List.countP_map] using congrArg (List.countP id) same

lemma rel_any (hs : List.Forall₂ R as bs) (hfg : ∀ a ∈ as, ∀ b ∈ bs, R a b → f a = g b) : as.any f = bs.any g := by
  have same : as.map f = bs.map g := map_of_forall₂ (forall₂_of_mem hs hfg)
  simpa [List.any_map] using congrArg (List.any · id) same

end Lookup

section Pools

variable {seeded : Prop} {m n : Spellings} {p q : TextPool} {t u : Text} {ts us : List Text}

lemma Seeding.find?_texts (d : Seeding) {v : String} (hv : v ∈ TextPool.commonTexts) :
    ∃ t ∈ d.texts, d.texts.find? (·.val == v) = some t := by
  obtain ⟨n, hn⟩ := List.mem_iff_getElem?.mp hv
  have placed : (v, d.label + n) ∈ TextPool.commonTexts.zipIdx d.label := List.mk_add_mem_zipIdx_iff_getElem?.mpr hn
  have found : (d.texts.find? (·.val == v)).isSome = true :=
    List.find?_isSome.mpr ⟨_, List.mem_map_of_mem placed, by simp⟩
  obtain ⟨t, ht⟩ := Option.isSome_iff_exists.mp found
  exact ⟨t, List.mem_of_find?_eq_some ht, ht⟩

namespace Spellings.Twin

lemma refl (m : Spellings) (hs : ¬ seeded) : m.Twin d seeded m where
  same v _ := by
    cases m.handle v with
    | none => exact .none
    | some t => exact .some (.refl t)
  seeds h := absurd h hs

lemma seed (hs : seeded) : (initial.enter d.texts).Twin d seeded initial where
  same v hv := by
    by_cases he : v = ""
    · rw [he, Spellings.empty, Spellings.empty]
      exact .some (.refl _)
    · have unknown : d.texts.find? (·.val == v) = none := by
        rw [List.find?_eq_none]
        intro t ht hval
        obtain ⟨c, hc, rfl⟩ := List.mem_map.mp ht
        obtain rfl : c.1 = v := by simpa using hval
        exact hv ⟨hs, List.fst_mem_of_mem_zipIdx hc⟩
      have new : initial.handle v = none := if_neg he
      rw [initial_enter he, unknown, new]
      exact .none
  seeds _ v hv := by
    rw [initial_enter fun he => TextPool.empty_not_common (he ▸ hv)]
    exact d.find?_texts hv

lemma enter (h : m.Twin d seeded n) (hts : List.Forall₂ (Text.Twin d) ts us) :
    (m.enter ts).Twin d seeded (n.enter us) where
  same v hv := by
    have offered : Option.Rel (Text.Twin d) (ts.find? (·.val == v)) (us.find? (·.val == v)) :=
      rel_find? hts fun t _ u _ htu => by rw [htu.1]
    have known := h.same v hv
    simp only [Spellings.enter]
    revert known
    cases m.handle v <;> cases n.handle v <;> rintro ⟨⟩
    · exact offered
    · exact .some ‹_›
  seeds hs v hv := by
    obtain ⟨t, ht, found⟩ := h.seeds hs v hv
    exact ⟨t, ht, enter_old found ts⟩

lemma handle (h : m.Twin d seeded n) (htu : t.Twin d u) :
    ((m.handle t.val).getD t).Twin d ((n.handle u.val).getD u) := by
  by_cases hs : seeded ∧ t.val ∈ TextPool.commonTexts
  · obtain ⟨w, hw, found⟩ := h.seeds hs.1 _ hs.2
    have value : w.val = ((n.handle u.val).getD u).val := by
      rw [m.spelled found, htu.1]
      cases hu : n.handle u.val with
      | none => rfl
      | some u' => exact (n.spelled hu).symm
    rw [found]
    exact ⟨value, .inr hw⟩
  · have known := h.same t.val hs
    rw [htu.1] at known ⊢
    revert known
    cases m.handle u.val <;> cases n.handle u.val <;> rintro ⟨⟩
    · exact htu
    · exact ‹_›

lemma isSome (h : m.Twin d seeded n) (v : String) :
    (m.handle v).isSome = true ↔ (n.handle v).isSome = true ∨ seeded ∧ v ∈ TextPool.commonTexts := by
  by_cases hs : seeded ∧ v ∈ TextPool.commonTexts
  · obtain ⟨t, -, found⟩ := h.seeds hs.1 v hs.2
    simp [found, hs]
  · have known := h.same v hs
    simp only [hs, or_false]
    revert known
    cases m.handle v <;> cases n.handle v <;> rintro ⟨⟩ <;> rfl

end Spellings.Twin

namespace TextPool.Twin

lemma adopt (hpq : p.Twin h d seeded q) (htu : t.Twin d u) :
    (p.adopt h t).1.Twin d (q.adopt h u).1 ∧ (p.adopt h t).2.Twin h d seeded (q.adopt h u).2 := by
  rw [TextPool.Twin, adopt_eq, adopt_eq, spellings_adopt, spellings_adopt]
  exact ⟨hpq.handle htu, hpq.enter (.cons htu .nil)⟩

open Classical in
theorem size (hpq : p.Twin h d seeded q) (hp : p.Filed h) (hq : q.Filed h) :
    p.size = q.size + if seeded then (q.missing h).card else 0 := by
  let own : Finset String := (q.texts.map Handle.val).toFinset
  have mem_own (v : String) : v ∈ own ↔ v ≠ "" ∧ ((q.spellings h).handle v).isSome = true :=
    List.mem_toFinset.trans hq.mem_spellings
  rw [hq.size mem_own]
  by_cases hs : seeded
  · have apart : Disjoint own (q.missing h) := by
      rw [Finset.disjoint_left]
      intro v hv hm
      obtain ⟨-, found⟩ := (mem_own v).mp hv
      simp [(mem_missing.mp hm).2, spellings] at found
    have spelled (v : String) : v ∈ own ∪ q.missing h ↔ v ≠ "" ∧ ((p.spellings h).handle v).isSome = true := by
      rw [Finset.mem_union, mem_own, mem_missing, hpq.isSome]
      have nonempty : v ∈ commonTexts → v ≠ "" := fun hv he => empty_not_common (he ▸ hv)
      cases hf : q.find? h v <;> simp [spellings, hf, hs]
      exact fun hv => nonempty hv
    rw [if_pos hs, hp.size spelled, Finset.card_union_of_disjoint apart, Nat.add_assoc]
  · have spelled (v : String) : v ∈ own ↔ v ≠ "" ∧ ((p.spellings h).handle v).isSome = true := by
      rw [mem_own, hpq.isSome]
      simp [hs]
    rw [if_neg hs, hp.size spelled, Nat.add_zero]

end TextPool.Twin

end Pools

lemma Kind.Twin.value {k : Kind} {v w : k.Carrier} (h : k.Twin d v w) : k.bare v = k.bare w :=
  Kind.bare_congr h.1 (map_of_forall₂ (h.2.imp fun _ _ h => h.value))

namespace Provider

variable {p q : Provider} {σ τ : Store} {k : Kind} {x y : Handle k.Carrier} {v w : k.Carrier}

def Stops (h : Hasher) (k : Kind) (v : k.Carrier) (e : Entry k.Carrier) : Bool :=
  e.hash == k.fingerprint h v && k.same e.entity.val v

lemma find?_eq (p : Provider) (v : k.Carrier) :
    p.find? h k v = ((p.entities k).find? (Stops h k v)).map Entry.entity := by
  simp only [Provider.find?, bucket, List.find?_map, List.find?_filter]
  congr 2
  funext e
  rw [Bool.eq_iff_iff]
  simp [Stops]

lemma canonicalCount_eq (p : Provider) (v : k.Carrier) :
    p.canonicalCount h k v = (p.entities k).countP (Stops h k v) := by
  simp only [canonicalCount, bucket, List.filter_map, List.length_map, List.filter_filter, List.countP_eq_length_filter]
  congr 2
  funext e
  simp [Stops, Bool.and_comm]

lemma Sound.same_iff (hp : p.Sound h) (hf : p.Fits h σ) (hk : k.isModel = true)
    (hv : ∀ i ∈ k.parts v, p.Canonical h i) (hw : ∀ i ∈ k.parts w, p.Canonical h i) :
    k.same v w = true ↔ k.bare v = k.bare w := by
  constructor
  · exact Store.bare_of_same hk (fun i hi => (hv i hi).fits hf) fun i hi => (hw i hi).fits hf
  · intro hb
    obtain ⟨ho, hparts⟩ := Kind.bare_eq_iff.mp hb
    refine Kind.same_of_matches ho (forall₂_matches hparts fun i hi j hj hij => ?_)
    exact hp.matches_of_bare (Item.IsModel.parts (i := .entity k ⟨0, v⟩) hk i hi) (hv i hi) (hw j hj) hij

lemma Sound.stops_iff (hp : p.Sound h) (hf : p.Fits h σ) (hk : k.isModel = true) {e : Entry k.Carrier}
    (he : e ∈ p.entities k) (hv : ∀ i ∈ k.parts v, p.Canonical h i) :
    Stops h k v e = true ↔ k.bare e.entity.val = k.bare v := by
  have same := hp.same_iff hf hk (hp.entryParts k e he) hv
  simp only [Stops, Bool.and_eq_true, beq_iff_eq]
  refine ⟨fun hs => same.mp hs.2, fun hb => ⟨?_, same.mpr hb⟩⟩
  exact (hp.entryHash k e he).trans (fingerprint_congr hk (same.mpr hb))

lemma Sound.isCanonical_iff (hp : p.Sound h) (hf : p.Fits h σ) (hx : σ.Fits (.entity k x)) {held : Held} :
    p.isCanonical h held k x = true ↔ x.id ∈ (p.entities k).map (·.entity.id) := by
  rw [List.mem_map]
  constructor
  · intro hc
    obtain ⟨e, he, rfl⟩ := entry_of_isCanonical hf hx hc
    exact ⟨e, he, rfl⟩
  · rintro ⟨e, he, hid⟩
    have entry : p.HasEntry k e.entity := ⟨e, he, rfl⟩
    exact hp.isCanonical held ⟨e, he, Store.entity_eq (hf _ (.entry entry)) hx hid⟩

namespace Twin

lemma stops (hp : p.Sound h) (hq : q.Sound h) (hpf : p.Fits h σ) (hqf : q.Fits h τ) (hvw : k.Twin d v w)
    (hv : ∀ i ∈ k.parts v, p.Canonical h i) (hw : ∀ i ∈ k.parts w, q.Canonical h i) {e f : Entry k.Carrier}
    (he : e ∈ p.entities k) (hf : f ∈ q.entities k) (hef : e.entity.Twin d k f.entity) :
    Stops h k v e = Stops h k w f := by
  have twins := (Item.twin_entity.mp hef).2
  cases hk : k.isModel with
  | true =>
    rw [Bool.eq_iff_iff, hp.stops_iff hpf hk he hv, hq.stops_iff hqf hk hf hw, twins.value, hvw.value]
  | false =>
    cases k with
    | probe series =>
      obtain ⟨hash, tag, child⟩ := v
      obtain ⟨hash', tag', child'⟩ := w
      obtain ⟨he', -⟩ := twins
      obtain ⟨hvw', -⟩ := hvw
      simp only [Stops, hp.entryHash _ e he, hq.entryHash _ f hf]
      revert he' hvw'
      rcases e.entity.val with ⟨a, b, c⟩
      rcases f.entity.val with ⟨a', b', c'⟩
      simp +contextual [Kind.outline, Probe.outline, Kind.fingerprint, Probe.hash, Kind.same, Probe.same, Probe.tag]
    | _ => simp [Kind.isModel] at hk

theorem same (hp : p.Sound h) (hq : q.Sound h) (hpf : p.Fits h σ) (hqf : q.Fits h τ) {x' y' : Handle k.Carrier}
    (hx : p.HasEntry k x) (hy : p.HasEntry k y) (hx' : q.HasEntry k x') (hy' : q.HasEntry k y')
    (hxx : x.Twin d k x') (hyy : y.Twin d k y') :
    k.same x.val y.val = k.same x'.val y'.val ∧
      k.contractFailure? h x.val y.val = k.contractFailure? h x'.val y'.val := by
  have twins := (Item.twin_entity.mp hxx).2
  have twins' := (Item.twin_entity.mp hyy).2
  cases hk : k.isModel with
  | true =>
    have parts {z : Handle k.Carrier} (hz : p.HasEntry k z) (i : Item) (hi : i ∈ k.parts z.val) : p.Canonical h i :=
      hp.canonical_part (i := .entity k z) hz hi
    have parts' {z : Handle k.Carrier} (hz : q.HasEntry k z) (i : Item) (hi : i ∈ k.parts z.val) : q.Canonical h i :=
      hq.canonical_part (i := .entity k z) hz hi
    have same : k.same x.val y.val = k.same x'.val y'.val := by
      rw [Bool.eq_iff_iff, hp.same_iff hpf hk (parts hx) (parts hy), hq.same_iff hqf hk (parts' hx') (parts' hy'),
        twins.value, twins'.value]
    rw [contractFailure?_eq_none hk, contractFailure?_eq_none hk]
    exact ⟨same, rfl⟩
  | false =>
    cases k with
    | probe series =>
      obtain ⟨ho, -⟩ := twins
      obtain ⟨ho', -⟩ := twins'
      revert ho ho'
      rcases x.val with ⟨a, b, c⟩
      rcases y.val with ⟨a', b', c'⟩
      rcases x'.val with ⟨e, f, g⟩
      rcases y'.val with ⟨e', f', g'⟩
      simp +contextual [Kind.outline, Probe.outline, Kind.fingerprint, Probe.hash, Kind.same, Probe.same, Probe.tag,
        Kind.contractFailure?]
    | _ => simp [Kind.isModel] at hk

section Lookup

variable (ht : p.Twin h d q)

include ht

section Sound

variable (hp : p.Sound h) (hq : q.Sound h)

include hp hq

theorem find? (hpf : p.Fits h σ) (hqf : q.Fits h τ) (hvw : k.Twin d v w) (hv : ∀ i ∈ k.parts v, p.Canonical h i)
    (hw : ∀ i ∈ k.parts w, q.Canonical h i) : Option.Rel (Handle.Twin d k) (p.find? h k v) (q.find? h k w) := by
  rw [find?_eq, find?_eq]
  refine rel_map (rel_find? (ht.entities k) fun e he f hf hef => ?_) fun _ _ hef => hef
  exact stops hp hq hpf hqf hvw hv hw he hf hef

lemma canonicalCount (hpf : p.Fits h σ) (hqf : q.Fits h τ) (hvw : k.Twin d v w)
    (hv : ∀ i ∈ k.parts v, p.Canonical h i) (hw : ∀ i ∈ k.parts w, q.Canonical h i) :
    p.canonicalCount h k v = q.canonicalCount h k w := by
  rw [canonicalCount_eq, canonicalCount_eq]
  exact rel_countP (ht.entities k) fun e he f hf hef => stops hp hq hpf hqf hvw hv hw he hf hef

lemma findList? {xs ys : List (Handle k.Carrier)} (ids : xs.map Handle.id = ys.map Handle.id) :
    Option.Rel (fun r s => r.list.Twin d k s.list) (p.findList? h k xs) (q.findList? h k ys) := by
  simp only [Provider.findList?, listBucket, List.find?_filter]
  refine rel_find? (ht.lists k) fun r hr s hs hrs => ?_
  have own : r.items.map Handle.id = s.items.map Handle.id := Item.ids_of_twins hrs.items
  rw [Bool.eq_iff_iff]
  simp only [hp.recordHash k r hr, hq.recordHash k s hs, listFingerprint_congr ids, listFingerprint_congr own,
    sameItems_iff, decide_eq_true_eq, own, ids]

lemma isCanonicalList {l m : EntityList k.Carrier} (hlm : l.Twin d k m) :
    p.isCanonicalList h k l = q.isCanonicalList h k m := by
  obtain ⟨hsealed, hstorage, hitems⟩ := Item.twin_list.mp hlm
  simp only [Provider.isCanonicalList, listBucket, List.any_filter, hsealed, hstorage]
  congr 1
  refine rel_any (ht.lists k) fun r hr s hs hrs => ?_
  have storage : r.storage = s.storage := (Item.twin_list.mp hrs).2.1
  have own : r.items.map Handle.id = s.items.map Handle.id := Item.ids_of_twins hrs.items
  rw [hp.recordHash k r hr, hq.recordHash k s hs, listFingerprint_congr own,
    listFingerprint_congr (Item.ids_of_twins hitems), storage]

end Sound

lemma ids (k : Kind) : (p.entities k).map (·.entity.id) = (q.entities k).map (·.entity.id) :=
  map_of_forall₂ ((ht.entities k).imp fun _ _ hef => (Item.twin_entity.mp hef).1)

lemma holds : p.holds = q.holds := by
  funext id
  simp only [Provider.holds]
  congr 1
  funext k
  exact rel_any (ht.entities k) fun _ _ _ _ hef => by rw [(Item.twin_entity.mp hef).1]

theorem isCanonical (hp : p.Sound h) (hq : q.Sound h) (hpf : p.Fits h σ) (hqf : q.Fits h τ)
    (hx : σ.Fits (.entity k x)) (hy : τ.Fits (.entity k y)) (hxy : x.id = y.id) (held : Held) :
    p.isCanonical h held k x = q.isCanonical h held k y := by
  rw [Bool.eq_iff_iff, hp.isCanonical_iff hpf hx, hq.isCanonical_iff hqf hy, ht.ids, hxy]

end Lookup

section Tables

lemma rel_putAt {β γ : Kind → Type} {R : ∀ k, β k → γ k → Prop} {f : ∀ k, List (β k)} {g : ∀ k, List (γ k)}
    (h : ∀ k, List.Forall₂ (R k) (f k) (g k)) {a : β k} {b : γ k} (hab : R k a b) (j : Kind) :
    List.Forall₂ (R j) (putAt f k (f k ++ [a]) j) (putAt g k (g k ++ [b]) j) := by
  by_cases hj : j = k
  · subst hj
    simpa only [putAt_same] using List.rel_append (h j) (.cons hab .nil)
  · simpa only [putAt_other _ _ hj] using h j

variable (ht : p.Twin h d q)

include ht

lemma hit : p.hit.Twin h d q.hit := { ht with hits := congrArg (· + 1) ht.hits }

lemma miss : p.miss.Twin h d q.miss := { ht with misses := congrArg (· + 1) ht.misses }

lemma register (hxy : x.Twin d k y) : (p.register h k x).Twin h d (q.register h k y) :=
  { ht with
    entities := rel_putAt ht.entities (a := ⟨_, x⟩) (b := ⟨_, y⟩) hxy
    entityCount := congrArg (· + 1) ht.entityCount }

lemma recordList (storage : Nat) {xs ys : List (Handle k.Carrier)} (hs : List.Forall₂ (Handle.Twin d k) xs ys) :
    (p.recordList h k storage xs).Twin h d (q.recordList h k storage ys) :=
  { ht with
    lists := rel_putAt ht.lists (a := ⟨_, storage, xs⟩) (b := ⟨_, storage, ys⟩) (Item.twin_list.mpr ⟨rfl, rfl, hs⟩)
    listCount := congrArg (· + 1) ht.listCount }

lemma withPool {pool pool' : TextPool} (hpool : pool.Twin h d (p.number = d.number) pool') :
    Provider.Twin h d { p with pool } { q with pool := pool' } :=
  { ht with pool := hpool }

end Tables

end Twin

lemma Twin.refl (hp : p.number ≠ d.number) : p.Twin h d p :=
  ⟨rfl, Spellings.Twin.refl _ hp, fun _ => List.forall₂_same.mpr fun _ _ => .refl _,
    fun _ => List.forall₂_same.mpr fun _ _ => .refl _, rfl, rfl, rfl, rfl⟩

theorem create_twin {o o' : Options} {label : Nat} (number : Nat)
    (ho : o.preInternCommon = true ∧ o'.preInternCommon = false ∧ number = d.number ∧ label = d.label ∨
      o.preInternCommon = o'.preInternCommon ∧ number ≠ d.number) :
    (create h number label o).Twin h d (create h number label o') := by
  have shared (t : SharedType) : t.handle.Twin d .typeRef t.handle := .refl _
  have pools : TextPool.Twin h d (number = d.number)
      (if o.preInternCommon then TextPool.empty.internCommon h label else .empty)
      (if o'.preInternCommon then TextPool.empty.internCommon h label else .empty) := by
    rcases ho with ⟨seeded, unseeded, hn, rfl⟩ | ⟨same, hn⟩
    · rw [if_pos seeded, if_neg (by simp [unseeded]), TextPool.Twin, TextPool.internCommon,
        TextPool.spellings_internAll, TextPool.spellings_empty]
      exact .seed hn
    · rw [same]
      exact .refl _ hn
  have new {a b : TextPool} (hab : a.Twin h d (number = d.number) b) : Twin h d
      ⟨number, a, fun _ => [], fun _ => [], 0, 0, 0, 0⟩ ⟨number, b, fun _ => [], fun _ => [], 0, 0, 0, 0⟩ :=
    ⟨rfl, hab, fun _ => .nil, fun _ => .nil, rfl, rfl, rfl, rfl⟩
  exact (((new pools).register (shared .unknown)).register (shared .null)).register (shared .dynamic)

end Provider

end CodeModel
