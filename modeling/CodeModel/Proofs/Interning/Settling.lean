import CodeModel.Proofs.Graph.Twins
import CodeModel.Proofs.Interning.Listing
import CodeModel.Proofs.Interning.Members
import CodeModel.Proofs.Interning.Nesting

/-! Interning prepares an entity, and settles the prepared object in the tables as these are by then. -/

namespace CodeModel

open Interning

variable {s : Setting} {σ τ : Store} {w u : Work} {k : Kind} {x : Handle k.Carrier} {held : Held}

structure Prepared (h : Hasher) (q : Provider) (k : Kind) (v o : k.Carrier) : Prop where
  outline : k.outline o = k.outline v
  parts : ∀ i ∈ k.parts o, q.Canonical h i
  means : List.Forall₂ Item.Means (k.parts v) (k.parts o)

/-- Interning entity `x` in provider `p`, where labels from `next` on are unused, makes it `y` and the provider `q`: what
is settled is `x` itself, prepared, or a prepared copy of it under a new label. -/
def Provider.Interns (h : Hasher) (p : Provider) (next : Nat) (x y : Handle k.Carrier) (q : Provider) : Prop :=
  ∃ o : Handle k.Carrier, (o.id = x.id ∨ next ≤ o.id) ∧ Prepared h q k x.val o.val ∧
    (Kind.protocol h).Interns p.entities o y q.entities

lemma Prepared.mono {h : Hasher} {p q : Provider} {v o : k.Carrier} (hp : Prepared h p k v o) (hg : p.Grows h q) :
    Prepared h q k v o :=
  ⟨hp.outline, fun i hi => .mono hg (hp.parts i hi), hp.means⟩

lemma Prepared.probe {h : Hasher} {q : Provider} {series : ProbeSeries} {v o : Probe}
    (hp : Prepared h q (.probe series) v o) : o.hash = v.hash ∧ o.tag = v.tag := by
  obtain ⟨hash, tag, child⟩ := v
  obtain ⟨hash', tag', child'⟩ := o
  have same := hp.outline
  simp only [Kind.outline, Probe.outline, Probe.mk.injEq] at same
  exact ⟨same.1, same.2.1⟩

/-- What interning comes to: among the entries `U` that preparing `x` left there was one that agrees with the prepared
object `o`, and `x` became that, or there was none, and `o` was registered. -/
def Provider.Resolves (h : Hasher) (p : Provider) (next : Nat) (x y : Handle k.Carrier) (q : Provider) : Prop :=
  ∃ (o : Handle k.Carrier) (U : (Kind.protocol h).Tables), (o.id = x.id ∨ next ≤ o.id) ∧
    Prepared h q k x.val o.val ∧ (Kind.protocol h).Run p.entities U ∧ (Kind.protocol h).Outcome U o y q.entities

lemma Provider.Interns.resolves {h : Hasher} {p q : Provider} {n : Nat} {y : Handle k.Carrier}
    (hp : (Kind.protocol h).Filed p.entities) (hx : p.Interns h n x y q) : p.Resolves h n x y q := by
  obtain ⟨o, label, prepared, interns⟩ := hx
  obtain ⟨U, hr, outcome⟩ := interns.outcome (Kind.protocol_lawful h) hp
  exact ⟨o, U, label, prepared, hr, outcome⟩

section Settle

lemma settle_run_entities (hf : w.failure = none) (x : Handle k.Carrier) :
    ((settle s k x).run w).1 = ((Kind.protocol s.hasher).settle w.provider.entities k x).1 ∧
      ((settle s k x).run w).2.provider.entities = ((Kind.protocol s.hasher).settle w.provider.entities k x).2 := by
  cases hy : w.provider.find? s.hasher k x.val with
  | some y =>
    rw [settle_run_found hf hy]
    rw [Provider.find?_protocol] at hy
    rw [Protocol.settle_found hy]
    exact ⟨rfl, rfl⟩
  | none =>
    rw [settle_run_new hf hy]
    rw [Provider.find?_protocol] at hy
    rw [Protocol.settle_new hy]
    exact ⟨rfl, Provider.register_entities (h := s.hasher) w.provider x⟩

lemma settle_grows (hf : w.failure = none) (x : Handle k.Carrier) :
    w.provider.Grows s.hasher ((settle s k x).run w).2.provider := by
  cases hy : w.provider.find? s.hasher k x.val with
  | some y =>
    rw [settle_run_found hf hy]
    exact Provider.grows_hit _ _
  | none =>
    rw [settle_run_new hf hy]
    exact (Provider.grows_register _ _ k x).trans (Provider.grows_miss _ _)

lemma settle_prepared {v : k.Carrier} {o : Handle k.Carrier} (hf : u.failure = none)
    (hp : Prepared s.hasher u.provider k v o.val) (ho : ¬ u.provider.Registered o.id)
    (hr : (Kind.protocol s.hasher).Run w.provider.entities u.provider.entities) :
    Prepared s.hasher ((settle s k o).run u).2.provider k v o.val ∧
      (Kind.protocol s.hasher).Interns w.provider.entities o ((settle s k o).run u).1
        ((settle s k o).run u).2.provider.entities := by
  obtain ⟨result, tables⟩ := settle_run_entities (s := s) hf o
  refine ⟨hp.mono (settle_grows hf o), ?_⟩
  rw [result, tables]
  exact .settles hr (Provider.free_iff.mpr ho)

end Settle

theorem Kind.intern_interns (hw : w.Good s.hasher σ) (hx : σ.Fits (.entity k x)) (hf : w.failure = none)
    (he : ((k.intern s held x).run w).2.failure = none) :
    w.provider.Interns s.hasher w.next x ((k.intern s held x).run w).1 ((k.intern s held x).run w).2.provider := by
  have prepares (keep' : Nat → Prop) (held' : Held) (v : Work) (hv : v.Good s.hasher σ)
      (hheld' : ∀ id, keep' id → held' id = true) : Prepares s keep' k (k.prepare s held' x.val) σ v x.val :=
    prepare_prepares k x.val (fun i _ => replaceable s i) hheld' hv fun _ => hx.part
  unfold Kind.intern at he ⊢
  by_cases hcanonical : w.provider.isCanonical s.hasher held k x = true
  · have entry := Provider.entry_of_isCanonical hw.fits hx hcanonical
    rw [canonicalize_run_canonical hf hcanonical]
    refine ⟨x, .inl rfl, ⟨rfl, fun i hi => ?_, Rewrite.means_refl _⟩, ?_⟩
    · exact hw.sound.canonical_part (i := .entity k x) entry hi
    · obtain ⟨e, he, hex⟩ := entry
      exact .stays he hex
  by_cases hfrozen : x.id ∈ s.frozen
  · rw [canonicalize_run_frozen hf hcanonical hfrozen] at he
    cases he
  by_cases hshared : (held x.id || w.provider.holds x.id) = true
  -- others hold the object, so a copy is prepared, and its label is taken only after its parts have taken theirs
  · have good := hw.withEvents (w.events ++ [.copying w.provider.number k])
    obtain ⟨τ, hrow, hc, ho⟩ := prepares (fun _ => True) .everything _ good fun _ _ => rfl
    rw [canonicalize_run_shared hf hcanonical hfrozen hshared] at he ⊢
    cases hv : ((k.prepare s .everything x.val).run
        { w with events := w.events ++ [.copying w.provider.number k] }).2.failure with
    | some e =>
      rw [copy_run_failed (by simp [hv]), hv] at he
      cases he
    | none =>
      rw [copy_run hv]
      have unused := (hrow.unused (i := .entity k x) good hx rfl (.inl le_rfl)).2
      exact ⟨_, .inr hrow.next, settle_prepared hv ⟨ho, hc hv, hrow.value⟩ unused hrow.tables⟩
  · obtain ⟨τ, hrow, hc, ho⟩ := prepares (fun _ => False) held w hw fun _ => False.elim
    rw [canonicalize_run_sole hf hcanonical hfrozen hshared, StateT.run_bind] at he ⊢
    have hv : ((k.prepare s held x.val).run w).2.failure = none := (settle_failure _).symm.trans he
    have unregistered : ¬ w.provider.Registered x.id := fun hr => hshared (by simp [Provider.holds_iff.mpr hr])
    have unused := (hrow.unused (i := .entity k x) hw hx rfl (.inr ⟨rfl, unregistered⟩)).2
    have prepared : Prepared s.hasher _ k x.val _ := ⟨ho, hc hv, hrow.value⟩
    exact ⟨⟨x.id, ((k.prepare s held x.val).run w).1⟩, .inl rfl, settle_prepared hv prepared unused hrow.tables⟩

theorem Call.Sound.resolves {c : Call} (hc : c.Sound s)
    (hp : (Kind.protocol s.hasher).Filed c.work.provider.entities) (hx : c.item = .entity k x) :
    ∃ y v, (c.item.intern s c.held).run c.work = (.entity k y, v) ∧
      (v.failure = none → c.work.provider.Resolves s.hasher c.work.next x y v.provider) := by
  obtain ⟨item, held, w⟩ := c
  obtain ⟨σ, hw, hf⟩ := hc
  obtain rfl : item = .entity k x := hx
  refine ⟨_, _, rfl, fun he => ?_⟩
  obtain ⟨τ, hr, -⟩ : Replaces s (fun _ => False) (k.intern s held x) (.entity k) σ w (.entity k x) :=
    intern_replaces k held x hw hf fun _ => False.elim
  exact (Kind.intern_interns hw hf (hr.calm he) he).resolves hp

def Stats.looked (z : Stats) (hit : Prop) [Decidable hit] : Stats :=
  if hit then { z with hits := z.hits + 1 } else { z with entities := z.entities + 1, misses := z.misses + 1 }

section Again

variable {v : k.Carrier}

lemma canonical_passes (hf : w.failure = none) (hp : w.provider.Sound s.hasher) {is : List Item}
    (his : ∀ i ∈ is, w.provider.Canonical s.hasher i) (outer : Held) :
    Passes s outer (fun _ => True) fun done rest u => u = w ∧ done ++ rest = is where
  nothing := by
    rintro done rest u ⟨rfl, rfl⟩
    exact ⟨rfl, List.append_assoc ..⟩
  text t := by
    rintro u ⟨rfl, rfl⟩
    rw [poolText_canonical hf (his _ (by simp))]
    exact ⟨rfl, List.append_assoc ..⟩
  list _ := by
    rintro u ⟨rfl, rfl⟩
    rw [internList_canonical hf hp (his _ (by simp))]
    exact ⟨rfl, List.append_assoc ..⟩
  entity := by
    rintro done rest k x held - - u ⟨rfl, rfl⟩
    have entry : u.provider.HasEntry k x := his (.entity k x) (by simp)
    rw [intern_entry hf hp entry]
    exact ⟨rfl, List.append_assoc ..⟩

theorem Kind.prepare_canonical (hf : w.failure = none) (hp : w.provider.Sound s.hasher)
    (hv : ∀ i ∈ k.parts v, w.provider.Canonical s.hasher i) (held : Held) :
    ∃ o, (k.prepare s held v).run w = (o, w) ∧ (Kind.protocol s.hasher).Agree o v := by
  obtain ⟨⟨same, parts⟩, outline⟩ :=
    prepare_sends (canonical_passes hf hp hv held) k v (fun _ _ => trivial) w ⟨rfl, rfl⟩
  rw [List.append_nil] at parts
  refine ⟨_, Prod.ext rfl same, agree_of_matches outline ?_⟩
  rw [parts]
  exact List.forall₂_same.mpr fun i _ => .refl i

theorem Kind.copy_prepared {h : Hasher} {q : Provider} (hv : ∀ i ∈ k.parts v, q.Canonical h i) (storage : Nat) :
    (∀ i ∈ k.parts (k.copy storage v), q.Canonical h i) ∧ (Kind.protocol h).Agree v (k.copy storage v) := by
  have matching := k.copy_matches storage v fun j l hl => by
    rcases hv _ hl with empty | ⟨r, -, rfl⟩
    · exact .inr empty
    · exact .inl rfl
  refine ⟨fun i hi => ?_, agree_of_matches (k.copy_outline storage v).symm matching⟩
  obtain ⟨j, hj, same⟩ := exists_of_mem matching.flip hi
  cases same with
  | refl => exact hv _ hj
  | empty _ hn => exact .inl hn

theorem settle_stats (filed : (Kind.protocol s.hasher).Filed w.provider.entities) (hf : w.failure = none)
    (o : Handle k.Carrier) : ((settle s k o).run w).2.failure = none ∧ ((settle s k o).run w).2.provider.stats =
      w.provider.stats.looked (w.provider.canonicalCount s.hasher k o.val = 1) := by
  refine ⟨(settle_failure o).trans hf, ?_⟩
  have count := filed.count_iff (Kind.protocol_lawful s.hasher) o.val
  rw [← Provider.canonicalCount_protocol] at count
  cases hy : w.provider.find? s.hasher k o.val with
  | some y =>
    obtain ⟨e, he, -, agree⟩ := filed.find?_some hy
    rw [settle_run_found hf hy, Stats.looked, if_pos (count.mpr ⟨e, he, agree⟩)]
    rfl
  | none =>
    rw [settle_run_new hf hy, Stats.looked, if_neg]
    · rfl
    · intro hc
      obtain ⟨e, he, agree⟩ := count.mp hc
      exact filed.find?_none hy he agree

theorem Kind.intern_prepared (hw : w.Good s.hasher σ) (hx : σ.Fits (.entity k x))
    (filed : (Kind.protocol s.hasher).Filed w.provider.entities) (hf : w.failure = none)
    (hr : ¬ w.provider.Registered x.id) (hz : x.id ∉ s.frozen)
    (hc : ∀ i ∈ k.parts x.val, w.provider.Canonical s.hasher i) :
    ((k.intern s held x).run w).2.failure = none ∧ ((k.intern s held x).run w).2.provider.stats =
      w.provider.stats.looked (w.provider.canonicalCount s.hasher k x.val = 1) := by
  have hcanonical : ¬ w.provider.isCanonical s.hasher held k x = true := fun hc =>
    hr ⟨k, x, Provider.entry_of_isCanonical hw.fits hx hc, rfl⟩
  have counted {o : k.Carrier} (agree : (Kind.protocol s.hasher).Agree o x.val) :
      w.provider.canonicalCount s.hasher k o = 1 ↔ w.provider.canonicalCount s.hasher k x.val = 1 :=
    filed.count_congr (Kind.protocol_lawful s.hasher) agree
  unfold Kind.intern
  by_cases hshared : (held x.id || w.provider.holds x.id) = true
  · rw [canonicalize_run_shared hf hcanonical hz hshared]
    have good := hw.withEvents (w.events ++ [.copying w.provider.number k])
    generalize hu : ({ w with events := w.events ++ [.copying w.provider.number k] } : Work) = u at good
    have provider : u.provider = w.provider := by rw [← hu]
    have calm : u.failure = none := by rw [← hu]; exact hf
    obtain ⟨o, prepared, agree⟩ := prepare_canonical calm good.sound (provider ▸ hc) .everything
    rw [copy_run (by rw [prepared]; exact calm), prepared]
    have settled := settle_stats (w := { u with next := u.next + 1 }) (provider ▸ filed) calm ⟨u.next, o⟩
    simpa only [provider, counted agree] using settled
  · obtain ⟨o, prepared, agree⟩ := prepare_canonical hf hw.sound hc held
    rw [canonicalize_run_sole hf hcanonical hz hshared, run_bind_of prepared]
    simpa only [counted agree] using settle_stats filed hf (⟨x.id, o⟩ : Handle k.Carrier)

lemma find?_entry (filed : (Kind.protocol s.hasher).Filed w.provider.entities) (hx : w.provider.HasEntry k x)
    (agree : (Kind.protocol s.hasher).Agree x.val v) : w.provider.find? s.hasher k v = some x := by
  obtain ⟨e, he, rfl⟩ := hx
  have lawful := Kind.protocol_lawful s.hasher
  cases hy : w.provider.find? s.hasher k v with
  | none => exact absurd agree (filed.find?_none hy he)
  | some y =>
    obtain ⟨f, hf, rfl, agree'⟩ := filed.find?_some hy
    rw [filed.unique lawful hf he (lawful.trans agree' (lawful.symm agree))]

theorem Kind.intern_copy (hw : w.Good s.hasher σ) (filed : (Kind.protocol s.hasher).Filed w.provider.entities)
    (hf : w.failure = none) (hx : w.provider.HasEntry k x) {id storage : Nat}
    (hy : σ.Fits (.entity k ⟨id, k.copy storage x.val⟩)) (hr : ¬ w.provider.Registered id) (hz : id ∉ s.frozen)
    (hs : held id = false) :
    (k.intern s held ⟨id, k.copy storage x.val⟩).run w =
      (x, { w with provider := w.provider.hit, events := w.events ++ [.reused w.provider.number k] }) := by
  have lawful := Kind.protocol_lawful s.hasher
  obtain ⟨canonical, agree⟩ := Kind.copy_prepared (fun _ => hw.sound.canonical_part (i := .entity k x) hx) storage
  obtain ⟨o, prepared, agree'⟩ := prepare_canonical hf hw.sound canonical held
  have unregistered : ¬ w.provider.isCanonical s.hasher held k ⟨id, k.copy storage x.val⟩ = true := fun hc =>
    hr ⟨k, _, Provider.entry_of_isCanonical hw.fits hy hc, rfl⟩
  have unshared : ¬ (held id || w.provider.holds id) = true := by simp [hs, Provider.holds_iff, hr]
  unfold Kind.intern
  rw [canonicalize_run_sole hf unregistered hz unshared, run_bind_of prepared]
  exact settle_run_found hf (find?_entry filed hx (lawful.trans agree (lawful.symm agree')))

end Again

end CodeModel
