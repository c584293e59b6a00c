import CodeModel.Proofs.Interning.Log
import CodeModel.Proofs.Session.Pooling
import CodeModel.Proofs.Session.TwinSteps

namespace CodeModel

open Session Builder

def Stats.blind (z : Stats) : Stats := { z with strings := 0 }

def PoolView.blind (v : PoolView) : PoolView :=
  ⟨0, false, "", v.text, none, none, none, v.file.map fun f => (false, f.2)⟩

/-- What is left of an answer without the identity of texts and their number. Of an answer that hinges on the identity
of texts, less is left. -/
def Answer.blind (onText : Bool) : Answer → Answer
  | .provider v => .provider { v with stats := v.stats.blind }
  | .same b => .same (b && !onText)
  | .equals ab ba e => if onText then .equals false false none else .equals ab ba e
  | .stats z _ isEmpty => .stats z.blind "" isEmpty
  | .interned e moved isSealed z => .interned e (if onText then none else moved) isSealed z.blind
  | .internedNothing z => .internedNothing z.blind
  | .made v z => .made v z.blind
  | .notMade e z => .notMade e z.blind
  | .texts _ => .texts 0
  | .canonical b n => .canonical b (if b then n else 0)
  | .pool v => .pool v.blind
  | .dump _ => .dump ⟨[], [], []⟩
  | a => a

def Session.settledTogether (s : Session) (a b : String) : Bool :=
  match s.register? a, s.register? b with
  | some (.entity k x), some (.entity l y) => s.providers.any fun c =>
    c.2.isCanonical s.hasher Held.everything k x && c.2.isCanonical s.hasher Held.everything l y
  | _, _ => false

/-- Whether the answer to a step hinges on the identity of texts: the step is about a text itself, or it compares by
their parts entities that no provider has settled together. -/
def Session.onText (s : Session) : Step → Bool
  | .intern _ r | .same r _ =>
    match s.register? r with
    | some (.text _) => true
    | _ => false
  | .equals a b => !s.settledTogether a b
  | _ => false

def Answer.Alike (o : Bool) (a b : Answer) : Prop := a.blind o = b.blind o

variable {d : Seeding} {s t : Session} {σ τ : Store} {p r : String} {i j : Item} {o : Bool}

lemma Provider.Twin.stats {h : Hasher} {q q' : Provider} (hq : q.Twin h d q') : q.stats.blind = q'.stats.blind := by
  simp only [Stats.blind, Provider.stats, hq.entityCount, hq.listCount, hq.hits, hq.misses]

lemma Provider.Twin.isEmpty {h : Hasher} {q q' : Provider} (hq : q.Twin h d q') : q.isEmpty = q'.isEmpty := by
  simp only [Provider.isEmpty, hq.entityCount]

lemma EntityList.Twin.identity {k : Kind} {l m : EntityList k.Carrier} (h : l.Twin d k m) :
    l.identity = m.identity := by
  have length : l.items.length = m.items.length := h.length
  simp only [EntityList.identity, List.isEmpty_iff, ← List.length_eq_zero_iff, length, (Item.twin_list.mp h).2.1]

lemma Item.Twin.same? {i' j' : Item} (h : i.Twin d i') (h' : j.Twin d j') :
    Option.Rel (fun b c => (∀ t, i ≠ .text t) → b = c) (i.same? j) (i'.same? j') := by
  cases h with
  | nothing =>
    cases h' with
    | nothing => exact .some fun _ => rfl
    | _ => exact .none
  | text =>
    cases h' with
    | text => exact .some fun hn => absurd rfl (hn _)
    | _ => exact .none
  | @entity k x x' hid =>
    cases h' with
    | @entity l y y' hid' =>
      simp only [Item.same?, hid, hid']
      split
      · exact .some fun _ => rfl
      · exact .none
    | _ => exact .none
  | @list k l m hs hn hi =>
    cases h' with
    | @list k' l' m' hs' hn' hi' =>
      have twins : l.Twin d k m := .list hs hn hi
      have twins' : l'.Twin d k' m' := .list hs' hn' hi'
      by_cases hk : k' = k
      · subst hk
        simp only [Item.same?, dif_pos, EntityList.sameStorage, twins.identity, twins'.identity, twins.length,
          twins'.length]
        exact .some fun _ => rfl
      · simp only [Item.same?, hk, dif_neg, not_false_eq_true]
        exact .none
    | _ => exact .none
  | definition => exact .none

lemma ItemSource.take_alike (source : ItemSource) : Builder.Alike d (Item.Twin d) source.take source.take := by
  cases source with
  | recipe r => exact r.build_alike
  | register name =>
    refine (register_alike name).bind fun i j hij => ?_
    exact .bind (.modify fun _ _ hst => { hst with registers := rel_unassign hst.registers name })
      fun _ _ _ => .pure hij

namespace Session

lemma Twin.setting (h : s.Twin d t) : t.setting = s.setting := by
  rw [Session.setting, Session.setting, h.hasher, h.frozen]

lemma Twin.work {q q' : Provider} (h : s.Twin d t) (hq : q.Twin s.hasher d q') :
    (s.work q).Twin s.hasher d (t.work q') :=
  ⟨hq, h.nextObject, h.events, rfl⟩

lemma Twin.settled {q : Provider} {w v : Work} (h : s.Twin d t) (hq : s.providers.lookup p = some q)
    (hwv : w.Twin s.hasher d v) (hn : w.provider.number = q.number) : (s.settled p w).Twin d (t.settled p v) :=
  { h with
    providers := rel_assign h.providers p hwv.provider
    nextObject := hwv.next
    events := hwv.events
    named := fun b hb hnumber => by
      rcases mem_of_mem_assign hb with rfl | hb
      · exact h.named (p, q) (mem_of_lookup hq) (hn.symm.trans hnumber)
      · exact h.named b hb hnumber }

section Calls

variable {α β : Type} {R : α → β → Prop} {act : Setting → Interning α} {act' : Setting → Interning β}

def CallsTwins (d : Seeding) (R : α → β → Prop) (p : String) (act : Setting → Interning α)
    (act' : Setting → Interning β) (s t : Session) : Prop :=
  ∀ q q', s.providers.lookup p = some q → t.providers.lookup p = some q' → q.Twin s.hasher d q' →
    Interning.Pairs s.hasher d R (act s.setting) (act' s.setting) (s.work q) (t.work q') ∧
      ((act s.setting).run (s.work q)).2.provider.number = q.number

lemma interning_pairs (hst : s.Twin d t) (h : CallsTwins d R p act act' s t) :
    Builder.Pairs d (fun a b => R a.1 b.1 ∧ a.2 = b.2) (interning p act) (interning p act') s t := by
  rcases rel_cases (hst.provider? p) with ⟨hn, hn'⟩ | ⟨q, q', hq, hq', twins⟩
  · have none : (interning p act).run s = none := by simp [interning, interning?, hn]
    have none' : (interning p act').run t = .none := by simp [interning, interning?, hn']
    rw [Builder.Pairs, none, none']
    exact .none
  · obtain ⟨⟨result, works⟩, number⟩ := h q q' hq hq' twins
    rw [Builder.Pairs, interning_run hq, interning_run hq', hst.setting]
    exact .some ⟨⟨result, works.failure⟩, hst.settled hq works number⟩

lemma provider_alike (p : String) :
    Builder.Alike d (fun q q' => ∃ h, q.Twin h d q') (provider p) (provider p) := by
  refine Alike.get.bind fun u v huv => ?_
  rcases rel_cases (huv.provider? p) with ⟨hn, hn'⟩ | ⟨q, q', hq, hq', twins⟩
  · rw [hn, hn']
    exact .failure
  · rw [hq, hq']
    exact .pure ⟨_, twins⟩

lemma statsOf_alike (p : String) : Builder.Alike d (fun z z' : Stats => z.blind = z'.blind) (statsOf p) (statsOf p) :=
  (provider_alike p).bind fun _ _ ⟨_, hq⟩ => .pure hq.stats

lemma call_pairs {ι : Type} {x y : ι} {R : α → α → Prop} (act : ι → Setting → Interning α) (item : α → Item)
    (m : ι → α → Option Bool) (l : α → Option Bool) (hst : s.Twin d t)
    (h : CallsTwins d R p (act x) (act y) s t) (hitem : ∀ a b, R a b → (item a).Twin d (item b))
    (hm : ∀ a b, R a b → o = false → m x a = m y b) (hl : ∀ a b, R a b → l a = l b) :
    Builder.Pairs d (Answer.Alike o) (do
      let (a, e) ← interning p (act x)
      assignItem r (item a)
      return .interned e (m x a) (l a) (← statsOf p)) (do
      let (a, e) ← interning p (act y)
      assignItem r (item a)
      return .interned e (m y a) (l a) (← statsOf p)) s t := by
  refine (interning_pairs hst h).bind fun ⟨a, e⟩ ⟨b, f⟩ u v _ _ ⟨hab, hef⟩ huv => ?_
  refine ((assignItem_alike r (hitem a b hab)).bind fun _ _ _ => (statsOf_alike p).bind fun z z' hz => .pure ?_) u v huv
  dsimp only at hef
  cases o with
  | false => simp only [Answer.Alike, Answer.blind, hm a b hab rfl, hl a b hab, hef, hz]
  | true => simp only [Answer.Alike, Answer.blind, hl a b hab, hef, hz, if_true]

end Calls

section Interning

section First

variable {α β γ : Type} {S : α → β → Prop}

lemma get_pairs {f : Session → Builder α} {g : Session → Builder β} (h : Builder.Pairs d S (f s) (g t) s t) :
    Builder.Pairs d S (get >>= f) (get >>= g) s t := h

lemma register_pairs {f : Item → Builder α} {g : Item → Builder β} (hst : s.Twin d t)
    (h : ∀ i j, s.register? r = some i → t.register? r = some j → i.Twin d j →
      Builder.Pairs d S (f i) (g j) s t) :
    Builder.Pairs d S (Builder.register r >>= f) (Builder.register r >>= g) s t := by
  rw [Builder.Pairs, StateT.run_bind, StateT.run_bind]
  rcases rel_cases (hst.register? r) with ⟨hn, hn'⟩ | ⟨i, j, hi, hj, hij⟩
  · have none {u : Session} (hu : u.register? r = none) : (Builder.register r).run u = .none := by
      simp [Builder.register, Builder.ofOption, hu]
    rw [none hn, none hn']
    exact .none
  · rw [register_run hi, register_run hj]
    exact h i j hi hj hij

lemma provider_pairs {f : Provider → Builder α} {g : Provider → Builder β} (hst : s.Twin d t)
    (h : ∀ q q', s.providers.lookup p = some q → t.providers.lookup p = some q' → q.Twin s.hasher d q' →
      Builder.Pairs d S (f q) (g q') s t) :
    Builder.Pairs d S (provider p >>= f) (provider p >>= g) s t := by
  rw [Builder.Pairs, StateT.run_bind, StateT.run_bind]
  rcases rel_cases (hst.provider? p) with ⟨hn, hn'⟩ | ⟨q, q', hq, hq', twins⟩
  · have none {u : Session} (hu : u.providers.lookup p = none) : (provider p).run u = .none := by
      simp [provider, Builder.ofOption, hu]
    rw [none hn, none hn']
    exact .none
  · have found {u : Session} {c : Provider} (hu : u.providers.lookup p = some c) :
        (provider p).run u = some (c, u) := by
      simp [provider, Builder.ofOption, hu]
    rw [found hq, found hq']
    exact h q q' hq hq' twins

end First

variable (hg : s.Good σ) (ht : t.Good τ) (hst : s.Twin d t)

include hg ht hst

lemma calls_item {held : Held} (hi : σ.Fits i) (hj : τ.Fits j) (hij : i.Twin d j) :
    CallsTwins d (Item.Twin d) p (fun st => i.intern st held) (fun st => j.intern st held) s t := by
  intro q q' hq hq' twins
  have good : (t.work q').Good s.setting.hasher τ := by
    rw [← hst.setting]
    exact ht.work hq'
  exact ⟨paired _ d i j held _ _ σ τ hij (hg.work hq) good hi hj (hst.work twins), (i.intern_logs held).number⟩

theorem intern_pairs (p r : String) :
    Builder.Pairs d (Answer.Alike (s.onText (.intern p r))) (intern p r) (intern p r) s t := by
  refine get_pairs (register_pairs hst fun i j hi hj hij => ?_)
  rw [hst.heldBeside]
  have calls (held : Held) :
      CallsTwins d (Item.Twin d) p (fun st => i.intern st held) (fun st => j.intern st held) s t :=
    calls_item hg ht hst (hg.fits_register hi) (ht.fits_register hj) hij
  cases hij with
  | nothing =>
    refine (statsOf_alike p).bind (fun z z' hz => .pure ?_) s t hst
    simp only [Answer.Alike, Answer.blind, hz]
  | @text x y hxy =>
    have about : s.onText (.intern p r) = true := by simp [onText, hi]
    rw [about]
    exact call_pairs (R := fun x y => Item.Twin d (.text x) (.text y)) (fun x st => poolText st x) .text
      (fun x y => some (y.id != x.id)) (fun _ => none) hst (fun q q' hq hq' h => calls .nothing q q' hq hq' h)
      (fun _ _ h => h) (by simp) fun _ _ _ => rfl
  | @entity k x y hid ho hp =>
    exact call_pairs (R := Handle.Twin d k) (fun x st => k.intern st _ x) (.entity k)
      (fun x y => some (y.id != x.id)) (fun _ => none) hst (fun q q' hq hq' h => calls _ q q' hq hq' h)
      (fun _ _ h => h) (fun a b hab _ => by rw [(Item.twin_entity.mp hab).1, hid]) fun _ _ _ => rfl
  | @list k l m hs hn hp =>
    have twins : l.Twin d k m := .list hs hn hp
    exact call_pairs (R := EntityList.Twin d k) (fun l st => k.internList st l) (.list k)
      (fun l m => some (m.identity != l.identity)) (fun m => some m.sealed) hst
      (fun q q' hq hq' h => calls .nothing q q' hq hq' h) (fun _ _ h => h)
      (fun a b hab _ => by rw [EntityList.Twin.identity hab, twins.identity])
      fun a b hab => by rw [(Item.twin_list.mp hab).1]
  | @definition x y hid ho hp =>
    exact call_pairs (R := fun x y => Item.Twin d (.definition x) (.definition y))
      (fun x st => Definition.internMembers st x) .definition (fun _ _ => none) (fun _ => none) hst
      (fun q q' hq hq' h => calls .nothing q q' hq hq' h) (fun _ _ h => h) (fun _ _ _ _ => rfl) fun _ _ _ => rfl

theorem internOptional_pairs (p r : String) :
    Builder.Pairs d (Answer.Alike false) (internOptional p r) (internOptional p r) s t := by
  refine register_pairs hst fun i j hi _ hij => ?_
  have same : s.onText (.intern p r) = false → Builder.Pairs d (Answer.Alike false) (intern p r) (intern p r) s t :=
    fun h => h ▸ intern_pairs hg ht hst p r
  cases hij with
  | nothing | entity => exact same (by simp [onText, hi])
  | _ => exact .none

theorem prepare_pairs (p r : String) :
    Builder.Pairs d (Answer.Alike false) (prepare p r) (prepare p r) s t := by
  refine register_pairs hst fun i j hi hj hij => ?_
  cases hij with
  | nothing | text | list | definition => exact .none
  | @entity k x y hid ho hp =>
    refine get_pairs ?_
    have sole : s.isSoleHolder r x.id = t.isSoleHolder r y.id := by rw [hst.isSoleHolder, hid]
    cases hs : t.isSoleHolder r y.id with
    | false =>
      simp only [sole, hs, Bool.false_eq_true, if_false]
      exact .some ⟨rfl, hst⟩
    | true =>
      simp only [sole, hs, if_true, hst.heldBeside]
      refine call_pairs (R := Handle.Twin d k) (fun x st => k.prepareInPlace st _ x) (.entity k) (fun _ _ => none)
        (fun _ => none) hst (fun q q' hq hq' twins => ?_) (fun _ _ h => h) (fun _ _ _ _ => rfl) fun _ _ _ => rfl
      have good : (t.work q').Good s.setting.hasher τ := by
        rw [← hst.setting]
        exact ht.work hq'
      exact ⟨prepareInPlace_pairs _ (.entity hid ho hp) (hg.work hq) good (hg.fits_register hi) (ht.fits_register hj)
        (hst.work twins), (prepareInPlace_logs _ x).number⟩

theorem internObject_pairs (p : String) (source : ItemSource) (target : String) :
    Builder.Pairs d (Answer.Alike false) (internObject p source target) (internObject p source target) s t := by
  refine (source.take_alike s t hst).bind fun i j u v hu hv hij huv => ?_
  obtain ⟨σ', taken⟩ := take_makes hg source s rfl i u hu
  obtain ⟨τ', taken'⟩ := take_makes ht source t rfl j v hv
  cases hij with
  | nothing | text | list | definition => exact .none
  | @entity k x y hid ho hp =>
    refine get_pairs ?_
    rw [huv.heldBeside, huv.heldBeside, hid]
    cases hs : v.heldBeside none none y.id with
    | true =>
      simp only [if_true]
      exact .some ⟨rfl, huv⟩
    | false =>
      simp only [Bool.false_eq_true, if_false]
      have calls : CallsTwins d (Handle.Twin d k) p (fun st => k.intern st (v.heldBeside none (some p)) x)
          (fun st => k.intern st (v.heldBeside none (some p)) y) u v := fun q q' hq hq' h =>
        calls_item taken.good taken'.good huv taken.fits taken'.fits (.entity hid ho hp) q q' hq hq' h
      refine (interning_pairs huv calls).bind fun ⟨a, e⟩ ⟨b, f⟩ u' v' _ _ ⟨hab, hef⟩ huv' => ?_
      dsimp only at hef
      subst hef
      cases e with
      | some e =>
        exact (statsOf_alike p).bind (fun z z' hz => .pure (by simp only [Answer.Alike, Answer.blind, hz])) u' v' huv'
      | none =>
        refine ((assignItem_alike target hab).bind fun _ _ _ => ?_) u' v' huv'
        refine (statsOf_alike p).bind fun z z' hz => .pure ?_
        have display : k.display? a.val = k.display? b.val := hab.display
        simp only [Answer.Alike, Answer.blind, hz, display]

lemma canonical_pairs (p r : String) :
    Builder.Pairs d (Answer.Alike false) (canonical p r) (canonical p r) s t := by
  refine get_pairs (provider_pairs hst fun q q' hq hq' twins => register_pairs hst fun i j hi hj hij => ?_)
  have sound := hg.sound _ (mem_of_lookup hq)
  have fits := hg.providers _ (mem_of_lookup hq)
  have sound' := ht.sound _ (mem_of_lookup hq')
  have fits' := ht.providers _ (mem_of_lookup hq')
  have hi' := hg.fits_register hi
  have hj' := ht.fits_register hj
  simp only [← hst.hasher] at sound' fits'
  cases hij with
  | nothing | text | definition => exact .none
  | @entity k x y hid ho hp =>
    refine .some ⟨?_, hst⟩
    rw [← hst.hasher, hst.heldBeside]
    have same : q.isCanonical s.hasher (t.heldBeside (some r) none) k x =
        q'.isCanonical s.hasher (t.heldBeside (some r) none) k y :=
      twins.isCanonical sound sound' fits fits' hi' hj' hid _
    simp only [Answer.Alike, Answer.blind, same]
    split
    · next hc =>
      have known : q.Canonical s.hasher (.entity k x) := Provider.entry_of_isCanonical fits hi' (same.trans hc)
      have known' : q'.Canonical s.hasher (.entity k y) := Provider.entry_of_isCanonical fits' hj' hc
      rw [twins.canonicalCount sound sound' fits fits' ⟨ho, hp⟩ (fun _ hi => sound.canonical_part known hi)
        fun _ hi => sound'.canonical_part known' hi]
    · rfl
  | @list k l m hs hn hp =>
    have lists : l.Twin d k m := .list hs hn hp
    refine .some ⟨?_, hst⟩
    rw [← hst.hasher, twins.isCanonicalList sound sound' lists, hs]
    rfl

lemma sharedTypes_pairs (p : String) :
    Builder.Pairs d (Answer.Alike false) (sharedTypes p) (sharedTypes p) s t := by
  refine get_pairs (provider_pairs hst fun q q' hq hq' twins => .some ⟨?_, hst⟩)
  have sound := hg.sound _ (mem_of_lookup hq)
  have fits := hg.providers _ (mem_of_lookup hq)
  have sound' := ht.sound _ (mem_of_lookup hq')
  have fits' := ht.providers _ (mem_of_lookup hq')
  simp only [← hst.hasher] at sound' fits'
  have same (x : SharedType) : (⟨x.handle.val.display, s.frozen.contains x.handle.id,
      q.isCanonical s.hasher Held.everything .typeRef x.handle, q.canonicalCount s.hasher .typeRef x.handle.val⟩ :
        SharedTypeView) = ⟨x.handle.val.display, t.frozen.contains x.handle.id,
      q'.isCanonical t.hasher Held.everything .typeRef x.handle, q'.canonicalCount t.hasher .typeRef x.handle.val⟩ := by
    have none (i : Item) (hi : i ∈ Kind.parts .typeRef x.handle.val) : False := by simp at hi
    have canonical := twins.isCanonical sound sound' fits fits' (hg.shared x) (ht.shared x) rfl Held.everything
    have count := twins.canonicalCount sound sound' fits fits' (Item.twin_entity.mp (.refl _)).2
      (fun i hi => (none i hi).elim) fun i hi => (none i hi).elim
    rw [← hst.hasher, ← hst.frozen, canonical, count]
  simp only [same]
  rfl

lemma same_of_settledTogether {k : Kind} {x y x' y' : Handle k.Carrier} {a b : String}
    (hx : s.register? a = some (.entity k x)) (hy : s.register? b = some (.entity k y))
    (hx' : t.register? a = some (.entity k x')) (hy' : t.register? b = some (.entity k y')) (hxx : x.Twin d k x')
    (hyy : y.Twin d k y') (h : s.settledTogether a b = true) :
    k.same x.val y.val = k.same x'.val y'.val ∧ k.same y.val x.val = k.same y'.val x'.val ∧
      k.contractFailure? s.hasher x.val y.val = k.contractFailure? s.hasher x'.val y'.val := by
  simp only [settledTogether, hx, hy, List.any_eq_true, Bool.and_eq_true] at h
  obtain ⟨c, hc, canonicalX, canonicalY⟩ := h
  obtain ⟨c', hc', -, twins⟩ := exists_of_mem hst.providers hc
  have sound := hg.sound c hc
  have fits := hg.providers c hc
  have sound' := ht.sound c' hc'
  have fits' := ht.providers c' hc'
  simp only [← hst.hasher] at sound' fits'
  have fit {i : Item} {r : String} (hi : s.register? r = some i) : σ.Fits i := hg.fits_register hi
  have fit' {i : Item} {r : String} (hi : t.register? r = some i) : τ.Fits i := ht.fits_register hi
  have id : x.id = x'.id := (Item.twin_entity.mp hxx).1
  have id' : y.id = y'.id := (Item.twin_entity.mp hyy).1
  have settledX := twins.isCanonical sound sound' fits fits' (fit hx) (fit' hx') id Held.everything
  have settledY := twins.isCanonical sound sound' fits fits' (fit hy) (fit' hy') id' Held.everything
  have entryX := Provider.entry_of_isCanonical fits (fit hx) canonicalX
  have entryY := Provider.entry_of_isCanonical fits (fit hy) canonicalY
  have entryX' := Provider.entry_of_isCanonical fits' (fit' hx') (settledX.symm.trans canonicalX)
  have entryY' := Provider.entry_of_isCanonical fits' (fit' hy') (settledY.symm.trans canonicalY)
  obtain ⟨same, failure⟩ := Provider.Twin.same sound sound' fits fits' entryX entryY entryX' entryY' hxx hyy
  obtain ⟨same', -⟩ := Provider.Twin.same sound sound' fits fits' entryY entryX entryY' entryX' hyy hxx
  exact ⟨same, same', failure⟩

lemma equals_pairs (a b : String) :
    Builder.Pairs d (Answer.Alike (s.onText (.equals a b))) (equals a b) (equals a b) s t := by
  refine get_pairs (register_pairs hst fun i i' hi hi' hii => register_pairs hst fun j j' hj hj' hjj => ?_)
  cases hii with
  | @entity k x x' hid ho hp =>
    cases hjj with
    | @entity l y y' hid' ho' hp' =>
      by_cases h : l = k
      · subst h
        simp only [dif_pos]
        refine .some ⟨?_, hst⟩
        cases together : s.settledTogether a b with
        | false => simp only [Answer.Alike, Answer.blind, onText, together, Bool.not_false, if_true]
        | true =>
          have twins : x.Twin d l x' := .entity hid ho hp
          have twins' : y.Twin d l y' := .entity hid' ho' hp'
          obtain ⟨same, same', failure⟩ := same_of_settledTogether hg ht hst hi hj hi' hj' twins twins' together
          rw [← hst.hasher, same, same', failure]
          rfl
      · simp only [h, dif_neg, not_false_eq_true]
        exact .none
    | _ => exact .none
  | _ => cases hjj <;> exact .none

end Interning

section Questions

lemma stats_alike (p : String) : Builder.Alike d (Answer.Alike false) (run (.stats p)) (run (.stats p)) := by
  refine (provider_alike p).bind fun q q' ⟨_, twins⟩ => .pure ?_
  simp only [Answer.Alike, Answer.blind, twins.stats, twins.isEmpty]

lemma internString_alike (p v target : String) :
    Builder.Alike d (Answer.Alike false) (run (.internString p v target)) (run (.internString p v target)) := by
  refine (text_alike v).bind fun x y hxy s t hst => ?_
  have calls : CallsTwins d (Text.Twin d) p (fun st => poolText st x) (fun st => poolText st y) s t :=
    fun q q' _ _ twins => ⟨poolText_pairs (hst.work twins) hxy, (poolText_logs x).number⟩
  refine (interning_pairs hst calls).bind fun ⟨a, e⟩ ⟨b, f⟩ u v _ _ ⟨hab, _⟩ huv => ?_
  refine ((assignItem_alike target (.text hab)).bind fun _ _ _ => ?_) u v huv
  exact (provider_alike p).bind fun _ _ _ => .pure rfl

lemma Twin.addProvider (h : s.Twin d t) (name : String) (options : Options) :
    (s.addProvider name options).Twin d (t.addProvider name options) := by
  have new : (Provider.create s.hasher s.nextProvider s.nextText options).Twin s.hasher d
      (Provider.create s.hasher s.nextProvider s.nextText options) :=
    Provider.create_twin s.nextProvider (.inr ⟨rfl, h.given.ne'⟩)
  refine { h with
    providers := rel_assign h.providers name ?_
    nextText := congrArg (· + TextPool.commonTexts.length) h.nextText
    nextProvider := congrArg (· + 1) h.nextProvider
    events := ?_
    given := h.given.trans (Nat.lt_succ_self _)
    named := fun b hb hn => ?_ }
  · rw [← h.hasher, ← h.nextProvider, ← h.nextText]
    exact new
  · simp only [Session.addProvider, h.events, h.nextProvider]
  · rcases mem_of_mem_assign hb with rfl | hb
    · rw [Provider.create_number] at hn
      exact absurd hn h.given.ne'
    · exact h.named b hb hn

lemma newProvider_alike (target : String) (options : Options) :
    Builder.Alike d (Answer.Alike false) (run (.newProvider target options)) (run (.newProvider target options)) := by
  refine .bind (.modify fun _ _ hst => hst.addProvider target options) fun _ _ _ => ?_
  refine (provider_alike target).bind fun q q' ⟨_, twins⟩ => .pure ?_
  simp only [Answer.Alike, Answer.blind, Provider.view, twins.stats, twins.number, twins.isEmpty]

lemma same_pairs (a b : String) (hst : s.Twin d t) :
    Builder.Pairs d (Answer.Alike (s.onText (.same a b))) (run (.same a b)) (run (.same a b)) s t := by
  refine register_pairs hst fun i i' hi hi' hii => register_pairs hst fun j j' _ _ hjj => ?_
  rcases rel_cases (hii.same? hjj) with ⟨hn, hn'⟩ | ⟨e, f, he, hf, hef⟩
  · rw [hn, hn']
    exact .none
  · rw [he, hf]
    refine .some ⟨?_, hst⟩
    by_cases text : ∃ x, i = .text x
    · obtain ⟨x, rfl⟩ := text
      have about : s.onText (.same a b) = true := by simp [onText, hi]
      simp only [Answer.Alike, Answer.blind, about, Bool.not_true, Bool.and_false]
    · rw [hef fun x hx => text ⟨x, hx⟩]
      rfl

lemma dump_alike (p : String) : Builder.Alike d (Answer.Alike false) (run (.dump p)) (run (.dump p)) :=
  Alike.get.bind fun _ _ _ => .pure (by simp only [Answer.Alike, Answer.blind])

end Questions

end Session

end CodeModel
